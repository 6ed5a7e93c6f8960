import Highlighter.Pattern.Trail
import Highlighter.Text.Encoding

/-! Reading again what a group has captured: at the same place as before, in the same characters, or in
characters that are alike in case. -/

namespace Highlighter.Pattern

/-- What a character folds to; `code` is read in its place where it is cut. -/
def foldOf (asciiFold : Bool) (code : Nat) (c : Char) : List Nat :=
  if asciiFold && 128 ≤ code then [c.toNat]
  else
    match Unicode.fold? code with
    | some folded => [folded]
    | none => ((Unicode.longFold? code).map (·.1)).getD [c.toNat]

/-- The number that a character is read as where only so many bytes are left: its own bits are then
those of a character with fewer bytes. -/
def cutCode (c : Char) (left : Nat) : Nat :=
  if c.utf8Size ≤ left then c.toNat
  else
    match (Text.encodeUtf8 [c]).map UInt8.toNat with
    | [] => 0
    | lead :: rest =>
      if left ≤ 1 then lead
      else (rest.take (left - 1)).foldl (fun n b => 64 * n + b % 64) (lead % Nat.pow 2 (7 - left))

/-- Where the text has been read so far from a place on, if it begins with the characters. -/
def rereadExact (text : Text) : List Char → Nat → Option Nat
  | [], place => some place
  | c :: rest, place => if text[place]? == some c then rereadExact text rest (place + 1) else none

/-- The same without regard to case, one character for one character. No more than so many bytes of the
text are read; a character that goes past them is cut. -/
def rereadFolded (text : Text) (asciiFold : Bool) : List Char → Nat → Nat → Option Nat
  | [], _, place => some place
  | c :: rest, left, place => do
    let found ← text[place]?
    if foldOf asciiFold c.toNat c == foldOf asciiFold (cutCode found left) found then
      rereadFolded text asciiFold rest (left - found.utf8Size) (place + 1)
    else none

/-- What reading a capture again leads to. -/
inductive Reread where
  | read (place : Nat)
  | differs
  /-- The capture takes more bytes than are left. -/
  | tooLong
  deriving DecidableEq, Repr

/-- A text with the limit up to which it may be read, and what is alike in case in it. -/
structure Reader where
  text : Text
  limit : Nat
  asciiFold : Bool

namespace Reader

/-- Reads characters again, which have so many bytes; a capture that ends before it starts is empty. -/
def reread (r : Reader) (fold : Bool) (start stop place : Nat) : Reread :=
  if stop ≤ start then .read place
  else
    let captured := (r.text.extract start stop).toList
    let left := (r.text.extract place r.limit).toList
    if Text.byteLength left < Text.byteLength captured then .tooLong
    else
      let found :=
        if fold then rereadFolded r.text r.asciiFold captured (Text.byteLength captured) place
        else rereadExact r.text captured place
      match found with
      | some next => .read next
      | none => .differs

/-- Reads one of several groups again, the one that was defined last being tried first. -/
def rereadGroups (r : Reader) (fold : Bool) (captures : Array Capture) (place : Nat) :
    List Nat → Option Nat
  | [] => none
  | g :: rest =>
    match captures[g]? with
    | some ⟨some start, some stop⟩ =>
      match r.reread fold start stop place with
      | .read next => some next
      | .differs => rereadGroups r fold captures place rest
      | .tooLong => none
    | _ => rereadGroups r fold captures place rest

/-- Reads again what one of the groups captured at a call level: the last end that is found there, and
the start before it. -/
def rereadLevel (r : Reader) (reference : Reference) (wanted : Int) (place : Nat) :
    Int → Option Nat → Trail → Option Nat
  | _, _, [] => none
  | level, stop, .called _ :: rest => rereadLevel r reference wanted place (level - 1) stop rest
  | level, stop, .returned :: rest => rereadLevel r reference wanted place (level + 1) stop rest
  | level, stop, .groupEnd g p _ :: rest =>
    let found := level == wanted && reference.groups.contains g
    rereadLevel r reference wanted place level (if found then some p else stop) rest
  | level, stop, .groupStart g start _ :: rest =>
    match stop with
    | some stop' =>
      if level == wanted && reference.groups.contains g then
        match r.reread reference.fold start stop' place with
        | .read next => some next
        | _ => none
      else rereadLevel r reference wanted place level stop rest
    | none => rereadLevel r reference wanted place level stop rest
  | level, stop, _ :: rest => rereadLevel r reference wanted place level stop rest

/-- Reads again what a reference refers to. -/
def rereadReference (r : Reader) (reference : Reference) (captures : Array Capture) (t : Trail)
    (place : Nat) : Option Nat :=
  match reference.level with
  | some wanted => r.rereadLevel reference wanted place 0 none t
  | none => r.rereadGroups reference.fold captures place reference.groups.reverse

end Reader

/-- Whether a group was left at a call level. -/
def Trail.leftAt (groups : List Nat) (wanted : Int) : Int → Trail → Bool
  | _, [] => false
  | level, .called _ :: rest => leftAt groups wanted (level - 1) rest
  | level, .returned :: rest => leftAt groups wanted (level + 1) rest
  | level, .groupEnd g _ _ :: rest =>
    (level == wanted && groups.contains g) || leftAt groups wanted level rest
  | level, _ :: rest => leftAt groups wanted level rest

/-- Whether one of the groups of a reference is set. -/
def Reference.isSet (r : Reference) (captures : Array Capture) (t : Trail) : Bool :=
  match r.level with
  | some wanted => t.leftAt r.groups wanted 0
  | none =>
    r.groups.any fun g =>
      match captures[g]? with
      | some ⟨some _, some _⟩ => true
      | _ => false

end Highlighter.Pattern

import Highlighter.Pattern.Reading

/-! Characters written by their codes, and control and meta characters. -/

namespace Highlighter.Pattern.Parser

/-- The base in which a code is written: its digits, how many a code may have, and which characters
may not follow the last of them. -/
structure CodeBase where
  base : Nat
  value? : Char → Option Nat
  most : Nat
  extends? : Char → Bool

def hexBase : CodeBase := ⟨16, Text.hexDigit?, 8, fun c => (Text.hexDigit? c).isSome⟩

def octalBase : CodeBase := ⟨8, octalValue?, 11, Char.isDigit⟩

/-- What may come next in braces, where ranges are allowed: a dash after a code that is no range's
end, or the end of a range. -/
inductive CodePlace where
  | plain
  | afterCode
  | inRange
  deriving DecidableEq, Repr

def isCodeDivider (c : Char) : Bool := c == ' ' || c == '\n'

/-- One code and what follows it. -/
def oneCode (b : CodeBase) (s : List Char) : Except PatternError (Nat × List Char) :=
  let (n, count, after) := digits b.base b.value? b.most s
  if count == 0 then .error .codePoint
  else if 0xFFFFFFFF < n then .error .numberTooLarge
  else .ok (n, after)

/-- The codes up to the closing brace. `ended` tells that a code has just been read, to which no
further digit may be added. The fuel is more than the characters there are. -/
def codesInBraces (b : CodeBase) (ranges : Bool) :
    Nat → Bool → CodePlace → List Char → Except PatternError (List CodeItem × List Char)
  | 0, _, _, _ => .error .codePoint
  | _ + 1, _, _, [] => .error .codePoint
  | fuel + 1, ended, place, c :: s => do
    let after := if isCodeDivider c then (c :: s).dropWhile isCodeDivider else c :: s
    match after with
    | [] => .error .codePoint
    | '}' :: left => if place == .inRange then .error .codePoint else .ok ([], left)
    | d :: left =>
      if ranges && d == '-' then
        if place == .afterCode && !left.isEmpty then
          let (items, left) ← codesInBraces b ranges fuel false .inRange left
          .ok (.dash :: items, left)
        else .error .codePoint
      else if ended && !isCodeDivider c then
        .error (if b.extends? d then .wideCharTooLong else .codePoint)
      else
        let (n, left) ← oneCode b after
        let place := if place == .inRange then .plain else .afterCode
        let (items, left) ← codesInBraces b ranges fuel true place left
        .ok (.code n :: items, left)

/-- A code in braces, after the opening one, or several. `none` where no code begins there. -/
def bracedCodes? (b : CodeBase) (ranges endsRange : Bool) (s : List Char) :
    Except PatternError (Option (List CodeItem × List Char)) := do
  let (n, count, after) := digits b.base b.value? b.most s
  if after.head?.any b.extends? then throw .wideCharTooLong
  if count == 0 then return none
  if 0xFFFFFFFF < n then throw .numberTooLarge
  match after with
  | [] => throw .codePoint
  | '}' :: left => return some ([.code n], left)
  | _ =>
    let place := if endsRange then CodePlace.plain else .afterCode
    let (items, left) ← codesInBraces b ranges (after.length + 1) false place after
    if items.isEmpty then throw .codePoint
    return some (.code n :: items, left)

/-- What an escape with a number writes. -/
inductive NumberEscape where
  | items (items : List CodeItem)
  | byte (value : Nat) (base : Nat)
  /-- The letter stands for itself. -/
  | letter

/-- A hexadecimal escape after its `x`: codes in braces, or up to two digits of a byte. -/
def hexEscape (ranges endsRange : Bool) : Parser NumberEscape := do
  match ← rest with
  | '{' :: s =>
    match ← judge (bracedCodes? hexBase ranges endsRange s) with
    | some (items, left) => setRest left; return .items items
    | none => return .letter
  | s =>
    let (byte, _, after) := digits 16 Text.hexDigit? 2 s
    setRest after
    return .byte byte 16

/-- A code of four hexadecimal digits, after its `u`. -/
def unicodeEscape : Parser NumberEscape := do
  let (code, count, after) := digits 16 Text.hexDigit? 4 (← rest)
  if count < 4 then fail .codePoint
  setRest after
  return .items [.code code]

/-- Octal codes in braces, after their `o`. -/
def octalCodes (ranges endsRange : Bool) : Parser NumberEscape := do
  match ← rest with
  | '{' :: s =>
    match ← judge (bracedCodes? octalBase ranges endsRange s) with
    | some (items, left) => setRest left; return .items items
    | none => return .letter
  | _ => return .letter

/-- Up to so many octal digits of a byte. -/
def octalByte (most : Nat) : Parser NumberEscape := do
  let (byte, _, after) := digits 8 octalValue? most (← rest)
  setRest after
  return .byte (byte % 256) 8

/-! ### Control characters -/

/-- Control characters with letters of their own. -/
def controlLetter (c : Char) : Char :=
  match c with
  | 'n' => '\n'
  | 't' => '\t'
  | 'r' => '\r'
  | 'f' => '\x0c'
  | 'a' => '\x07'
  | 'b' => '\x08'
  | 'e' => '\x1b'
  | 'v' => '\x0b'
  | c => c

/-- The character after a control or meta sign, itself perhaps an escape. -/
def signedChar (escaped : Char → Parser Nat) (d : Char) : Parser Nat := do
  if d == '\\' then escaped (← next .endAtEscape) else return d.toNat

def controlChar (escaped : Char → Parser Nat) : Parser Nat := do
  let d ← next .endAtControl
  if d == '?' then return 0x7F else return (← signedChar escaped d) &&& 0x9F

/-- The character written by an escape that begins with `c`. The fuel bounds escapes within escapes. -/
def escapedChar : Nat → Char → Parser Nat
  | 0, c => return (controlLetter c).toNat
  | fuel + 1, c => do
    if c == 'M' then
      unless (← next .endAtMeta) == '-' do fail .metaSyntax
      let d ← next .endAtMeta
      return (← signedChar (escapedChar fuel) d) % 256 ||| 0x80
    else if c == 'C' then
      unless (← next .endAtControl) == '-' do fail .controlSyntax
      controlChar (escapedChar fuel)
    else if c == 'c' then controlChar (escapedChar fuel)
    else return (controlLetter c).toNat

end Highlighter.Pattern.Parser

import Highlighter.Pattern.Escape
import Highlighter.Pattern.NamedClass

/-! Classes of characters in brackets: characters and ranges, named classes, classes within classes,
and intersections. -/

namespace Highlighter.Pattern.Parser

open Highlighter.Unicode (CodeSet)

/-- A part of a class. -/
inductive ClassToken where
  | stop
  | close
  | opening
  | dash
  | intersection
  | char (code : Nat)
  | byte (value base : Nat)
  | code (n : Nat)
  | named (codes : CodeSet)
  | property (negated braced : Bool)
  | bracketName

/-- A character of a class; `wide` tells that it takes more than one byte. -/
structure ClassValue where
  code : Nat
  wide : Bool

/-- Where the reader stands between the parts of a class: at its start, after a character that may
begin a range, after a named class, after the dash of a range, after a finished part. -/
inductive ClassState where
  | start
  | value (v : ClassValue)
  | named
  | range (low : ClassValue)
  | finished

/-- What was read of a class. Bytes beyond ASCII that stand alone are no characters. -/
structure ClassReading where
  ranges : List (Nat × Nat) := []
  bytes : List (Nat × Nat) := []
  before : Option CodeSet := none
  state : ClassState := .start

/-- A class that was read: its code points, or a single byte beyond ASCII. -/
structure ClassBody where
  codes : CodeSet
  negated : Bool
  byte : Option Nat := none

namespace ClassReading

/-- Adds code points, clipped to those that are characters of the given width. -/
def addNarrow (r : ClassReading) (low high : Nat) : ClassReading :=
  { r with
    ranges := if low < 128 then (low, min high 127) :: r.ranges else r.ranges
    bytes := if 127 < high then (max low 128, high) :: r.bytes else r.bytes }

def addWide (r : ClassReading) (low high : Nat) : ClassReading :=
  if high < 128 then r else { r with ranges := (max low 128, high) :: r.ranges }

/-- Adds the character that is still waiting for a dash. -/
def settle (r : ClassReading) : Except PatternError ClassReading :=
  match r.state with
  | .value v =>
    if v.wide then .ok (r.addWide v.code v.code)
    else if 255 < v.code then .error .codePoint
    else .ok (r.addNarrow v.code v.code)
  | _ => .ok r

/-- Adds a range that has both its ends. -/
def addRange (r : ClassReading) (low high : ClassValue) : Except PatternError ClassReading :=
  if !low.wide && !high.wide && (255 < low.code || 255 < high.code) then .error .codePoint
  else if high.code < low.code then .error .emptyRange
  else if low.wide && high.wide then .ok (r.addWide low.code high.code)
  else if low.wide || high.wide then
    .ok { r with
      ranges := (low.code, high.code) :: r.ranges
      bytes := (low.code, min high.code 255) :: r.bytes }
  else .ok (r.addNarrow low.code high.code)

def addValue (r : ClassReading) (v : ClassValue) : Except PatternError ClassReading := do
  match r.state with
  | .range low => return { ← r.addRange low v with state := .finished }
  | _ => return { ← r.settle with state := .value v }

def addSet (r : ClassReading) (codes : CodeSet) (state : ClassState) :
    Except PatternError ClassReading := do
  let r ← r.settle
  return { r with ranges := codes.ranges ++ r.ranges, state }

def addNamed (r : ClassReading) (codes : CodeSet) : Except PatternError ClassReading :=
  match r.state with
  | .range _ => .error .classAtRangeEnd
  | _ => r.addSet codes .named

def isRange (r : ClassReading) : Bool :=
  match r.state with
  | .range _ => true
  | _ => false

/-- The set of everything read, within the sets before. -/
def total (r : ClassReading) : CodeSet :=
  let codes := CodeSet.ofRanges r.ranges
  match r.before with
  | some set => set.inter codes
  | none => codes

/-- The byte that is the only member, where there is one. -/
def onlyByte? (r : ClassReading) : Option Nat :=
  match r.ranges, r.bytes, r.before with
  | [], [(low, high)], none => if low == high then some low else none
  | _, _, _ => none

end ClassReading

/-- Whether a name of a class stands here, after `[:`. -/
def startsBracketName (s : List Char) : Bool :=
  let s := match s with
    | '^' :: s => s
    | s => s
  let letters := s.takeWhile Char.isAlpha
  match s.drop letters.length with
  | ':' :: ']' :: _ => !letters.isEmpty
  | _ => false

/-- A name after `[:`. -/
def bracketName (opts : Options) : Parser CodeSet := do
  let s ← rest
  let (negated, s) := match s with
    | '^' :: s => (true, s)
    | s => (false, s)
  if s.length < 7 then fail .bracketClass
  match bracketNames.find? fun entry => entry.1.toList.isPrefixOf s with
  | some (name, plain) =>
    match s.drop name.length with
    | ':' :: ']' :: after =>
      setRest after
      return negate negated (traditionalCodes opts plain)
    | _ => fail .bracketClass
  | none => fail .bracketClass

/-- The classes that letters name in an escape. -/
def escapedClass? (opts : Options) (c : Char) : Option CodeSet :=
  let codes (name : String) : CodeSet := traditionalCodes opts name
  match c with
  | 'w' => some (codes "word")
  | 'W' => some (codes "word").compl
  | 'd' => some (codes "digit")
  | 'D' => some (codes "digit").compl
  | 's' => some (codes "space")
  | 'S' => some (codes "space").compl
  | 'h' => some (codes "xdigit")
  | 'H' => some (codes "xdigit").compl
  | _ => none

/-- What follows the letter of a property: a brace, and a caret in it, or else the name itself. -/
def propertyHead? (negated : Bool) : Parser (Option (Bool × Bool)) := do
  match ← rest with
  | [] => return none
  | '{' :: '^' :: s => setRest s; return some (!negated, true)
  | '{' :: s => setRest s; return some (negated, true)
  | _ => return some (negated, false)

/-- The first item of a number escape; the others wait. -/
def firstItem : List CodeItem → Parser ClassToken
  | .code n :: items => do
    modify fun r => { r with pending := items }
    return .code n
  | _ => fail .codePoint

/-- What an escape stands for in a class. -/
def classEscape (opts : Options) (endsRange : Bool) : Parser ClassToken := do
  let c ← next .endAtEscape
  if let some codes := escapedClass? opts c then return .named codes
  match c with
  | 'p' | 'P' =>
    match ← propertyHead? (c == 'P') with
    | some (negated, braced) => return .property negated braced
    | none => return .char c.toNat
  | 'x' => written c (← hexEscape true endsRange)
  | 'u' => written c (← unicodeEscape)
  | 'o' => written c (← octalCodes true endsRange)
  | _ =>
    if (octalValue? c).isSome then
      setRest (c :: (← rest))
      written c (← octalByte 3)
    else
      let code ← escapedChar (← rest).length c
      return if code == c.toNat then .char code else .code code
where
  written (c : Char) : NumberEscape → Parser ClassToken
    | .items items => firstItem items
    | .byte value base => return .byte value base
    | .letter => return .char c.toNat

/-- The next part of a class. -/
def classToken (opts : Options) (endsRange : Bool) : Parser ClassToken := do
  match (← get).pending with
  | item :: items =>
    modify fun r => { r with pending := items }
    match item with
    | .code n => return .code n
    | .dash => return .dash
  | [] =>
    match ← next? with
    | none => return .stop
    | some ']' => return .close
    | some '-' => return .dash
    | some '\\' => classEscape opts endsRange
    | some '[' =>
      match ← rest with
      | ':' :: s => if startsBracketName s then setRest s; return .bracketName else return .opening
      | _ => return .opening
    | some '&' => if ← accept '&' then return .intersection else return .char 38
    | some c => return .char c.toNat

/-- How many bytes a character has by its first byte. -/
def byteCount (lead : Nat) : Nat :=
  if lead < 0xC0 then 1
  else if lead < 0xE0 then 2
  else if lead < 0xF0 then 3
  else if lead < 0xF8 then 4
  else 1

def isTailByte (byte : Nat) : Bool := 0x80 ≤ byte && byte < 0xC0

/-- The code point of a character of several bytes. -/
def codeOfBytes (lead : Nat) (tail : List Nat) : Nat :=
  tail.foldl (fun n byte => n * 64 + byte % 64) (lead % Nat.pow 2 (6 - tail.length))

/-- The bytes that a first byte still needs, written in the same base. -/
def tailBytes (opts : Options) (base : Nat) : Nat → Parser (List Nat)
  | 0 => return []
  | count + 1 => do
    match ← classToken opts false with
    | .byte value b =>
      if b == base then return value :: (← tailBytes opts base count) else fail .shortMultibyte
    | _ => fail .shortMultibyte

/-- A character whose first byte was written as a number. -/
def byteValue (opts : Options) (lead base : Nat) : Parser ClassValue := do
  let tail ← tailBytes opts base (byteCount lead - 1)
  if tail.isEmpty then return ⟨lead, false⟩
  else if tail.all isTailByte then return ⟨codeOfBytes lead tail, true⟩
  else fail .codePoint

/-- A character written by its code. Beyond the last code point it may only end a range. -/
def codeValue (endsRange : Bool) (n : Nat) : Except PatternError ClassValue :=
  if n < 128 || 0xFFFFFFFE ≤ n then .ok ⟨n, false⟩
  else if n ≤ Unicode.lastCode || endsRange then .ok ⟨n, true⟩
  else .error .wideCharTooLarge

def charValue (code : Nat) : ClassValue := ⟨code, 128 ≤ code⟩

def closesClass : ClassToken → Bool
  | .close | .intersection => true
  | _ => false

/-- How deep the parts of a pattern may lie within one another. -/
def depthLimit : Nat := 4096

/-- One level deeper. -/
def deeper (depth : Nat) : Parser Nat :=
  if depthLimit ≤ depth then fail .nestedTooDeep else return depth + 1

mutual

/-- A class after its opening bracket. Every call reads a part of it, which bounds the fuel by the
length of the text. -/
def classBody (opts : Options) (depth : Nat) : Nat → Parser ClassBody
  | 0 => fail .unfinishedClass
  | fuel + 1 => do
    let depth ← deeper depth
    let negated ← accept '^'
    match ← classToken opts false with
    | .close =>
      if (← rest).contains ']' then classItems opts depth fuel negated {} (.char 93)
      else fail .emptyClass
    | token => classItems opts depth fuel negated {} token

def classItems (opts : Options) (depth : Nat) :
    Nat → Bool → ClassReading → ClassToken → Parser ClassBody
  | 0, _, _, _ => fail .unfinishedClass
  | fuel + 1, negated, r, token => do
    let goOn (r : ClassReading) : Parser ClassBody := do
      classItems opts depth fuel negated r (← classToken opts false)
    match token with
    | .stop => fail .unfinishedClass
    | .close =>
      let r ← judge r.settle
      return ⟨r.total, negated, if negated then none else r.onlyByte?⟩
    | .char code => goOn (← judge (r.addValue (charValue code)))
    | .byte value base => goOn (← judge (r.addValue (← byteValue opts value base)))
    | .code n => goOn (← judge (r.addValue (← judge (codeValue r.isRange n))))
    | .named codes => goOn (← judge (r.addNamed codes))
    | .property negated braced =>
      goOn (← judge (r.addNamed (← property opts negated braced)))
    | .bracketName => goOn (← judge (r.addNamed (← bracketName opts)))
    | .intersection =>
      let r ← judge r.settle
      goOn { before := some r.total }
    | .opening =>
      let r ← judge (r.addSet .empty .finished)
      let body ← classBody opts depth fuel
      goOn (← judge (r.addSet (negate body.negated body.codes) .finished))
    | .dash =>
      match r.state with
      | .range _ => goOn (← judge (r.addValue (charValue 45)))
      | .value v =>
        let token ← classToken opts true
        if closesClass token then
          classItems opts depth fuel negated (← judge (r.addValue (charValue 45))) token
        else classItems opts depth fuel negated { r with state := .range v } token
      | .named =>
        let token ← classToken opts false
        if closesClass token then
          classItems opts depth fuel negated (← judge (r.addValue (charValue 45))) token
        else fail .loneRange
      | _ =>
        let token ← classToken opts false
        classItems opts depth fuel negated (← judge (r.addValue (charValue 45))) token

end

end Highlighter.Pattern.Parser

import Highlighter.Json.Basic
import Highlighter.Text.Number

/-! Reading JSON text. Beyond the standard the words `NaN`, `Infinity` and `-Infinity` are numbers.
A fault names its cause and the place where it was noticed; places are counted in characters from the
front, and inside the reader as the number of characters still unread. -/

namespace Highlighter.Json

open Highlighter.Decimal (Binary64)

inductive Cause where
  | byteOrderMark
  | value
  | extraData
  | comma
  | colon
  | name
  | unterminated
  | controlCharacter
  | escape
  | unicodeEscape
  deriving DecidableEq, Repr

inductive ReadError where
  | malformed (cause : Cause) (position line column : Nat)
  /-- An integer with more digits than are accepted. -/
  | hugeInteger (digits : Nat)
  deriving DecidableEq, Repr

/-- A fault as the reader meets it, with the number of characters from there to the end. -/
inductive Fault where
  | at (cause : Cause) (unread : Nat)
  | hugeInteger (digits : Nat)

def stop {α : Type} (cause : Cause) (rest : List Char) : Except Fault α :=
  .error (.at cause rest.length)

def isJsonBlank (c : Char) : Bool := c == ' ' || c == '\t' || c == '\n' || c == '\r'

def skipBlanks (s : List Char) : List Char := s.dropWhile isJsonBlank

/-- The value of four hexadecimal digits at the front. -/
def fourHex? : List Char → Option (Nat × List Char)
  | a :: b :: c :: d :: rest => do
    let a ← Text.hexDigit? a
    let b ← Text.hexDigit? b
    let c ← Text.hexDigit? c
    let d ← Text.hexDigit? d
    return (((a * 16 + b) * 16 + c) * 16 + d, rest)
  | _ => none

def shortEscape? : Char → Option Char
  | '"' => some '"'
  | '\\' => some '\\'
  | '/' => some '/'
  | 'b' => some '\x08'
  | 'f' => some '\x0c'
  | 'n' => some '\n'
  | 'r' => some '\r'
  | 't' => some '\t'
  | _ => none

/-- The code point of an escape: a high and a low surrogate in a row make one, and a surrogate may stand
alone. -/
def unicodeEscape (code : Nat) (rest : List Char) : Except Fault (CodePoint × List Char) :=
  let alone := CodePoint.ofCode code
  match rest with
  | '\\' :: 'u' :: low =>
    if 0xD800 ≤ code && code < 0xDC00 && 4 < low.length then
      match fourHex? low with
      | none => stop .unicodeEscape ('u' :: low)
      | some (code₂, after) =>
        if 0xDC00 ≤ code₂ && code₂ < 0xE000 then
          .ok (.char (Char.ofNat (0x10000 + (code - 0xD800) * 0x400 + (code₂ - 0xDC00))), after)
        else .ok (alone, rest)
    else .ok (alone, rest)
  | _ => .ok (alone, rest)

/-- The rest of a string after its opening quote; `opening` is what was unread at that quote. The
fuel bounds the characters and is never used up. -/
def stringBody (opening : Nat) : Nat → List Char → Except Fault (List CodePoint × List Char)
  | 0, _ => .error (.at .unterminated opening)
  | _ + 1, [] => .error (.at .unterminated opening)
  | _ + 1, '"' :: rest => .ok ([], rest)
  | _ + 1, ['\\'] => .error (.at .unterminated opening)
  | fuel + 1, '\\' :: 'u' :: rest =>
    if rest.length ≤ 4 then stop .unicodeEscape ('u' :: rest)
    else match fourHex? rest with
      | none => stop .unicodeEscape ('u' :: rest)
      | some (code, after) => do
        let (p, after) ← unicodeEscape code after
        let (tail, after) ← stringBody opening fuel after
        return (p :: tail, after)
  | fuel + 1, '\\' :: e :: rest =>
    match shortEscape? e with
    | none => stop .escape ('\\' :: e :: rest)
    | some c => do
      let (tail, after) ← stringBody opening fuel rest
      return (.char c :: tail, after)
  | fuel + 1, c :: rest =>
    if c.toNat < 32 then stop .controlCharacter (c :: rest)
    else do
      let (tail, after) ← stringBody opening fuel rest
      return (.char c :: tail, after)

/-- A string; the text starts after the opening quote. -/
def string (s : List Char) : Except Fault (Str × List Char) := do
  let (body, rest) ← stringBody (s.length + 1) (s.length + 1) s
  return (Str.ofList body, rest)

def natOfDigits (ds : List Char) : Nat := ds.foldl (fun n c => 10 * n + (c.toNat - 48)) 0

def leadingDigits (s : List Char) : List Char × List Char :=
  (s.takeWhile Char.isDigit, s.dropWhile Char.isDigit)

/-- The whole part of a number: a lone zero, or digits that do not start with one. -/
def wholePart? : List Char → Option (List Char × List Char)
  | [] => none
  | c :: rest =>
    if c == '0' then some (['0'], rest)
    else if c.isDigit then some (leadingDigits (c :: rest))
    else none

/-- The digits after a point, where there are any. -/
def fraction? : List Char → Option (List Char × List Char)
  | '.' :: rest =>
    let (ds, after) := leadingDigits rest
    if ds.isEmpty then none else some (ds, after)
  | _ => none

/-- The exponent after `e` or `E`, where digits follow. -/
def exponent? : List Char → Option (Int × List Char)
  | c :: rest =>
    if c == 'e' || c == 'E' then
      let (negative, rest) := match rest with
        | '-' :: r => (true, r)
        | '+' :: r => (false, r)
        | r => (false, r)
      let (ds, after) := leadingDigits rest
      if ds.isEmpty then none
      else some (if negative then -(natOfDigits ds : Int) else natOfDigits ds, after)
    else none
  | [] => none

/-- The most digits an integer may have. -/
def greatestIntegerLength : Nat := 4300

/-- A number; `none` where none starts. -/
def number? (s : List Char) : Option (Except Fault (Value × List Char)) := do
  let (negative, unsigned) := match s with
    | '-' :: r => (true, r)
    | r => (false, r)
  let (whole, rest) ← wholePart? unsigned
  match fraction? rest, exponent? ((fraction? rest).elim rest (·.2)) with
  | none, none =>
    if greatestIntegerLength < whole.length then return .error (.hugeInteger whole.length)
    else
      let n : Int := natOfDigits whole
      return .ok (.int (if negative then -n else n), rest)
  | fraction, exponent =>
    let ds := (fraction.map (·.1)).getD []
    let e := (exponent.map (·.1)).getD 0
    let after := (exponent.map (·.2)).getD ((fraction.map (·.2)).getD rest)
    return .ok (.float (.ofDecimal negative (natOfDigits (whole ++ ds)) (e - ds.length)), after)

/-- The words that stand for values. -/
def constants : List (List Char × Value) :=
  [("null".toList, .null), ("true".toList, .bool true), ("false".toList, .bool false),
    ("NaN".toList, .float .nan), ("Infinity".toList, .float (.infinite false)),
    ("-Infinity".toList, .float (.infinite true))]

def constant? (s : List Char) : Option (Value × List Char) :=
  constants.findSome? fun (word, v) =>
    if word.isPrefixOf s then some (v, s.drop word.length) else none

def scalar (s : List Char) : Except Fault (Value × List Char) :=
  match constant? s with
  | some found => .ok found
  | none => (number? s).getD (stop .value s)

mutual

/-- A value, starting at the first character. Each call either reads a character or passes straight
to one that does, which bounds the fuel by twice the length of the text. -/
def value : Nat → List Char → Except Fault (Value × List Char)
  | 0, s => stop .value s
  | _ + 1, [] => stop .value []
  | fuel + 1, c :: rest =>
    if c == '"' then do
      let (s, after) ← string rest
      return (.string s, after)
    else if c == '[' then
      match skipBlanks rest with
      | ']' :: after => .ok (.array [], after)
      | s => do
        let (items, after) ← elements fuel s
        return (.array items, after)
    else if c == '{' then
      match skipBlanks rest with
      | '}' :: after => .ok (.object [], after)
      | s => do
        let (members, after) ← membersFrom fuel [] s
        return (.object members, after)
    else scalar (c :: rest)

/-- The items of an array, from the first one to the closing bracket. -/
def elements : Nat → List Char → Except Fault (List Value × List Char)
  | 0, s => stop .value s
  | fuel + 1, s => do
    let (item, after) ← value fuel s
    match skipBlanks after with
    | ']' :: rest => return ([item], rest)
    | ',' :: rest =>
      let (items, rest) ← elements fuel (skipBlanks rest)
      return (item :: items, rest)
    | rest => stop .comma rest

/-- The members of an object, from the first name to the closing brace, added to those before. -/
def membersFrom : Nat → Members → List Char → Except Fault (Members × List Char)
  | 0, _, s => stop .name s
  | fuel + 1, before, s =>
    match s with
    | '"' :: rest => do
      let (name, after) ← string rest
      match skipBlanks after with
      | ':' :: rest =>
        let (v, after) ← value fuel (skipBlanks rest)
        let members := put before name v
        match skipBlanks after with
        | '}' :: rest => return (members, rest)
        | ',' :: rest => membersFrom fuel members (skipBlanks rest)
        | rest => stop .comma rest
      | rest => stop .colon rest
    | _ => stop .name s

end

/-- A whole text: one value between blanks. -/
def document (s : List Char) : Except Fault Value := do
  match s with
  | '\uFEFF' :: _ => stop .byteOrderMark s
  | _ =>
    let (v, after) ← value (2 * s.length + 2) (skipBlanks s)
    match skipBlanks after with
    | [] => return v
    | rest => stop .extraData rest

/-- The line and column, from one, of a position. -/
def place (s : List Char) (position : Nat) : Nat × Nat :=
  let before := s.take position
  (before.count '\n' + 1, (before.reverse.takeWhile (· != '\n')).length + 1)

def Fault.toError (s : List Char) : Fault → ReadError
  | .at cause unread =>
    let position := s.length - unread
    let (line, column) := place s position
    .malformed cause position line column
  | .hugeInteger digits => .hugeInteger digits

/-- The value of a text. Arrays and objects may be nested to any depth: a limit on calls within calls, which a
reader that calls itself has, is left out. -/
def read (s : List Char) : Except ReadError Value := (document s).mapError (·.toError s)

def Cause.message : Cause → String
  | .byteOrderMark => "Unexpected UTF-8 BOM (decode using utf-8-sig)"
  | .value => "Expecting value"
  | .extraData => "Extra data"
  | .comma => "Expecting ',' delimiter"
  | .colon => "Expecting ':' delimiter"
  | .name => "Expecting property name enclosed in double quotes"
  | .unterminated => "Unterminated string starting at"
  | .controlCharacter => "Invalid control character at"
  | .escape => "Invalid \\escape"
  | .unicodeEscape => "Invalid \\uXXXX escape"

def ReadError.message : ReadError → String
  | .malformed cause position line column =>
    s!"{cause.message}: line {line} column {column} (char {position})"
  | .hugeInteger digits =>
    s!"Exceeds the limit (4300 digits) for integer string conversion: value has {digits} digits; " ++
      "use sys.set_int_max_str_digits() to increase the limit"

end Highlighter.Json

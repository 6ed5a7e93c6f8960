import Highlighter.Json.Basic
import Highlighter.Decimal.Shortest
import Highlighter.Text.Str

/-! Writing JSON text: on one line in ASCII, or indented with all characters as they are. -/

namespace Highlighter.Json

open Highlighter.Decimal (Binary64)

def hexDigitOf (n : Nat) : Char := Nat.digitChar (n % 16)

def hexEscape (code : Nat) : List Char :=
  ['\\', 'u', hexDigitOf (code / 4096), hexDigitOf (code / 256), hexDigitOf (code / 16),
    hexDigitOf code]

/-- The escapes every string needs. -/
def requiredEscape? : Char → Option (List Char)
  | '"' => some ['\\', '"']
  | '\\' => some ['\\', '\\']
  | '\n' => some ['\\', 'n']
  | '\r' => some ['\\', 'r']
  | '\t' => some ['\\', 't']
  | '\x08' => some ['\\', 'b']
  | '\x0c' => some ['\\', 'f']
  | _ => none

/-- A character inside a string. In ASCII a character beyond the first plane is written as its two
surrogates. -/
def stringChar (asciiOnly : Bool) (c : Char) : List Char :=
  match requiredEscape? c with
  | some escape => escape
  | none =>
    let n := c.toNat
    if n < 32 || (asciiOnly && 127 ≤ n) then
      if n < 0x10000 then hexEscape n
      else hexEscape (0xD800 + (n - 0x10000) / 0x400) ++ hexEscape (0xDC00 + (n - 0x10000) % 0x400)
    else [c]

/-- A surrogate that stands alone has no form but its escape. -/
def stringPoint (asciiOnly : Bool) : CodePoint → List Char
  | .char c => stringChar asciiOnly c
  | .lone n => hexEscape (CodePoint.lone n).code

def stringText (asciiOnly : Bool) (s : Str) : List Char :=
  '"' :: s.toList.flatMap (stringPoint asciiOnly) ++ ['"']

def intText (n : Int) : List Char :=
  if n < 0 then '-' :: Nat.toDigits 10 n.natAbs else Nat.toDigits 10 n.natAbs

def floatText (x : Binary64) : List Char := x.render "NaN".toList "Infinity".toList

def scalarText (asciiOnly : Bool) : Value → List Char
  | .null => "null".toList
  | .bool true => "true".toList
  | .bool false => "false".toList
  | .int n => intText n
  | .float x => floatText x
  | .string s => stringText asciiOnly s
  | .array _ => ['[', ']']
  | .object _ => ['{', '}']

mutual

/-- One line, ASCII only, in front of a text. -/
def compactOnto : Value → List Char → List Char
  | .array items, rest => '[' :: compactItems items (']' :: rest)
  | .object members, rest => '{' :: compactMembers members ('}' :: rest)
  | v, rest => scalarText true v ++ rest

def compactItems : List Value → List Char → List Char
  | [], rest => rest
  | v :: items, rest =>
    compactOnto v (if items.isEmpty then rest else ',' :: ' ' :: compactItems items rest)

def compactMembers : List (Str × Value) → List Char → List Char
  | [], rest => rest
  | m :: members, rest =>
    stringText true m.1 ++ ':' :: ' ' :: compactOnto m.2
      (if members.isEmpty then rest else ',' :: ' ' :: compactMembers members rest)

end

/-- The text of a value, however deeply it is nested: a limit on calls within calls is left out, as it is in
reading. -/
def compact (v : Value) : List Char := compactOnto v []

/-- A line end and the indentation of a nesting depth, in front of a text. -/
def newLine (depth : Nat) (rest : List Char) : List Char :=
  '\n' :: List.replicate (2 * depth) ' ' ++ rest

mutual

/-- Each item and member on a line of its own, two blanks deeper than what holds it; what is empty
stays on one line. -/
def prettyOnto (depth : Nat) : Value → List Char → List Char
  | .array (v :: items), rest =>
    '[' :: newLine (depth + 1) (prettyItems (depth + 1) (v :: items) (newLine depth (']' :: rest)))
  | .object (m :: members), rest =>
    '{' :: newLine (depth + 1)
      (prettyMembers (depth + 1) (m :: members) (newLine depth ('}' :: rest)))
  | v, rest => scalarText false v ++ rest

def prettyItems (depth : Nat) : List Value → List Char → List Char
  | [], rest => rest
  | v :: items, rest =>
    prettyOnto depth v
      (if items.isEmpty then rest else ',' :: newLine depth (prettyItems depth items rest))

def prettyMembers (depth : Nat) : List (Str × Value) → List Char → List Char
  | [], rest => rest
  | m :: members, rest =>
    stringText false m.1 ++ ':' :: ' ' :: prettyOnto depth m.2
      (if members.isEmpty then rest else ',' :: newLine depth (prettyMembers depth members rest))

end

def pretty (v : Value) : List Char := prettyOnto 0 v []

def Value.compactText (v : Value) : String := String.ofList (compact v)

/-- The text of a file that holds a value of characters. -/
def Value.fileText (v : Value) : String := String.ofList (pretty v ++ ['\n'])

/-- The text of a file that holds a value. All characters stand there as they are, so there is none for a value
with a surrogate that stands alone. -/
def Value.fileText? (v : Value) : Option String := if v.isEncodable then some v.fileText else none

end Highlighter.Json

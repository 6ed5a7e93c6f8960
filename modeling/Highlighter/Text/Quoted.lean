import Highlighter.Text.Str
import Highlighter.Text.Encoding
import Highlighter.Unicode.Category

/-! Texts as messages show them. The channel of errors shows a surrogate that stands alone by its code. In
quotation marks whatever does not show as itself is written as its code; the marks are single ones, unless the
text holds single but no double ones. -/

namespace Highlighter

namespace Text

def lowerHex (width n : Nat) : List Char :=
  let ds := Nat.toDigits 16 n
  List.replicate (width - ds.length) '0' ++ ds

/-- The code of a character of the first plane, or of a surrogate. -/
def planeEscape (n : Nat) : List Char := '\\' :: 'u' :: lowerHex 4 n

/-- The mark around a text that holds single marks, or double ones. -/
def quoteMark (hasSingle hasDouble : Bool) : Char := if hasSingle && !hasDouble then '"' else '\''

/-- The escapes shared by texts and bytes. -/
def plainEscape? (mark c : Char) : Option (List Char) :=
  if c == mark || c == '\\' then some ['\\', c]
  else match c with
    | '\t' => some ['\\', 't']
    | '\n' => some ['\\', 'n']
    | '\r' => some ['\\', 'r']
    | _ => none

/-- A character within marks: what does not show as itself is written as its code. -/
def quotedChar (mark c : Char) : List Char :=
  match plainEscape? mark c with
  | some escape => escape
  | none =>
    if Unicode.isPrintable c then [c]
    else
      let n := c.toNat
      if n < 0x100 then '\\' :: 'x' :: lowerHex 2 n
      else if n < 0x10000 then planeEscape n
      else '\\' :: 'U' :: lowerHex 8 n

def quotedPoint (mark : Char) : CodePoint → List Char
  | .char c => quotedChar mark c
  | .lone n => planeEscape (CodePoint.lone n).code

def quoted (s : Str) : List Char :=
  let mark := quoteMark (s.toList.contains (.char '\'')) (s.toList.contains (.char '"'))
  mark :: s.toList.flatMap (quotedPoint mark) ++ [mark]

def quotedString (s : Str) : String := String.ofList (quoted s)

/-- Bytes with a `b` in front; those beyond printable ASCII are written as their codes. -/
def quotedBytes (bs : Bytes) : List Char :=
  let chars := bs.map fun b => Char.ofNat b.toNat
  let mark := quoteMark (chars.contains '\'') (chars.contains '"')
  let one (c : Char) : List Char :=
    match plainEscape? mark c with
    | some escape => escape
    | none =>
      if 32 ≤ c.toNat && c.toNat < 127 then [c] else '\\' :: 'x' :: lowerHex 2 c.toNat
  'b' :: mark :: chars.flatMap one ++ [mark]

end Text

namespace CodePoint

/-- The characters that show a code point. -/
def shown : CodePoint → List Char
  | char c => [c]
  | lone n => Text.planeEscape (lone n).code

end CodePoint

namespace Str

/-- The text as the channel of errors shows it. -/
def shown (s : Str) : String := String.ofList (s.toList.flatMap (·.shown))

end Str

end Highlighter

import Highlighter.Text.Str

/-! Blank characters and what is cut at them: trimming, splitting into words. Themes, grammars and
numbers in text all use this one class, which is wider than the blanks of ASCII. -/

namespace Highlighter

namespace Text

/-- Unicode's white space together with the four information separators U+001C to U+001F. -/
def isBlank (c : Char) : Bool :=
  let n := c.toNat
  (9 ≤ n && n ≤ 13) || (28 ≤ n && n ≤ 32) || n == 0x85 || n == 0xA0 || n == 0x1680 ||
    (0x2000 ≤ n && n ≤ 0x200A) || n == 0x2028 || n == 0x2029 || n == 0x202F || n == 0x205F ||
    n == 0x3000

section
variable {α : Type} (blank : α → Bool)

/-- The items without the blank ones at the end. -/
def trimEnd (s : List α) : List α := (s.reverse.dropWhile blank).reverse

/-- The items without the blank ones at the two ends. -/
def trimEnds (s : List α) : List α := trimEnd blank (s.dropWhile blank)

/-- Splits off the maximal runs of other items; `pending` holds the run being read, reversed. -/
def runsBetween : List α → List α → List (List α)
  | pending, [] => if pending.isEmpty then [] else [pending.reverse]
  | pending, c :: rest =>
    if blank c then
      if pending.isEmpty then runsBetween [] rest else pending.reverse :: runsBetween [] rest
    else runsBetween (c :: pending) rest

end

def trimLeft (s : List Char) : List Char := s.dropWhile isBlank

def trimRight (s : List Char) : List Char := trimEnd isBlank s

def wordsFrom (s : List Char) : List (List Char) := runsBetween isBlank [] s

end Text

/-- A surrogate that stands alone is not blank. -/
def CodePoint.isBlank (p : CodePoint) : Bool := p.char?.any Text.isBlank

namespace Str

/-- The text without the blanks at its two ends. -/
def trimmed (s : Str) : Str := ofList (Text.trimEnds CodePoint.isBlank s.toList)

/-- The non-empty pieces between blanks. -/
def words (s : Str) : List Str := (Text.runsBetween CodePoint.isBlank [] s.toList).map ofList

/-- The pieces between the occurrences of a character. -/
def splitAt (sep : Char) (s : Str) : List Str := (s.toList.splitOn (.char sep)).map ofList

end Str

end Highlighter

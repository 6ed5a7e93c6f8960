import Highlighter.Decimal.Binary64
import Highlighter.Unicode.Category
import Highlighter.Unicode.Property

/-! Numbers in text: blanks may stand around them, digits may be of any script, and single underscores
may stand between digits. Hexadecimal digits are those of ASCII. -/

namespace Highlighter.Text

open Highlighter.Decimal (Binary64)

/-- The value of a hexadecimal digit, in capitals or not. -/
def hexDigit? (c : Char) : Option Nat :=
  if c.isDigit then some (c.toNat - 48)
  else if 'a' ≤ c && c ≤ 'f' then some (c.toNat - 87)
  else if 'A' ≤ c && c ≤ 'F' then some (c.toNat - 55)
  else none

/-- A text without the blanks around it, its decimal digits being those of ASCII. -/
def numberText (s : List Char) : List Char :=
  let stripped := s.dropWhile Unicode.isWhiteSpace
  let core := (stripped.reverse.dropWhile Unicode.isWhiteSpace).reverse
  core.map fun c => ((Unicode.digitValue? c).map fun d => Char.ofNat (48 + d)).getD c

/-- The text without underscores, each of which stands between two digits. -/
def withoutUnderscores? (isDigit : Char → Bool) : List Char → Option (List Char)
  | [] => some []
  | ['_'] => none
  | c :: '_' :: d :: rest =>
    if isDigit c && isDigit d then (withoutUnderscores? isDigit (d :: rest)).map (c :: ·) else none
  | c :: rest => if c == '_' then none else (withoutUnderscores? isDigit rest).map (c :: ·)

/-! ### Integers -/

inductive IntegerFault where
  | notANumber
  /-- It has more digits than are accepted. -/
  | tooLong (digits : Nat)
  deriving DecidableEq, Repr

/-- How many digits an integer may have. -/
def greatestDigitCount : Nat := 4300

/-- The integer that a text stands for. -/
def readInteger (s : List Char) : Except IntegerFault Int :=
  let (negative, digits) : Bool × List Char := match numberText s with
    | '-' :: rest => (true, rest)
    | '+' :: rest => (false, rest)
    | rest => (false, rest)
  match withoutUnderscores? Char.isDigit digits with
  | none => .error .notANumber
  | some ds =>
    match Decimal.plainDigits? ds with
    | none => .error .notANumber
    | some n =>
      if greatestDigitCount < ds.length then .error (.tooLong ds.length)
      else .ok (if negative then -(n : Int) else n)

/-- The integer that a text stands for, if it is one of acceptable length. -/
def integer? (s : List Char) : Option Int := (readInteger s).toOption

/-- Whether a text starts like an integer in hexadecimal digits. -/
def isHexMarked : List Char → Bool
  | '0' :: c :: _ => c == 'x' || c == 'X'
  | _ => false

/-- The integer that a text with a mark for hexadecimal digits stands for. One underscore may follow the
mark too. -/
def hexInteger? (s : List Char) : Option Nat := do
  let digits := match (numberText s).drop 2 with
    | '_' :: rest => rest
    | rest => rest
  guard !digits.isEmpty
  let ds ← withoutUnderscores? (fun c => (hexDigit? c).isSome) digits
  return (← ds.mapM hexDigit?).foldl (fun n d => 16 * n + d) 0

/-! ### Doubles -/

/-- The double that a text stands for. -/
def real? (s : List Char) : Option Binary64 :=
  (withoutUnderscores? Char.isDigit (numberText s)).bind Decimal.literal?

end Highlighter.Text

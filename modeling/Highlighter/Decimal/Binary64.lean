/-! Double-precision numbers as data: a sign, a significand and a power of two. A finite value is
kept in one form only, so equal structures are equal numbers and the two zeros stay apart. The plain way to
write one is a sign, and then a word, or digits with at most one point and an exponent. -/

namespace Highlighter.Decimal

inductive Binary64 where
  | nan
  | infinite (negative : Bool)
  /-- The value `± significand * 2 ^ exponent`. -/
  | finite (negative : Bool) (significand : Nat) (exponent : Int)
  deriving DecidableEq, Repr, Inhabited

namespace Binary64

def leastExponent : Int := -1074

def greatestExponent : Int := 971

/-- The form every reader produces: 53 bits, all of them used unless the exponent is the least. -/
def IsNormal : Binary64 → Prop
  | .finite _ m q => m < Nat.pow 2 53 ∧ leastExponent ≤ q ∧ q ≤ greatestExponent ∧
      (Nat.pow 2 52 ≤ m ∨ q = leastExponent)
  | _ => True

def zero (negative : Bool) : Binary64 := .finite negative 0 leastExponent

/-- The nearest integer to `num / den`, a half going to the even neighbour. -/
def roundHalfEven (num den : Nat) : Nat :=
  let low := num / den
  let twice := 2 * (num % den)
  if twice < den || (twice == den && low % 2 == 0) then low else low + 1

/-- The exponent of the leading bit of the positive quotient `num / den`. -/
def leadingBit (num den : Nat) : Int :=
  let estimate := (num.log2 : Int) - den.log2
  let reached := if 0 ≤ estimate then den * Nat.pow 2 estimate.toNat ≤ num
    else den ≤ num * Nat.pow 2 (-estimate).toNat
  if reached then estimate else estimate - 1

/-- The nearest double to `num / den`. -/
def ofQuotient (negative : Bool) (num den : Nat) : Binary64 :=
  if num == 0 then zero negative
  else
    let q := max (leadingBit num den - 52) leastExponent
    let m := if 0 ≤ q then roundHalfEven num (den * Nat.pow 2 q.toNat)
      else roundHalfEven (num * Nat.pow 2 (-q).toNat) den
    let (m, q) := if m == Nat.pow 2 53 then (Nat.pow 2 52, q + 1) else (m, q)
    if greatestExponent < q then .infinite negative else .finite negative m q

/-- The nearest double to `digits * 10 ^ exponent`. Powers far outside the range are not formed:
the answer is known from the number of digits. -/
def ofDecimal (negative : Bool) (digits : Nat) (exponent : Int) : Binary64 :=
  let magnitude := exponent + (Nat.toDigits 10 digits).length
  if digits == 0 || magnitude < -400 then zero negative
  else if 400 < magnitude then .infinite negative
  else if 0 ≤ exponent then ofQuotient negative (digits * Nat.pow 10 exponent.toNat) 1
  else ofQuotient negative digits (Nat.pow 10 (-exponent).toNat)

/-- The number whose bits are given, with so many of them for the exponent and the fraction; the sign
stands before both. -/
def ofBits (exponentBits fractionBits bits : Nat) : Binary64 :=
  let negative := Nat.pow 2 (exponentBits + fractionBits) ≤ bits
  let power := bits / Nat.pow 2 fractionBits % Nat.pow 2 exponentBits
  let fraction := bits % Nat.pow 2 fractionBits
  let offset := Nat.pow 2 (exponentBits - 1) + fractionBits - 2
  if power == Nat.pow 2 exponentBits - 1 then if fraction == 0 then .infinite negative else .nan
  else if power == 0 then ofQuotient negative fraction (Nat.pow 2 offset)
  else ofQuotient negative ((Nat.pow 2 fractionBits + fraction) * Nat.pow 2 (power - 1))
    (Nat.pow 2 offset)

def ofInt (n : Int) : Binary64 := ofQuotient (n < 0) n.natAbs 1

/-- The value as a quotient of integers, where it has one. -/
def toQuotient? : Binary64 → Option (Int × Nat)
  | .finite negative m q =>
    let num : Nat := m * Nat.pow 2 q.toNat
    some (if negative then -num else num, Nat.pow 2 (-q).toNat)
  | _ => none

/-- Whether the number is exactly the integer. -/
def equalsInt (x : Binary64) (n : Int) : Bool :=
  match x.toQuotient? with
  | some (num, den) => num == n * den
  | none => false

/-- Equality of numbers: the zeros are equal, and nothing equals a NaN. -/
def equals (x y : Binary64) : Bool :=
  match x, y with
  | .nan, _ => false
  | .finite _ 0 _, .finite _ 0 _ => true
  | _, _ => x == y

def isPositive : Binary64 → Bool
  | .finite negative m _ => !negative && m != 0
  | .infinite negative => !negative
  | .nan => false

/-- Whether the number is below an integer; a NaN is not. -/
def isBelow (x : Binary64) (n : Int) : Bool :=
  match x, x.toQuotient? with
  | .infinite negative, _ => negative
  | _, some (num, den) => num < n * den
  | _, none => false

/-- The integer towards zero, where there is one. -/
def truncate? (x : Binary64) : Option Int := x.toQuotient?.map fun (num, den) => num.tdiv den

/-- Whether a finite value is an integer. -/
def isIntegral (x : Binary64) : Bool :=
  match x.toQuotient? with
  | some (num, den) => num % den == 0
  | none => false

end Binary64

/-! ### Literals -/

/-- The number that decimal digits stand for. -/
def plainDigits? (s : List Char) : Option Nat :=
  if s.isEmpty || !s.all Char.isDigit then none
  else some (s.foldl (fun n c => 10 * n + (c.toNat - 48)) 0)

/-- The size of a number without its sign: words, or digits with at most one point and an
exponent. -/
def unsignedLiteral? (negative : Bool) (s : List Char) : Option Binary64 := do
  let word := String.ofList (s.map Char.toLower)
  if word == "nan" then return .nan
  if word == "inf" || word == "infinity" then return .infinite negative
  let mantissa := s.takeWhile fun c => c != 'e' && c != 'E'
  let power := s.dropWhile fun c => c != 'e' && c != 'E'
  let whole := mantissa.takeWhile (· != '.')
  let fraction := (mantissa.dropWhile (· != '.')).drop 1
  let digits ← plainDigits? (whole ++ fraction)
  let exponent ← match power with
    | [] => some (0 : Int)
    | _ :: '-' :: rest => (plainDigits? rest).map fun n => -(n : Int)
    | _ :: '+' :: rest => (plainDigits? rest).map Int.ofNat
    | _ :: rest => (plainDigits? rest).map Int.ofNat
  return .ofDecimal negative digits (exponent - fraction.length)

/-- The double that a text stands for. -/
def literal? : List Char → Option Binary64
  | '-' :: rest => unsignedLiteral? true rest
  | '+' :: rest => unsignedLiteral? false rest
  | rest => unsignedLiteral? false rest

end Highlighter.Decimal

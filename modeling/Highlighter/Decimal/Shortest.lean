import Highlighter.Decimal.Binary64

/-! The shortest decimal that reads back as a given double, and its layout in text. -/

namespace Highlighter.Decimal

/-- The value `digits * 10 ^ exponent`. -/
structure Scaled where
  digits : Nat
  exponent : Int
  deriving DecidableEq, Repr

namespace Binary64

/-- The two multiples of `10 ^ place` around the positive value `num / den`, the nearer first; of two
that are equally near, the even one. -/
def gridNeighbours (num den : Nat) (place : Int) : List Scaled :=
  let scaledNum := if 0 ≤ place then num else num * Nat.pow 10 (-place).toNat
  let scaledDen := if 0 ≤ place then den * Nat.pow 10 place.toNat else den
  let low := scaledNum / scaledDen
  let near := roundHalfEven scaledNum scaledDen
  [⟨near, place⟩, ⟨if near == low then low + 1 else low, place⟩]

/-- The place of the leading decimal digit of `num / den`: the largest power of ten not above it. -/
def leadingPlace (num den : Nat) : Int :=
  if den ≤ num then (Nat.toDigits 10 (num / den)).length - 1
  else -((Nat.toDigits 10 ((den - 1) / num)).length : Int)

/-- Tries ever finer grids and stops at the first of which one of the points around the value reads
back. -/
def seekDecimal (x : Binary64) (num den : Nat) (place : Int) : Nat → Option Scaled
  | 0 => none
  | left + 1 =>
    let hit := (gridNeighbours num den place).find? fun d => ofDecimal false d.digits d.exponent == x
    match hit with
    | some d => some d
    | none => seekDecimal x num den (place - 1) left

/-- The value itself, written out in full. -/
def exactDecimal (m : Nat) (q : Int) : Scaled :=
  if 0 ≤ q then ⟨m * Nat.pow 2 q.toNat, 0⟩ else ⟨m * Nat.pow 5 (-q).toNat, q⟩

/-- A decimal of at most 17 digits that reads back as `m * 2 ^ q`. -/
def shortest (m : Nat) (q : Int) : Scaled :=
  let num := m * Nat.pow 2 q.toNat
  let den := Nat.pow 2 (-q).toNat
  (seekDecimal (.finite false m q) num den (leadingPlace num den + 1) 20).getD (exactDecimal m q)

end Binary64

/-- Drops trailing zeros of the digits; the fuel is the number of digits. -/
def stripZeros : Nat → Scaled → Scaled
  | 0, d => d
  | fuel + 1, d =>
    if d.digits != 0 && d.digits % 10 == 0 then stripZeros fuel ⟨d.digits / 10, d.exponent + 1⟩
    else d

/-- Where the point goes: within the digits or beside them from `1e-4` up to below `1e16`, else after
the first digit, with an exponent of a sign and at least two digits. -/
def layout (d : Scaled) : List Char :=
  let ds := Nat.toDigits 10 d.digits
  let point : Int := d.exponent + ds.length
  if point ≤ -4 || 16 < point then
    let e := point - 1
    let es := Nat.toDigits 10 e.natAbs
    let head := match ds with
      | [] => []
      | c :: rest => if rest.isEmpty then [c] else c :: '.' :: rest
    head ++ 'e' :: (if e < 0 then '-' else '+') :: (if es.length < 2 then '0' :: es else es)
  else if point ≤ 0 then '0' :: '.' :: List.replicate (-point).toNat '0' ++ ds
  else if point < ds.length then ds.take point.toNat ++ '.' :: ds.drop point.toNat
  else ds ++ List.replicate (point - ds.length).toNat '0' ++ ['.', '0']

/-- The text of a double, with the words for the values that are not finite. -/
def Binary64.render (notANumber infinity : List Char) : Binary64 → List Char
  | .nan => notANumber
  | .infinite negative => if negative then '-' :: infinity else infinity
  | .finite negative m q =>
    let d := if m == 0 then ⟨0, 0⟩ else Binary64.shortest m q
    let text := layout (stripZeros (Nat.toDigits 10 d.digits).length d)
    if negative then '-' :: text else text

end Highlighter.Decimal

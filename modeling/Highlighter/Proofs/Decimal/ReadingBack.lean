import Highlighter.Decimal.Binary64
import Highlighter.Decimal.Shortest
import Mathlib.Algebra.Order.Field.Power
import Mathlib.Data.Int.Log
import Mathlib.Data.Rat.Floor

/-! The double nearest to a quotient depends on the quotient alone, and a quotient that is a double is
rounded to itself. So the digits that a double is written in stand for the double again. -/

namespace Highlighter.Decimal.Binary64

section
variable {negative : Bool} {num den c m : Nat} {q : Int}

/-! ### Nearest integers -/

theorem roundHalfEven_scale (hc : 0 < c) : roundHalfEven (num * c) (den * c) = roundHalfEven num den := by
  have htwice : 2 * (num % den * c) = 2 * (num % den) * c := (Nat.mul_assoc ..).symm
  have hlt : 2 * (num % den) * c < den * c ↔ 2 * (num % den) < den := Nat.mul_lt_mul_right hc
  have heq : 2 * (num % den) * c = den * c ↔ 2 * (num % den) = den := Nat.mul_left_inj (by omega)
  unfold roundHalfEven
  dsimp only
  rw [Nat.mul_div_mul_right _ _ hc, Nat.mul_mod_mul_right, htwice]
  simp only [hlt, beq_iff_eq, heq, Bool.or_eq_true, decide_eq_true_eq, Bool.and_eq_true]

theorem roundHalfEven_exact (hc : 0 < c) : roundHalfEven (m * c) c = m := by
  unfold roundHalfEven
  dsimp only
  rw [Nat.mul_mod_left, Nat.mul_div_cancel _ hc]
  simp [hc]

/-! ### The leading bit -/

theorem zpow_le_div_iff (hden : 0 < den) (e : Int) : (2 : ℚ) ^ e ≤ num / den ↔
    if 0 ≤ e then den * Nat.pow 2 e.toNat ≤ num else den ≤ num * Nat.pow 2 (-e).toNat := by
  have hpos : (0 : ℚ) < den := by exact_mod_cast hden
  rw [le_div_iff₀ hpos]
  split
  · obtain ⟨k, rfl⟩ := Int.eq_ofNat_of_zero_le ‹_›
    rw [zpow_natCast, mul_comm, Int.toNat_natCast]
    exact_mod_cast Iff.rfl
  · obtain ⟨k, rfl⟩ : ∃ k : Nat, e = -k := ⟨(-e).toNat, by omega⟩
    have hk : (0 : ℚ) < 2 ^ k := by positivity
    rw [zpow_neg, zpow_natCast, inv_mul_le_iff₀ hk, mul_comm, neg_neg, Int.toNat_natCast]
    exact_mod_cast Iff.rfl

/-- The estimate from the lengths of numerator and denominator is the logarithm or one more. -/
theorem log2_sub_log2 (hnum : 0 < num) (hden : 0 < den) :
    (2 : ℚ) ^ ((num.log2 : Int) - den.log2 - 1) ≤ num / den ∧
      (num : ℚ) / den < 2 ^ ((num.log2 : Int) - den.log2 + 1) := by
  have hpos : (0 : ℚ) < den := by exact_mod_cast hden
  have hnumLow : (2 : ℚ) ^ num.log2 ≤ num := by exact_mod_cast Nat.log2_self_le (by omega)
  have hnumHigh : (num : ℚ) < 2 ^ (num.log2 + 1) := by exact_mod_cast Nat.lt_log2_self
  have hdenLow : (2 : ℚ) ^ den.log2 ≤ den := by exact_mod_cast Nat.log2_self_le (by omega)
  have hdenHigh : (den : ℚ) < 2 ^ (den.log2 + 1) := by exact_mod_cast Nat.lt_log2_self
  constructor
  · rw [le_div_iff₀ hpos]
    calc (2 : ℚ) ^ ((num.log2 : Int) - den.log2 - 1) * den
        ≤ 2 ^ ((num.log2 : Int) - den.log2 - 1) * 2 ^ (den.log2 + 1) := by gcongr
      _ = 2 ^ num.log2 := by
        rw [← zpow_natCast, ← zpow_natCast, ← zpow_add₀ (by norm_num)]
        push_cast
        ring_nf
      _ ≤ num := hnumLow
  · rw [div_lt_iff₀ hpos]
    calc (num : ℚ) < 2 ^ (num.log2 + 1) := hnumHigh
      _ = 2 ^ ((num.log2 : Int) - den.log2 + 1) * 2 ^ den.log2 := by
        rw [← zpow_natCast, ← zpow_natCast, ← zpow_add₀ (by norm_num)]
        push_cast
        ring_nf
      _ ≤ 2 ^ ((num.log2 : Int) - den.log2 + 1) * den := by gcongr

theorem leadingBit_eq (hnum : 0 < num) (hden : 0 < den) :
    leadingBit num den = Int.log 2 ((num : ℚ) / den) := by
  have hpos : (0 : ℚ) < num / den := by positivity
  obtain ⟨hlow, hhigh⟩ := log2_sub_log2 hnum hden
  have hle : (num.log2 : Int) - den.log2 - 1 ≤ Int.log 2 ((num : ℚ) / den) :=
    (Int.zpow_le_iff_le_log Nat.one_lt_two hpos).mp (by exact_mod_cast hlow)
  have hlt : Int.log 2 ((num : ℚ) / den) < (num.log2 : Int) - den.log2 + 1 :=
    (Int.lt_zpow_iff_log_lt Nat.one_lt_two hpos).mp (by exact_mod_cast hhigh)
  have hreached := @zpow_le_div_iff num den hden ((num.log2 : Int) - den.log2)
  have hiff := Int.zpow_le_iff_le_log (x := (num.log2 : Int) - den.log2) Nat.one_lt_two hpos
  rw [Nat.cast_ofNat] at hiff
  rw [hiff] at hreached
  unfold leadingBit
  simp only [← hreached]
  split <;> omega

theorem leadingBit_scale (hnum : 0 < num) (hden : 0 < den) (hc : 0 < c) :
    leadingBit (num * c) (den * c) = leadingBit num den := by
  have hc' : (c : ℚ) ≠ 0 := by exact_mod_cast hc.ne'
  rw [leadingBit_eq (Nat.mul_pos hnum hc) (Nat.mul_pos hden hc), leadingBit_eq hnum hden]
  push_cast
  rw [mul_div_mul_right _ _ hc']

/-! ### Nearest doubles -/

theorem ofQuotient_scale (hden : 0 < den) (hc : 0 < c) :
    ofQuotient negative (num * c) (den * c) = ofQuotient negative num den := by
  by_cases hnum : num = 0
  · simp [hnum, ofQuotient]
  have hpos : 0 < num := Nat.pos_of_ne_zero hnum
  have hprod : num * c ≠ 0 := Nat.mul_ne_zero hnum hc.ne'
  have hup (k : Nat) : roundHalfEven (num * c) (den * c * k) = roundHalfEven num (den * k) := by
    rw [Nat.mul_right_comm, roundHalfEven_scale hc]
  have hdown (k : Nat) : roundHalfEven (num * c * k) (den * c) = roundHalfEven (num * k) den := by
    rw [Nat.mul_right_comm, roundHalfEven_scale hc]
  unfold ofQuotient
  simp only [leadingBit_scale hpos hden hc, hup, hdown, beq_iff_eq, hnum, hprod, if_false]

/-- The value of a significand and a power of two, as a quotient. -/
theorem quotient_eq (m : Nat) (q : Int) :
    ((m * Nat.pow 2 q.toNat : Nat) : ℚ) / (Nat.pow 2 (-q).toNat : Nat) = m * 2 ^ q := by
  by_cases hq : 0 ≤ q
  · obtain ⟨k, rfl⟩ := Int.eq_ofNat_of_zero_le hq
    simp
  · obtain ⟨k, rfl⟩ : ∃ k : Nat, q = -k := ⟨(-q).toNat, by omega⟩
    simp [div_eq_mul_inv]

theorem log_mul_zpow (hm : m ≠ 0) : Int.log 2 ((m : ℚ) * 2 ^ q) = m.log2 + q := by
  have hpos : (0 : ℚ) < m * 2 ^ q := by positivity
  have hlow : (2 : ℚ) ^ m.log2 ≤ m := by exact_mod_cast Nat.log2_self_le hm
  have hhigh : (m : ℚ) < 2 ^ (m.log2 + 1) := by exact_mod_cast Nat.lt_log2_self
  have hle : (m.log2 : Int) + q ≤ Int.log 2 ((m : ℚ) * 2 ^ q) := by
    rw [← Int.zpow_le_iff_le_log Nat.one_lt_two hpos, Nat.cast_ofNat, zpow_add₀ (by norm_num), zpow_natCast]
    gcongr
  have hlt : Int.log 2 ((m : ℚ) * 2 ^ q) < m.log2 + 1 + q := by
    rw [← Int.lt_zpow_iff_log_lt Nat.one_lt_two hpos, Nat.cast_ofNat, zpow_add₀ (by norm_num)]
    have hhigh' : (m : ℚ) < 2 ^ ((m.log2 : Int) + 1) := by exact_mod_cast hhigh
    gcongr
  omega

/-- A double is the nearest to its own value. -/
theorem ofQuotient_exact (hx : IsNormal (.finite negative m q)) (hm : m ≠ 0) :
    ofQuotient negative (m * Nat.pow 2 q.toNat) (Nat.pow 2 (-q).toNat) = .finite negative m q := by
  obtain ⟨hbits, hleast, hgreatest, hfull⟩ := hx
  have hone (k : Nat) : 0 < Nat.pow 2 k := Nat.pow_pos (by decide)
  have hnum : 0 < m * Nat.pow 2 q.toNat := Nat.mul_pos (Nat.pos_of_ne_zero hm) (hone _)
  have hlog : m.log2 < 53 := (Nat.log2_lt hm).mpr hbits
  have hplace : max (leadingBit (m * Nat.pow 2 q.toNat) (Nat.pow 2 (-q).toNat) - 52) leastExponent = q := by
    rw [leadingBit_eq hnum (hone _), quotient_eq, log_mul_zpow hm]
    rcases hfull with hfull | rfl
    · have hge : 52 ≤ m.log2 := (Nat.le_log2 hm).mpr hfull
      omega
    · omega
  have hround : (if 0 ≤ q then roundHalfEven (m * Nat.pow 2 q.toNat) (Nat.pow 2 (-q).toNat * Nat.pow 2 q.toNat)
      else roundHalfEven (m * Nat.pow 2 q.toNat * Nat.pow 2 (-q).toNat) (Nat.pow 2 (-q).toNat)) = m := by
    split
    · rw [show (-q).toNat = 0 by omega]
      simpa using roundHalfEven_exact (m := m) (hone q.toNat)
    · rw [show q.toNat = 0 by omega]
      simpa using roundHalfEven_exact (m := m) (hone (-q).toNat)
  unfold ofQuotient
  simp only [hplace, hround, beq_iff_eq, hnum.ne', if_false, hbits.ne, show ¬greatestExponent < q by omega]

/-! ### Signs -/

/-- The value of the same size with a given sign. -/
def withSign (negative : Bool) : Binary64 → Binary64
  | .nan => .nan
  | .infinite _ => .infinite negative
  | .finite _ m q => .finite negative m q

theorem ofQuotient_sign : ofQuotient negative num den = (ofQuotient false num den).withSign negative := by
  simp only [ofQuotient, apply_ite (withSign negative)]
  rfl

theorem ofDecimal_sign (D : Nat) (E : Int) :
    ofDecimal negative D E = (ofDecimal false D E).withSign negative := by
  simp only [ofDecimal, apply_ite (withSign negative), ← ofQuotient_sign]
  rfl

end

end Highlighter.Decimal.Binary64

namespace Highlighter.Decimal

/-- The double that is nearest to a decimal. -/
def nearest (negative : Bool) (d : Scaled) : Binary64 := .ofDecimal negative d.digits d.exponent

section
variable {negative : Bool} {n k m den : Nat} {q e place : Int} {d : Scaled} {x : Binary64}

/-! ### The number of digits -/

theorem length_toDigits_mul (hn : n ≠ 0) : ∀ k,
    (Nat.toDigits 10 (n * 10 ^ k)).length = (Nat.toDigits 10 n).length + k
  | 0 => by simp
  | k + 1 => by
    have hpos : 0 < n * 10 ^ k := by positivity
    have hlast : n * 10 ^ (k + 1) / 10 = n * 10 ^ k := by
      rw [pow_succ, ← mul_assoc, Nat.mul_div_cancel _ (by decide)]
    rw [Nat.toDigits_of_base_le (by decide) (by omega), hlast, List.length_append, length_toDigits_mul hn k]
    rfl

theorem lt_pow_length (n : Nat) : n < 10 ^ (Nat.toDigits 10 n).length :=
  (Nat.length_toDigits_le_iff (by decide) Nat.length_toDigits_pos).mp (Nat.le_refl _)

/-! ### One value in several forms -/

/-- Zeros behind the digits, made up for by the exponent, do not matter. -/
theorem ofDecimal_shift (hn : n ≠ 0) (k : Nat) :
    Binary64.ofDecimal negative (n * 10 ^ k) (e - k) = .ofDecimal negative n e := by
  have hprod : (n * 10 ^ k == 0) = (n == 0) := by
    rw [beq_eq_false_iff_ne.mpr hn, beq_eq_false_iff_ne]
    positivity
  have hmagnitude : e - k + ((Nat.toDigits 10 n).length + k : Nat) = e + (Nat.toDigits 10 n).length := by
    push_cast
    ring
  have hquotient : (if 0 ≤ e - k then
        Binary64.ofQuotient negative (n * 10 ^ k * Nat.pow 10 (e - k).toNat) 1
      else .ofQuotient negative (n * 10 ^ k) (Nat.pow 10 (-(e - k)).toNat)) =
      if 0 ≤ e then .ofQuotient negative (n * Nat.pow 10 e.toNat) 1
      else .ofQuotient negative n (Nat.pow 10 (-e).toNat) := by
    by_cases he : 0 ≤ e
    · by_cases hk : 0 ≤ e - k
      · rw [if_pos hk, if_pos he, show e.toNat = k + (e - k).toNat by omega]
        simp only [Nat.pow_eq, pow_add, mul_assoc]
      · have hscale : Binary64.ofQuotient negative (n * 10 ^ e.toNat * 10 ^ (-(e - k)).toNat)
            (1 * 10 ^ (-(e - k)).toNat) = .ofQuotient negative (n * 10 ^ e.toNat) 1 :=
          Binary64.ofQuotient_scale (by decide) (by positivity)
        rw [if_neg hk, if_pos he, Nat.pow_eq, Nat.pow_eq, ← hscale, mul_assoc, ← pow_add, one_mul,
          show e.toNat + (-(e - k)).toNat = k by omega]
    · have hscale : Binary64.ofQuotient negative (n * 10 ^ k) (10 ^ (-e).toNat * 10 ^ k) =
          .ofQuotient negative n (10 ^ (-e).toNat) :=
        Binary64.ofQuotient_scale (by positivity) (by positivity)
      rw [if_neg (by omega), if_neg he, Nat.pow_eq, Nat.pow_eq, ← hscale, ← pow_add,
        show (-e).toNat + k = (-(e - k)).toNat by omega]
  simp only [Binary64.ofDecimal, length_toDigits_mul hn, hmagnitude, hquotient, hprod]

theorem stripZeros_nearest (fuel : Nat) (d : Scaled) :
    nearest negative (stripZeros fuel d) = nearest negative d := by
  induction fuel generalizing d with
  | zero => rfl
  | succ fuel ih =>
    rw [stripZeros]
    split
    · rename_i h
      obtain ⟨hdigits, hlast⟩ : d.digits ≠ 0 ∧ d.digits % 10 = 0 := by simpa using h
      have hwhole : d.digits / 10 * 10 ^ 1 = d.digits := by omega
      have hshift : Binary64.ofDecimal negative (d.digits / 10 * 10 ^ 1) (d.exponent + 1 - (1 : Nat)) =
          .ofDecimal negative (d.digits / 10) (d.exponent + 1) := ofDecimal_shift (by omega) 1
      rw [hwhole, show d.exponent + 1 - (1 : Nat) = d.exponent by omega] at hshift
      rw [ih]
      exact hshift.symm
    · rfl

/-! ### The shortest decimal -/

theorem seekDecimal_nearest {num fuel : Nat} (h : Binary64.seekDecimal x num den place fuel = some d) :
    nearest false d = x := by
  induction fuel generalizing place with
  | zero => cases h
  | succ fuel ih =>
    rw [Binary64.seekDecimal] at h
    split at h
    · rename_i hit
      cases h
      have hread := List.find?_some hit
      exact beq_iff_eq.mp hread
    · exact ih h

theorem two_pow_le {a b c j : Nat} (h : a ≤ j * b) (hc : 2 ^ j ≤ c) : 2 ^ a ≤ c ^ b :=
  calc 2 ^ a ≤ 2 ^ (j * b) := Nat.pow_le_pow_right (by decide) h
    _ = (2 ^ j) ^ b := pow_mul 2 j b
    _ ≤ c ^ b := Nat.pow_le_pow_left hc b

/-- Powers of ten beyond the range of doubles are not met. -/
theorem ofDecimal_of_bounds (hn : n ≠ 0) (hlow : 10 ^ (-400 - e).toNat ≤ n) (hhigh : n < 10 ^ (400 - e).toNat)
    (hroom : e < 400) : Binary64.ofDecimal negative n e =
      if 0 ≤ e then .ofQuotient negative (n * Nat.pow 10 e.toNat) 1
      else .ofQuotient negative n (Nat.pow 10 (-e).toNat) := by
  have hle : (Nat.toDigits 10 n).length ≤ (400 - e).toNat :=
    (Nat.length_toDigits_le_iff (by decide) (by omega)).mpr hhigh
  have hlt : (-400 - e).toNat < (Nat.toDigits 10 n).length :=
    (Nat.pow_lt_pow_iff_right (by decide)).mp (hlow.trans_lt (lt_pow_length n))
  have hnotLow : ¬(e + (Nat.toDigits 10 n).length < -400) := by omega
  have hnotHigh : ¬(400 < e + (Nat.toDigits 10 n).length) := by omega
  simp only [Binary64.ofDecimal, hnotLow, hnotHigh, beq_eq_false_iff_ne.mpr hn, decide_false, Bool.or_self,
    Bool.false_eq_true, if_false]

theorem pow_sub_le (hk : k ≤ 1074) : 10 ^ (k - 400) ≤ 5 ^ k := by
  have h2 : 2 ^ (k - 400) ≤ 5 ^ 400 := two_pow_le (j := 2) (by omega) (by decide)
  by_cases h : 400 ≤ k
  · calc 10 ^ (k - 400) = 2 ^ (k - 400) * 5 ^ (k - 400) := Nat.mul_pow 2 5 _
      _ ≤ 5 ^ 400 * 5 ^ (k - 400) := Nat.mul_le_mul_right _ h2
      _ = 5 ^ k := by rw [← pow_add, Nat.add_sub_cancel' h]
  · rw [Nat.sub_eq_zero_of_le (by omega)]
    exact Nat.one_le_pow _ _ (by decide)

theorem exactDecimal_nearest (hx : Binary64.IsNormal (.finite negative m q)) (hm : m ≠ 0) :
    nearest negative (Binary64.exactDecimal m q) = .finite negative m q := by
  have hexact := Binary64.ofQuotient_exact hx hm
  obtain ⟨hbits, hleast, hgreatest, -⟩ := hx
  unfold Binary64.leastExponent at hleast
  unfold Binary64.greatestExponent at hgreatest
  unfold Binary64.exactDecimal nearest
  split
  · obtain ⟨k, rfl⟩ := Int.eq_ofNat_of_zero_le ‹_›
    have hroom : (400 - (0 : Int)).toNat = 400 := rfl
    have hhigh : m * 2 ^ k < 10 ^ 400 :=
      calc m * 2 ^ k < 2 ^ 53 * 2 ^ k := Nat.mul_lt_mul_of_pos_right hbits (by positivity)
        _ = 2 ^ (53 + k) := (pow_add 2 53 k).symm
        _ ≤ 10 ^ 400 := two_pow_le (j := 3) (by omega) (by decide)
    have hpos : m * 2 ^ k ≠ 0 := by positivity
    dsimp only
    rw [Int.toNat_natCast] at hexact ⊢
    rw [Nat.pow_eq,
      ofDecimal_of_bounds (e := 0) hpos (Nat.one_le_iff_ne_zero.mpr hpos) (hroom ▸ hhigh) (by decide)]
    simpa using hexact
  · obtain ⟨k, rfl⟩ : ∃ k : Nat, q = -k := ⟨(-q).toNat, by omega⟩
    have hpos : m * 5 ^ k ≠ 0 := by positivity
    have hlow : 10 ^ (-400 - (-k : Int)).toNat ≤ m * 5 ^ k := by
      have h5 : 10 ^ (k - 400) ≤ 5 ^ k := pow_sub_le (by omega)
      rw [show (-400 - (-k : Int)).toNat = k - 400 by omega]
      exact h5.trans (Nat.le_mul_of_pos_left _ (Nat.pos_of_ne_zero hm))
    have hhigh : m * 5 ^ k < 10 ^ (400 - (-k : Int)).toNat := by
      rw [show (400 - (-k : Int)).toNat = 400 + k by omega, pow_add]
      have h5 : 5 ^ k ≤ 10 ^ k := Nat.pow_le_pow_left (by decide) k
      have h53 : 2 ^ 53 ≤ 10 ^ 400 := two_pow_le (j := 3) (by decide) (by decide)
      exact Nat.mul_lt_mul_of_lt_of_le (hbits.trans_le h53) h5 (by positivity)
    dsimp only
    rw [neg_neg, Int.toNat_natCast, Nat.pow_eq, ofDecimal_of_bounds hpos hlow hhigh (by omega),
      if_neg ‹_›, neg_neg, Int.toNat_natCast, Nat.pow_eq, show (10 : Nat) = 2 * 5 from rfl, mul_pow,
      Binary64.ofQuotient_scale (by positivity) (by positivity)]
    simpa using hexact

theorem shortest_nearest (hx : Binary64.IsNormal (.finite false m q)) (hm : m ≠ 0) :
    nearest false (Binary64.shortest m q) = .finite false m q := by
  unfold Binary64.shortest
  dsimp only
  cases hseek : Binary64.seekDecimal (.finite false m q) (m * Nat.pow 2 q.toNat) (Nat.pow 2 (-q).toNat)
      (Binary64.leadingPlace (m * Nat.pow 2 q.toNat) (Nat.pow 2 (-q).toNat) + 1) 20 with
  | none => exact exactDecimal_nearest hx hm
  | some d => exact seekDecimal_nearest hseek

/-- The decimal that a double is written as, without its sign. -/
def Binary64.written (m : Nat) (q : Int) : Scaled :=
  let d := if m == 0 then ⟨0, 0⟩ else shortest m q
  stripZeros (Nat.toDigits 10 d.digits).length d

theorem written_nearest (hx : Binary64.IsNormal (.finite negative m q)) :
    nearest negative (Binary64.written m q) = .finite negative m q := by
  unfold Binary64.written
  dsimp only
  rw [stripZeros_nearest]
  by_cases hm : m = 0
  · obtain ⟨-, -, -, hfull⟩ := hx
    obtain rfl : q = Binary64.leastExponent := hfull.resolve_left (by rw [hm]; decide)
    simp [hm, nearest, Binary64.ofDecimal, Binary64.zero]
  · have hsigned := @Binary64.ofDecimal_sign negative (Binary64.shortest m q).digits
      (Binary64.shortest m q).exponent
    have hshortest := shortest_nearest (m := m) (q := q) hx hm
    rw [if_neg (by simpa using hm), nearest, hsigned]
    rw [nearest] at hshortest
    rw [hshortest]
    rfl

end

end Highlighter.Decimal

import Highlighter.Text.Encoding

/-! Texts in bytes and in units of 16 bits. Bytes that a text is written in read back as the text. The column of a
character is the number of units that encode the text before it, and a character is found again by its column. -/

namespace Highlighter.Text

section
variable {c : Char} {s : List Char} {rest : Bytes} {n low high owed code : Nat}

theorem toNat_toUInt8 (h : n < 256) : n.toUInt8.toNat = n := by
  simp [Nat.mod_eq_of_lt h]

theorem leadByte_two : ∀ q < 30, leadByte (0xC2 + q) = some (1, 0x80, 0xBF, q + 2) := by
  decide

theorem leadByte_three : ∀ q < 16, leadByte (0xE0 + q) =
    some (2, if q = 0 then 0xA0 else 0x80, if q = 13 then 0x9F else 0xBF, q) := by
  decide

theorem leadByte_four : ∀ q < 5, leadByte (0xF0 + q) =
    some (3, if q = 0 then 0x90 else 0x80, if q = 4 then 0x8F else 0xBF, q) := by
  decide

/-- A byte that follows adds its six bits. -/
theorem continuation_six (hlow : low ≤ 0x80 + n) (hhigh : 0x80 + n ≤ high) (hn : n < 64) :
    continuation (owed + 1) low high code ((0x80 + n).toUInt8 :: rest) =
      continuation owed 0x80 0xBF (code * 64 + n) rest := by
  have hbyte : ((0x80 + n).toUInt8).toNat = 0x80 + n := toNat_toUInt8 (by omega)
  rw [continuation, hbyte, if_pos (by simp [hlow, hhigh]), Nat.add_sub_cancel_left]

theorem decodeStep_lead (hn : n < 256) (hge : 0x80 ≤ n) (hlead : leadByte n = some (owed, low, high, code))
    {bs : Bytes} (h : continuation owed low high code bs = (some c.toNat, rest)) :
    decodeStep n.toUInt8 bs = (some c, rest) := by
  rw [decodeStep, toNat_toUInt8 hn, if_neg (by omega), hlead]
  simp only [h, Option.map_some, Char.ofNat_toNat]

/-- The code points of characters. -/
theorem toNat_valid (c : Char) : c.toNat < 0xD800 ∨ 0xDFFF < c.toNat ∧ c.toNat < 0x110000 := c.valid

/-- The bytes of a character read back as the character. -/
theorem decodeStep_encodeChar (c : Char) (rest : Bytes) :
    ∃ b tail, encodeChar c = b :: tail ∧ decodeStep b (tail ++ rest) = (some c, rest) := by
  have hvalid := toNat_valid c
  rw [encodeChar]
  split
  · rename_i hone
    exact ⟨_, [], rfl, by rw [decodeStep, toNat_toUInt8 (by omega), if_pos hone]; simp⟩
  split
  · have hlead : 0xC0 + c.toNat / 64 = 0xC2 + (c.toNat / 64 - 2) := by omega
    refine ⟨_, _, rfl, decodeStep_lead (by omega) (by omega)
      (hlead ▸ leadByte_two (c.toNat / 64 - 2) (by omega)) ?_⟩
    rw [List.cons_append, continuation_six (by omega) (by omega) (by omega), List.nil_append,
      continuation]
    simp only [Prod.mk.injEq, Option.some.injEq, and_true]
    omega
  split
  · refine ⟨_, _, rfl, decodeStep_lead (by omega) (by omega)
      (leadByte_three (c.toNat / 4096) (by omega)) ?_⟩
    rw [List.cons_append, continuation_six (by split <;> omega) (by split <;> omega) (by omega),
      List.cons_append, continuation_six (by omega) (by omega) (by omega), List.nil_append, continuation]
    simp only [Prod.mk.injEq, Option.some.injEq, and_true]
    omega
  · refine ⟨_, _, rfl, decodeStep_lead (by omega) (by omega)
      (leadByte_four (c.toNat / 262144) (by omega)) ?_⟩
    rw [List.cons_append, continuation_six (by split <;> omega) (by split <;> omega) (by omega),
      List.cons_append, continuation_six (by omega) (by omega) (by omega),
      List.cons_append, continuation_six (by omega) (by omega) (by omega), List.nil_append, continuation]
    simp only [Prod.mk.injEq, Option.some.injEq, and_true]
    omega

theorem decodeItems_encodeUtf8 {fuel : Nat} (h : (encodeUtf8 s).length ≤ fuel) :
    decodeItems fuel (encodeUtf8 s) = s.map some := by
  induction s generalizing fuel with
  | nil => cases fuel <;> rfl
  | cons c s ih =>
    obtain ⟨b, tail, hb, hstep⟩ := decodeStep_encodeChar c (encodeUtf8 s)
    have hcons : encodeUtf8 (c :: s) = b :: (tail ++ encodeUtf8 s) := by
      rw [encodeUtf8, List.flatMap_cons, hb]
      rfl
    rw [hcons] at h ⊢
    rw [List.length_cons, List.length_append] at h
    obtain ⟨fuel, rfl⟩ : ∃ m, fuel = m + 1 := ⟨fuel - 1, by omega⟩
    have hrest : (encodeUtf8 s).length ≤ fuel := by omega
    rw [decodeItems, hstep]
    simp only [List.map_cons, ih hrest]

/-- A text survives being written in bytes. -/
theorem decodeUtf8?_encodeUtf8 (s : List Char) : decodeUtf8? (encodeUtf8 s) = some s := by
  rw [decodeUtf8?, decodeItems_encodeUtf8 (Nat.le_refl _)]
  induction s with
  | nil => rfl
  | cons c s ih => rw [List.map_cons, List.foldr_cons, ih]; rfl

end

/-! ### Units -/

/-- The code units of a code point: itself in the first plane, a pair of surrogates beyond it. -/
def codeUnits (p : CodePoint) : List Nat :=
  if p.code < 0x10000 then [p.code]
  else [0xD800 + (p.code - 0x10000) / 0x400, 0xDC00 + (p.code - 0x10000) % 0x400]

def encodeUtf16 (s : List CodePoint) : List Nat := s.flatMap codeUnits

theorem length_codeUnits (p : CodePoint) : (codeUnits p).length = pointUnits p := by
  unfold codeUnits pointUnits
  by_cases hp : p.code < 0x10000
  · simp [hp, show ¬ 0xFFFF < p.code by omega]
  · simp [hp, show 0xFFFF < p.code by omega]

/-- Units are counted as they are encoded. -/
theorem length_encodeUtf16 (s : List CodePoint) : (encodeUtf16 s).length = units s := by
  induction s with
  | nil => rfl
  | cons p s ih =>
    have hcons : encodeUtf16 (p :: s) = codeUnits p ++ encodeUtf16 s := List.flatMap_cons
    rw [hcons, List.length_append, length_codeUnits, ih]
    rfl

theorem pointUnits_pos (p : CodePoint) : 0 < pointUnits p := by
  unfold pointUnits
  split <;> omega

theorem units_cons (p : CodePoint) (s : List CodePoint) : units (p :: s) = pointUnits p + units s := rfl

theorem pointUnits_ascii {p : CodePoint} (h : p.code < 128) : pointUnits p = 1 := by
  unfold pointUnits
  exact if_neg (by omega)

/-- Without pairs of units there is one for each code point. -/
theorem units_of_single {s : List CodePoint} (h : ∀ p ∈ s, pointUnits p = 1) : units s = s.length := by
  induction s with
  | nil => rfl
  | cons p s ih =>
    obtain ⟨hp, hs⟩ := List.forall_mem_cons.mp h
    rw [units_cons, hp, ih hs, List.length_cons, Nat.add_comm]

theorem units_ascii {s : List CodePoint} (h : isAscii s = true) : units s = s.length := by
  refine units_of_single ?_
  intro p hp
  exact pointUnits_ascii (by simpa using List.all_eq_true.mp h p hp)

/-- From units and code points that were read, one is found by the units up to it. -/
theorem indexOfUnitFrom_units (read index n : Nat) {s : List CodePoint} (h : n ≤ s.length) :
    indexOfUnitFrom read index (read + units (s.take n) : Nat) s = (index + n : Nat) := by
  induction s generalizing read index n with
  | nil =>
    obtain rfl : n = 0 := by simpa using h
    simp [indexOfUnitFrom, units]
  | cons p s ih =>
    rw [indexOfUnitFrom]
    cases n with
    | zero => simp [units]
    | succ n =>
      have hpos := pointUnits_pos p
      rw [List.take_succ_cons, units_cons, if_neg (by omega), ← Nat.add_assoc,
        ih (read + pointUnits p) (index + 1) n (by simpa using h)]
      congr 1
      omega

/-- The units of a prefix lead back to its end. -/
theorem indexOfUnit_units {s : List CodePoint} {n : Nat} (h : n ≤ s.length) :
    indexOfUnit s (units (s.take n)) = n := by
  rw [indexOfUnit]
  simpa using indexOfUnitFrom_units 0 0 n h

end Highlighter.Text

import Highlighter.Proofs.Text.Encoding
import Highlighter.Semantic.Span
import Mathlib

/-! Columns in units and places in code points. A column of a text is found at the first place with that many
units before it, and past the end each unit is one place more. So columns keep their order, and in a text without
pairs of units they are places already: the spans of lines of ASCII characters need no conversion. -/

namespace Highlighter.Text

/-- A code point that takes a pair of units. -/
def isAstral (p : CodePoint) : Bool := 0xFFFF < p.code

section
variable {s : List CodePoint} {read index : Nat} {offset : Int}

theorem pointUnits_of_not_isAstral {p : CodePoint} (h : isAstral p = false) : pointUnits p = 1 := by
  exact if_neg (by simpa [isAstral] using h)

/-- An offset that the units still reach is found at the first place that has as many of them before it. -/
theorem indexOfUnitFrom_within (h : offset ≤ (read + units s : Nat)) :
    ∃ i : Nat, indexOfUnitFrom read index offset s = (index + i : Nat) ∧
      offset ≤ (read + units (s.take i) : Nat) ∧ ∀ j < i, (read + units (s.take j) : Nat) < offset := by
  induction s generalizing read index with
  | nil =>
    refine ⟨0, ?_, h, by simp⟩
    rw [indexOfUnitFrom]
    have hread : offset ≤ read := h
    omega
  | cons p s ih =>
    rw [indexOfUnitFrom]
    split
    · rename_i hread
      refine ⟨0, rfl, ?_, by simp⟩
      simpa [units] using hread
    · rename_i hread
      have hrest : offset ≤ ((read + pointUnits p) + units s : Nat) := by
        rw [units_cons] at h
        omega
      obtain ⟨i, hindex, hreached, hleast⟩ := @ih _ (index + 1) hrest
      refine ⟨i + 1, ?_, ?_, ?_⟩
      · rw [hindex]
        omega
      · rw [List.take_succ_cons, units_cons]
        omega
      · intro j hj
        cases j with
        | zero => simpa [units] using hread
        | succ j =>
          have hbefore := hleast j (Nat.lt_of_succ_lt_succ hj)
          rw [List.take_succ_cons, units_cons]
          omega

/-- From the end of the text on, each unit is one place. -/
theorem indexOfUnitFrom_beyond (h : (read + units s : Nat) ≤ offset) :
    indexOfUnitFrom read index offset s = index + s.length + (offset - (read + units s : Nat)) := by
  induction s generalizing read index with
  | nil =>
    rw [indexOfUnitFrom, units, List.foldr_nil, List.length_nil]
    have hread : read ≤ offset := h
    omega
  | cons p s ih =>
    have hpos := pointUnits_pos p
    rw [units_cons] at h ⊢
    rw [indexOfUnitFrom, if_neg (by omega), ih (by omega), List.length_cons]
    omega

theorem indexOfUnit_isLeast (h : offset ≤ units s) :
    ∃ i : Nat, indexOfUnit s offset = i ∧ IsLeast {i : Nat | offset ≤ units (s.take i)} i := by
  obtain ⟨i, hindex, hreached, hleast⟩ := @indexOfUnitFrom_within s 0 0 offset (by simpa using h)
  rw [Nat.zero_add] at hindex hreached
  refine ⟨i, hindex, hreached, ?_⟩
  intro j hj
  by_contra hlt
  have hbefore := hleast j (Nat.lt_of_not_le hlt)
  rw [Nat.zero_add] at hbefore
  exact absurd hj (Int.not_le.mpr hbefore)

theorem indexOfUnit_beyond (h : units s ≤ offset) : indexOfUnit s offset = s.length + (offset - units s) := by
  rw [indexOfUnit, indexOfUnitFrom_beyond (by simpa using h)]
  simp

theorem indexOfUnit_monotone (s : List CodePoint) : Monotone (indexOfUnit s) := by
  intro a b hab
  rcases Int.le_total b (units s) with hb | hb
  · obtain ⟨i, hi, hleast⟩ := indexOfUnit_isLeast (Int.le_trans hab hb)
    obtain ⟨j, hj, hreached, -⟩ := indexOfUnit_isLeast hb
    rw [hi, hj]
    exact Int.ofNat_le.mpr (hleast.2 (Int.le_trans hab hreached))
  · rw [indexOfUnit_beyond hb]
    rcases Int.le_total a (units s) with ha | ha
    · obtain ⟨i, hi, hleast⟩ := indexOfUnit_isLeast ha
      have hlength : i ≤ s.length := hleast.2 (by simpa using ha)
      omega
    · rw [indexOfUnit_beyond ha]
      omega

/-- Where no code point takes a pair of units, columns are places. -/
theorem indexOfUnit_of_single (hs : ∀ p ∈ s, pointUnits p = 1) (h : 0 ≤ offset) :
    indexOfUnit s offset = offset := by
  have hunits := units_of_single hs
  rcases Int.le_total offset (units s) with hwithin | hbeyond
  · obtain ⟨n, rfl⟩ := Int.eq_ofNat_of_zero_le h
    have hn : n ≤ s.length := by omega
    have htake : units (s.take n) = n := by
      rw [units_of_single fun c hc => hs c (List.mem_of_mem_take hc), List.length_take, Nat.min_eq_left hn]
    have hback := indexOfUnit_units hn
    rwa [htake] at hback
  · rw [indexOfUnit_beyond hbeyond]
    omega

theorem indexOfUnit_ascii (hs : isAscii s = true) (h : 0 ≤ offset) : indexOfUnit s offset = offset := by
  refine indexOfUnit_of_single ?_ h
  intro c hc
  exact pointUnits_ascii (by simpa using List.all_eq_true.mp hs c hc)

end

end Highlighter.Text

namespace Highlighter.Semantic

open Highlighter.Text (encodeUtf16 indexOfUnit isAstral)

/-- A span with its columns as `columnsIn` has them. -/
def Span.inLines (lines : Option (List Str)) (s : Span) : Span :=
  { s with
    start := (columnsIn lines s.line s.start s.stop).1
    stop := (columnsIn lines s.line s.start s.stop).2 }

/-- A span with its columns counted in the characters of its line, whatever characters these are. -/
def Span.converted (lines : Option (List Str)) (s : Span) : Span :=
  match lines.bind (·[s.line]?) with
  | none => s
  | some text =>
    { s with start := indexOfUnit text.toList s.start, stop := indexOfUnit text.toList s.stop }

section
variable {legend : Option Legend} {lines : Option (List Str)} {span : Span}

/-- Lines change nothing but the columns of spans. -/
theorem decodeFrom_inLines (line : Nat) (start : Int) (data : List Int) :
    decodeFrom legend lines line start data =
      (decodeFrom legend none line start data).map (Span.inLines lines) := by
  fun_induction decodeFrom legend none line start data with
  | case1 line start deltaLine deltaStart length type modifiers rest newLine line' start' first last hcolumns ih =>
    cases hcolumns
    rw [decodeFrom, ih]
    rfl
  | case2 line start data hshort =>
    rw [decodeFrom]
    · rfl
    · exact hshort

/-- A line of ASCII characters is left out of the conversion, which changes no column from zero on. -/
theorem inLines_eq_converted (hstart : 0 ≤ span.start) (hstop : 0 ≤ span.stop) :
    span.inLines lines = span.converted lines := by
  rw [Span.inLines, Span.converted, columnsIn]
  cases lines.bind (·[span.line]?) with
  | none => rfl
  | some text =>
    by_cases hascii : Text.isAscii text.toList = true
    · simp only [hascii, if_true, Text.indexOfUnit_ascii hascii hstart, Text.indexOfUnit_ascii hascii hstop]
    · simp only [hascii]
      rfl

/-- A span that is not inverted stays so. -/
theorem inLines_ordered (h : span.start ≤ span.stop) : (span.inLines lines).start ≤ (span.inLines lines).stop := by
  rw [Span.inLines, columnsIn]
  cases lines.bind (·[span.line]?) with
  | none => exact h
  | some text =>
    dsimp only
    split
    · exact h
    · exact Text.indexOfUnit_monotone _ h

/-- Columns undo the measuring in units. A column within the text is at the first place with so many units before
it, one past the end is as many places past the end, and the units before a place lead back to it. Columns keep
their order, and are places already where no character takes a pair of units. So no span comes out of the
decoding inverted, and none with columns from zero on would come out otherwise if the lines of ASCII characters
were converted as well. -/
theorem columns_invert_units (s : List CodePoint) :
    (∀ offset : Int, offset ≤ (encodeUtf16 s).length → ∃ i : Nat, indexOfUnit s offset = i ∧
      IsLeast {i : Nat | offset ≤ (encodeUtf16 (s.take i)).length} i) ∧
    (∀ extra : Nat, indexOfUnit s ((encodeUtf16 s).length + extra) = s.length + extra) ∧
    (∀ n ≤ s.length, indexOfUnit s (encodeUtf16 (s.take n)).length = n) ∧
    Monotone (indexOfUnit s) ∧
    ((∀ p ∈ s, isAstral p = false) → ∀ offset : Int, 0 ≤ offset → indexOfUnit s offset = offset) ∧
    ∀ (legend : Option Legend) (lines : Option (List Str)) (data : List Int),
      List.Forall₂ (fun given span => (0 ≤ given.start → 0 ≤ given.stop → span = given.converted lines) ∧
          (given.start ≤ given.stop → span.start ≤ span.stop))
        (decode legend none data) (decode legend lines data) := by
  simp only [Text.length_encodeUtf16]
  refine ⟨?_, ?_, ?_, Text.indexOfUnit_monotone s, ?_, ?_⟩
  · intro offset hoffset
    exact Text.indexOfUnit_isLeast hoffset
  · intro extra
    rw [Text.indexOfUnit_beyond (by omega)]
    omega
  · intro n hn
    exact Text.indexOfUnit_units hn
  · intro hs offset hoffset
    exact Text.indexOfUnit_of_single (fun c hc => Text.pointUnits_of_not_isAstral (hs c hc)) hoffset
  · intro legend lines data
    have hdecode : decode legend lines data = (decode legend none data).map (Span.inLines lines) :=
      decodeFrom_inLines 0 0 data
    rw [hdecode, List.forall₂_map_right_iff, List.forall₂_same]
    intro given _
    exact ⟨inLines_eq_converted, inLines_ordered⟩

/-- A column between the units of a pair is at the place after it, as is the one behind the pair. -/
example : [0, 1, 2, 3, 4, 6].map (indexOfUnit ("a😀b" : Str).toList) = [0, 1, 2, 2, 3, 5] := by decide +kernel

end

end Highlighter.Semantic

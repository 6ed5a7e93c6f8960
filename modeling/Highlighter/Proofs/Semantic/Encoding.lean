import Highlighter.Proofs.Text.Encoding
import Highlighter.Semantic.Span
import Mathlib.Combinatorics.Colex

/-! The relative encoding of semantic tokens. What is encoded line by line, with columns in UTF-16
units, is decoded to the same spans with columns in characters. -/

namespace Highlighter.Semantic

open Highlighter.Text (encodeUtf16)

/-- A stretch of a line, in characters, with the numbers of its type and its modifiers. -/
structure Mark where
  line : Nat
  start : Nat
  stop : Nat
  type : Nat
  modifiers : Finset Nat

namespace Mark

/-- The stretch lies in a line of the document, and the numbers are those of names. -/
structure Fits (lines : List Str) (legend : Legend) (m : Mark) : Prop where
  start_le : m.start ≤ m.stop
  stop_le : ∃ text, lines[m.line]? = some text ∧ m.stop ≤ text.toList.length
  type_lt : m.type < legend.types.length
  modifiers_lt : ∀ i ∈ m.modifiers, i < legend.modifiers.length

/-- The order in which marks are encoded: by line, and in a line by their starts. -/
def Before (m n : Mark) : Prop := m.line < n.line ∨ m.line = n.line ∧ m.start ≤ n.start

/-- What a mark stands for. Its modifiers come in the order of the legend. -/
def span (legend : Legend) (m : Mark) : Span where
  line := m.line
  start := m.start
  stop := m.stop
  kind :=
    { type := (legend.types[m.type]?).getD ""
      modifiers := (legend.modifiers.zipIdx.filter (·.2 ∈ m.modifiers)).map (·.1) }

/-- One bit for each modifier. -/
def mask (m : Mark) : Nat := ∑ i ∈ m.modifiers, 2 ^ i

end Mark

/-- The column of a character in a line: the units that encode the text before it. -/
def columnOf (lines : List Str) (line place : Nat) : Nat :=
  (encodeUtf16 (((lines[line]?).getD "").toList.take place)).length

/-- The encoding of marks that follow a line and a column: five numbers for each. The start is
relative to the one before only in the same line. -/
def encodeFrom (lines : List Str) (line column : Nat) : List Mark → List Int
  | [] => []
  | m :: rest =>
    let first := columnOf lines m.line m.start
    let last := columnOf lines m.line m.stop
    [(m.line : Int) - line, if m.line = line then (first : Int) - column else first,
      (last : Int) - first, m.type, m.mask] ++ encodeFrom lines m.line first rest

def encode (lines : List Str) (marks : List Mark) : List Int := encodeFrom lines 0 0 marks

variable {lines : List Str} {legend : Legend} {m : Mark}

theorem columnOf_eq {line place : Nat} {text : Str} (h : lines[line]? = some text) :
    columnOf lines line place = Text.units (text.toList.take place) := by
  rw [columnOf, h, Option.getD_some, Text.length_encodeUtf16]

/-! ### The parts of a span -/

/-- Columns in units lead back to the characters. In a line of ASCII characters they are the same. -/
theorem columnsIn_columnOf {text : Str} {line start stop : Nat} (h : lines[line]? = some text)
    (hstart : start ≤ stop) (hstop : stop ≤ text.toList.length) :
    columnsIn (some lines) line (columnOf lines line start) (columnOf lines line stop) =
      ((start : Int), (stop : Int)) := by
  have hbefore : start ≤ text.toList.length := Nat.le_trans hstart hstop
  rw [columnsIn, Option.bind_some, h, columnOf_eq h, columnOf_eq h]
  by_cases hascii : Text.isAscii text.toList
  · have hprefix (n : Nat) (hn : n ≤ text.toList.length) : Text.units (text.toList.take n) = n := by
      have hall : Text.isAscii (text.toList.take n) = true :=
        List.all_eq_true.mpr fun c hc => List.all_eq_true.mp hascii c (List.mem_of_mem_take hc)
      rw [Text.units_ascii hall, List.length_take, Nat.min_eq_left hn]
    simp only [hascii, if_true, hprefix _ hbefore, hprefix _ hstop]
  · simp only [hascii, Text.indexOfUnit_units hbefore, Text.indexOfUnit_units hstop]
    rfl

/-- A name of the legend that is not empty is the name of its number. -/
theorem typeName_eq (hnames : ∀ name ∈ legend.types, name ≠ "") (h : m.type < legend.types.length) :
    typeName (some legend) m.type = (legend.types[m.type]?).getD "" := by
  have hname : legend.types[m.type]? = some legend.types[m.type] := List.getElem?_eq_getElem h
  have hne : legend.types[m.type] ≠ "" := hnames _ (List.getElem_mem h)
  have hat : nameAt? legend.types m.type = some legend.types[m.type] := by
    rw [nameAt?, if_neg (by omega), Int.toNat_natCast, hname]
  have hkept : (some legend.types[m.type]).filter (fun name : Str => name != "") = some legend.types[m.type] := by
    rw [Option.filter_some, if_pos (by simpa using hne)]
  simp only [typeName, Option.bind_some, hat, hkept, hname]
  rfl

theorem hasBit_mask (i : Nat) : hasBit m.mask i = decide (i ∈ m.modifiers) := by
  have hbit : hasBit m.mask i = m.mask.testBit i := by
    rw [hasBit, ← Int.natCast_shiftRight, Nat.testBit_eq_decide_div_mod_eq, Nat.shiftRight_eq_div_pow,
      Bool.eq_iff_iff, beq_iff_eq, decide_eq_true_eq]
    omega
  rw [hbit, Bool.eq_iff_iff, decide_eq_true_eq, ← Nat.mem_bitIndices, ← List.mem_toFinset, Mark.mask,
    Finset.toFinset_bitIndices_sum_two_pow]

theorem modifierNames_mask : modifierNames (some legend) m.mask = (m.span legend).kind.modifiers := by
  simp only [modifierNames, hasBit_mask, Mark.span]

/-! ### Whole encodings -/

/-- The line and the start are found again, whether the line is a new one or not. -/
theorem cursor_next {line next : Nat} (h : line ≤ next) (column first : Int) :
    (if 0 < (next : Int) - line then line + ((next : Int) - line).toNat else line) = next ∧
      (if 0 < (next : Int) - line then (if next = line then first - column else first)
        else column + (if next = line then first - column else first)) = first := by
  by_cases hsame : next = line
  · rw [if_neg (by omega), if_neg (by omega), if_pos hsame]
    exact ⟨hsame.symm, by omega⟩
  · rw [if_pos (by omega), if_pos (by omega), if_neg hsame]
    exact ⟨by omega, rfl⟩

/-- A mark in front of others is decoded to its span, and the others from there on. -/
theorem decodeFrom_cons {line column : Nat} {rest : List Mark}
    (hnames : ∀ name ∈ legend.types, name ≠ "") (hm : m.Fits lines legend) (hline : line ≤ m.line) :
    decodeFrom (some legend) (some lines) line column (encodeFrom lines line column (m :: rest)) =
      m.span legend :: decodeFrom (some legend) (some lines) m.line (columnOf lines m.line m.start)
        (encodeFrom lines m.line (columnOf lines m.line m.start) rest) := by
  obtain ⟨text, htext, hstop⟩ := hm.stop_le
  obtain ⟨hnext, hstart⟩ := cursor_next hline column (columnOf lines m.line m.start)
  have hlast : (columnOf lines m.line m.start : Int) +
      ((columnOf lines m.line m.stop : Int) - columnOf lines m.line m.start) =
      columnOf lines m.line m.stop := by omega
  simp only [encodeFrom, List.cons_append, List.nil_append, decodeFrom, hnext, hstart, hlast,
    columnsIn_columnOf htext hm.start_le hstop, typeName_eq hnames hm.type_lt, modifierNames_mask]
  rfl

theorem decodeFrom_encodeFrom (hnames : ∀ name ∈ legend.types, name ≠ "") {marks : List Mark}
    (hfit : ∀ m ∈ marks, m.Fits lines legend) (hsorted : marks.Pairwise Mark.Before) {line : Nat}
    (hline : ∀ m ∈ marks, line ≤ m.line) (column : Nat) :
    decodeFrom (some legend) (some lines) line column (encodeFrom lines line column marks) =
      marks.map (Mark.span legend) := by
  induction marks generalizing line column with
  | nil => rfl
  | cons m rest ih =>
    obtain ⟨hfirst, hrest⟩ := List.pairwise_cons.mp hsorted
    have hafter : ∀ n ∈ rest, m.line ≤ n.line := by
      intro n hn
      rcases hfirst n hn with h | ⟨h, -⟩ <;> omega
    rw [decodeFrom_cons hnames (hfit m List.mem_cons_self) (hline m List.mem_cons_self), List.map_cons,
      ih (fun n hn => hfit n (List.mem_cons_of_mem m hn)) hrest hafter]

/-- Decoding undoes encoding: the spans come back in order, each line holds its own, and columns are
counted in characters again. -/
theorem decode_encode (hnames : ∀ name ∈ legend.types, name ≠ "") {marks : List Mark}
    (hfit : ∀ m ∈ marks, m.Fits lines legend) (hsorted : marks.Pairwise Mark.Before) :
    decode (some legend) (some lines) (encode lines marks) = marks.map (Mark.span legend) ∧
      ∀ line, onLine (decode (some legend) (some lines) (encode lines marks)) line =
        (marks.filter (·.line = line)).map (Mark.span legend) := by
  have hall : decode (some legend) (some lines) (encode lines marks) = marks.map (Mark.span legend) :=
    decodeFrom_encodeFrom hnames hfit hsorted (fun _ _ => Nat.zero_le _) 0
  refine ⟨hall, fun line => ?_⟩
  rw [hall, onLine, List.filter_map]
  rfl

/-- Three lines, with characters beyond the first plane before, within and between the marks. -/
def pictures : List Str := ["let 😀x = 🎉y🎉", "plain", "é𝔸"]

def legendOfThree : Legend := ⟨["variable", "function"], ["declaration", "readonly", "static"]⟩

def picturesMarked : List Mark :=
  [⟨0, 4, 6, 0, {0, 2}⟩, ⟨0, 9, 12, 1, {}⟩, ⟨2, 0, 1, 0, {1}⟩, ⟨2, 1, 2, 1, {0, 1, 2}⟩]

theorem decode_encode_pictures :
    encode pictures picturesMarked =
        [0, 4, 3, 0, 5, 0, 6, 5, 1, 0, 2, 0, 1, 0, 2, 0, 1, 2, 1, 7] ∧
      decode (some legendOfThree) (some pictures) (encode pictures picturesMarked) =
        [⟨0, 4, 6, ⟨"variable", ["declaration", "static"]⟩⟩, ⟨0, 9, 12, ⟨"function", []⟩⟩,
          ⟨2, 0, 1, ⟨"variable", ["readonly"]⟩⟩,
          ⟨2, 1, 2, ⟨"function", ["declaration", "readonly", "static"]⟩⟩] := by
  have hfit : ∀ m ∈ picturesMarked, m.Fits pictures legendOfThree := by
    intro m hm
    simp only [picturesMarked, List.mem_cons, List.not_mem_nil, or_false] at hm
    rcases hm with rfl | rfl | rfl | rfl <;>
      exact ⟨by decide, ⟨_, rfl, by decide⟩, by decide, by decide⟩
  have hsorted : picturesMarked.Pairwise Mark.Before := by
    simp [picturesMarked, Mark.Before]
  refine ⟨by decide +kernel, ?_⟩
  rw [(decode_encode (by decide) hfit hsorted).1]
  decide +kernel

end Highlighter.Semantic

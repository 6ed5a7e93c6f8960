import Highlighter.Page.Comparison
import Highlighter.Proofs.Page.Showing
import Highlighter.Proofs.Slips

/-! Which two lists of entries can be compared on a page, and what the page is. The columns that no entry holds
are shown as blanks, so there is a page exactly if no gap between entries is too wide for them. -/

namespace Highlighter.Page

open Highlighter.Files (bind_eq_ok)
open Highlighter.Snapshot (Entry)

/-- The widths of the gaps on a line, from a column on. -/
def gaps (column : Int) : List Entry → List Int
  | [] => []
  | e :: rest => (e.startChar - column) :: gaps e.endChar rest

/-- The blanks for every gap fit into memory. -/
def Fillable (left right : List Entry) : Prop :=
  ∀ n < max (lineCount left) (lineCount right),
    ∀ width ∈ gaps 0 (entriesOn left n) ++ gaps 0 (entriesOn right n), width ≤ mostBlanks

instance (left right : List Entry) : Decidable (Fillable left right) := by
  unfold Fillable
  infer_instance

/-! ### Pages with filled gaps -/

def changeClass (other : List Entry) (e : Entry) : String :=
  if isChanged other e then "diff-changed" else ""

def filledSpans (other : List Entry) (column : Int) : List Entry → List Char
  | [] => []
  | e :: rest => List.replicate (e.startChar - column).toNat ' ' ++ entrySpan (changeClass other e) e ++
      filledSpans other e.endChar rest

def filledLine (line other : List Entry) : List Char :=
  if line.any (isChanged other) then span [("class", "diff-line".toList)] (filledSpans other 0 line)
  else filledSpans other 0 line

def filledColumn (name : String) (entries others : List Entry) (lines : Nat) : List Char :=
  let text := joinLines ((List.range lines).map fun n => filledLine (entriesOn entries n) (entriesOn others n))
  "<div>".toList ++ heading name ++ preformatted text ++ "</div>\n".toList

def filledPage (leftName rightName : String) (left right : List Entry) : List Char :=
  let lines := max (lineCount left) (lineCount right)
  page s!"{leftName} vs {rightName}" ("<div class=\"columns\">\n".toList ++
    filledColumn leftName left right lines ++ filledColumn rightName right left lines ++ "</div>".toList)

section
variable {line other entries others left right : List Entry} {column width : Int}
  {name leftName rightName : String} {text : List Char} {lines : Nat}

theorem gap_eq_ok : gap width = .ok text ↔ width ≤ mostBlanks ∧ text = List.replicate width.toNat ' ' := by
  unfold gap
  by_cases haddress : largestIndex < width
  · have hmany : ¬ width ≤ mostBlanks := by
      unfold largestIndex at haddress
      unfold mostBlanks
      omega
    simp [haddress, hmany]
  · by_cases hmany : mostBlanks < width
    · simp [haddress, hmany, Int.not_le.mpr hmany]
    · rw [if_neg haddress, if_neg hmany, Except.ok.injEq, eq_comm, and_iff_right (Int.not_lt.mp hmany)]

theorem lineSpans_eq_ok : lineSpans other column line = .ok text ↔
    (∀ width ∈ gaps column line, width ≤ mostBlanks) ∧ text = filledSpans other column line := by
  induction line generalizing column text with
  | nil => simp [lineSpans, gaps, filledSpans, eq_comm]
  | cons e rest ih =>
    rw [lineSpans, gaps, List.forall_mem_cons]
    constructor
    · intro h
      obtain ⟨blanks, hblanks, h⟩ := bind_eq_ok.mp h
      obtain ⟨following, hfollowing, h⟩ := bind_eq_ok.mp h
      obtain ⟨hwidth, rfl⟩ := gap_eq_ok.mp hblanks
      obtain ⟨hrest, rfl⟩ := ih.mp hfollowing
      cases h
      exact ⟨⟨hwidth, hrest⟩, rfl⟩
    · rintro ⟨⟨hwidth, hrest⟩, rfl⟩
      exact bind_eq_ok.mpr ⟨_, gap_eq_ok.mpr ⟨hwidth, rfl⟩, bind_eq_ok.mpr ⟨_, ih.mpr ⟨hrest, rfl⟩, rfl⟩⟩

theorem comparedLine_eq_ok : comparedLine line other = .ok text ↔
    (∀ width ∈ gaps 0 line, width ≤ mostBlanks) ∧ text = filledLine line other := by
  rw [comparedLine]
  constructor
  · intro h
    obtain ⟨spans, hspans, h⟩ := bind_eq_ok.mp h
    obtain ⟨hwidths, rfl⟩ := lineSpans_eq_ok.mp hspans
    cases h
    exact ⟨hwidths, rfl⟩
  · rintro ⟨hwidths, rfl⟩
    exact bind_eq_ok.mpr ⟨_, lineSpans_eq_ok.mpr ⟨hwidths, rfl⟩, rfl⟩

/-- Items that succeed under a condition, with one result, do so in a list. -/
theorem mapM_eq_ok {ε α β : Type} {f : α → Except ε β} {kept : α → Prop} {value : α → β}
    (hf : ∀ a b, f a = .ok b ↔ kept a ∧ b = value a) {as : List α} {bs : List β} :
    as.mapM f = .ok bs ↔ (∀ a ∈ as, kept a) ∧ bs = as.map value := by
  have hall (bs : List β) (h : as.mapM f = .ok bs) : bs = as.map value := by
    have heq := (forall₂_of_mapM h).imp fun a b hab => ((hf a b).mp hab).2.symm
    rw [← List.forall₂_map_left_iff, List.forall₂_eq_eq_eq] at heq
    exact heq.symm
  have hsome := @mapM_ok_iff _ _ _ f as
  simp only [hf, exists_and_left, exists_eq, and_true] at hsome
  rw [← hsome]
  exact ⟨fun h => ⟨⟨bs, h⟩, hall bs h⟩, by rintro ⟨⟨bs', h⟩, rfl⟩; rwa [hall bs' h] at h⟩

theorem column_eq_ok : Page.column name entries others lines = .ok text ↔
    (∀ n < lines, ∀ width ∈ gaps 0 (entriesOn entries n), width ≤ mostBlanks) ∧
      text = filledColumn name entries others lines := by
  have hlines := fun pieces => @mapM_eq_ok _ _ _ (fun n => comparedLine (entriesOn entries n) (entriesOn others n))
    _ _ (fun n text => comparedLine_eq_ok) (List.range lines) pieces
  simp only [List.mem_range] at hlines
  rw [Page.column, side]
  constructor
  · intro h
    obtain ⟨joined, hjoined, h⟩ := bind_eq_ok.mp h
    obtain ⟨pieces, hpieces, h'⟩ := bind_eq_ok.mp hjoined
    obtain ⟨hwidths, rfl⟩ := (hlines pieces).mp hpieces
    cases h'
    cases h
    exact ⟨hwidths, rfl⟩
  · rintro ⟨hwidths, rfl⟩
    exact bind_eq_ok.mpr ⟨_, bind_eq_ok.mpr ⟨_, (hlines _).mpr ⟨hwidths, rfl⟩, rfl⟩, rfl⟩

/-- There is a page of two versions exactly if the gaps in both can be filled. -/
theorem comparison_eq_ok : comparison leftName rightName left right = .ok text ↔
    Fillable left right ∧ text = filledPage leftName rightName left right := by
  have hfillable : Fillable left right ↔
      (∀ n < max (lineCount left) (lineCount right), ∀ width ∈ gaps 0 (entriesOn left n), width ≤ mostBlanks) ∧
        ∀ n < max (lineCount left) (lineCount right),
          ∀ width ∈ gaps 0 (entriesOn right n), width ≤ mostBlanks := by
    simp only [Fillable, List.forall_mem_append, ← forall₂_and]
  rw [comparison, hfillable]
  constructor
  · intro h
    obtain ⟨leftColumn, hleft, h⟩ := bind_eq_ok.mp h
    obtain ⟨rightColumn, hright, h⟩ := bind_eq_ok.mp h
    obtain ⟨hfirst, rfl⟩ := column_eq_ok.mp hleft
    obtain ⟨hsecond, rfl⟩ := column_eq_ok.mp hright
    cases h
    exact ⟨⟨hfirst, hsecond⟩, rfl⟩
  · rintro ⟨⟨hleft, hright⟩, rfl⟩
    exact bind_eq_ok.mpr ⟨_, column_eq_ok.mpr ⟨hleft, rfl⟩,
      bind_eq_ok.mpr ⟨_, column_eq_ok.mpr ⟨hright, rfl⟩, rfl⟩⟩

end

end Highlighter.Page

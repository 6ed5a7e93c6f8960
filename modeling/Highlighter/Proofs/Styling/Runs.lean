import Highlighter.Proofs.Styling.Partition
import Mathlib.Data.List.Chain

/-! The runs of a line, character by character. A character is shown in the style of the last token and
the last span that lie over it, whatever an overlay was asked before, and the ranges of a line are the
longest ones that show this. -/

namespace Highlighter.Styling

open Highlighter.Grammar (Token)
open Highlighter.Semantic (Classification Legend Span)

/-! ### What lies over a character -/

/-- The last of the things that reach over a place of a line. -/
def lastOver {β : Type} (reach : β → Int × Int) (i : Nat) (bs : List β) : Option β :=
  (bs.filter fun b => (reach b).1 ≤ i && i < (reach b).2).getLast?

/-- The scopes of a character: those of the last token over it. -/
def scopesAt (tokens : List Token) (i : Nat) : List Str :=
  ((lastOver (fun t => (t.start, t.stop)) i tokens).map (·.scopes)).getD []

/-- The classification of a character: that of the last span over it. -/
def kindAt (spans : List Span) (i : Nat) : Option Classification :=
  (lastOver (fun s => (s.start, s.stop)) i spans).map (·.kind)

theorem getElem?_paint {α : Type} (start stop : Int) (v : α) (cells : List α) (i : Nat) :
    (paint start stop v cells)[i]? =
      cells[i]?.map fun old => if start ≤ i && i < stop then v else old := by
  simp [paint]

/-- Where things are painted one over another, the last one shows. -/
theorem getElem?_paintings {α β : Type} (reach : β → Int × Int) (value : β → α) (bs : List β) :
    ∀ (cells : List α) (i : Nat),
      (bs.foldl (fun cells b => paint (reach b).1 (reach b).2 (value b) cells) cells)[i]? =
        cells[i]?.map ((lastOver reach i bs).map value).getD := by
  induction bs with
  | nil =>
    intro cells i
    cases h : cells[i]? <;> simp [lastOver, h]
  | cons b bs ih =>
    intro cells i
    rw [List.foldl_cons, ih, getElem?_paint, Option.map_map]
    congr 1
    funext old
    by_cases hb : (decide ((reach b).1 ≤ i) && decide (i < (reach b).2)) = true
    · simp only [Function.comp_apply, lastOver, List.filter_cons, hb, if_pos, List.getLast?_cons]
      cases (bs.filter fun b => (reach b).1 ≤ i && i < (reach b).2).getLast? <;> rfl
    · simp only [Function.comp_apply, lastOver, List.filter_cons, hb, if_neg, Bool.false_eq_true,
        not_false_iff]

theorem paintings_replicate {α β : Type} (reach : β → Int × Int) (value : β → α) (bs : List β)
    (n : Nat) (v : α) :
    bs.foldl (fun cells b => paint (reach b).1 (reach b).2 (value b) cells) (List.replicate n v) =
      (List.range n).map fun i => ((lastOver reach i bs).map value).getD v := by
  apply List.ext_getElem?
  intro i
  rw [getElem?_paintings, List.getElem?_map]
  by_cases h : i < n
  · simp [h]
  · simp [h]

theorem cellsOf_eq (length : Nat) (tokens : List Token) (spans : List Span) :
    cellsOf length tokens spans =
      (List.range length).map fun i => (scopesAt tokens i, kindAt spans i) := by
  have hscopes := paintings_replicate (fun t : Token => (t.start, t.stop)) (·.scopes) tokens length []
  have hkinds := paintings_replicate (fun s : Span => (s.start, s.stop)) (fun s => some s.kind) spans
    length none
  have hkind : ∀ i : Nat, ((lastOver (fun s : Span => (s.start, s.stop)) i spans).map
      (fun s => some s.kind)).getD none = kindAt spans i := by
    intro i
    rw [kindAt]
    cases lastOver (fun s : Span => (s.start, s.stop)) i spans <;> rfl
  simp only [hkind] at hkinds
  rw [cellsOf, hscopes, hkinds, List.zip_map']
  rfl

/-! ### Styles of one theme -/

/-- The colors of a trace tell nothing beyond it. -/
theorem resolve_colors (t : Theme) (scopes : List Str) (kind : Option Classification) :
    (resolve t scopes kind).colors = (resolve t scopes kind).trace.map (entryColor t) := by
  cases kind with
  | none => simp [resolve, resolveScopes, Function.comp_def, entryColor]
  | some c => rfl

/-- Of one theme, styles that agree are the same. -/
theorem resolve_eq_of_agrees {t : Theme} {scopes scopes' : List Str}
    {kind kind' : Option Classification}
    (h : (resolve t scopes kind).agrees (resolve t scopes' kind') = true) :
    resolve t scopes kind = resolve t scopes' kind' := by
  obtain ⟨hforeground, hfont, hsource, htrace, hactive⟩ := ResolvedStyle.agrees_iff.mp h
  have hcolors : (resolve t scopes kind).colors = (resolve t scopes' kind').colors := by
    rw [resolve_colors, resolve_colors, htrace]
  cases hstyle : resolve t scopes kind
  cases hstyle' : resolve t scopes' kind'
  simp_all

/-! ### Characters of runs -/

/-- A range reaches over a column of its line. -/
def StyledRange.Holds (r : StyledRange) (i : Nat) : Prop := r.startChar ≤ i ∧ (i : Int) < r.endChar

section
variable {line : Int} {column : Nat} {text : List CodePoint} {cells : List StyledChar} {r : StyledRange}
  {ranges : List StyledRange}

theorem Divides.bounds (h : Divides line column text ranges) (hr : r ∈ ranges) :
    (column : Int) ≤ r.startChar ∧ r.startChar < r.endChar ∧
      r.endChar ≤ (column + text.length : Nat) := by
  induction h with
  | nil column => cases hr
  | @cons column part rest style ranges ne more ih =>
    have hpos : 0 < part.length := List.length_pos_iff.mpr ne
    rw [List.length_append]
    rcases List.mem_cons.mp hr with rfl | hr
    · simp only [rangeAt]
      omega
    · obtain ⟨hstart, hlt, hend⟩ := ih hr
      omega

/-- Every column of a divided line is held by one of the ranges, and by no other. -/
theorem Divides.unique (h : Divides line column text ranges) {i : Nat} (hstart : column ≤ i)
    (hend : i < column + text.length) : ∃! r, r ∈ ranges ∧ r.Holds i := by
  induction h with
  | nil column =>
    rw [List.length_nil] at hend
    omega
  | @cons column part rest style ranges ne more ih =>
    rw [List.length_append] at hend
    by_cases hfirst : i < column + part.length
    · refine ⟨rangeAt line column part style, ⟨List.mem_cons_self, ?_⟩, ?_⟩
      · simp only [StyledRange.Holds, rangeAt]
        omega
      · rintro other ⟨hother, hholds⟩
        rcases List.mem_cons.mp hother with rfl | hother
        · rfl
        · have hbounds := more.bounds hother
          simp only [StyledRange.Holds] at hholds
          omega
    · obtain ⟨r, ⟨hr, hholds⟩, honly⟩ := ih (by omega) (by omega)
      refine ⟨r, ⟨List.mem_cons_of_mem _ hr, hholds⟩, ?_⟩
      rintro other ⟨hother, hover⟩
      rcases List.mem_cons.mp hother with rfl | hother
      · simp only [StyledRange.Holds, rangeAt] at hover
        omega
      · exact honly other ⟨hother, hover⟩

theorem getElem?_after_run (x : StyledChar) (same rest : List StyledChar) (k : Nat) :
    (x :: (same ++ rest))[same.length + 1 + k]? = rest[k]? := by
  have hindex : same.length + 1 + k = same.length + k + 1 := by omega
  rw [hindex, List.getElem?_cons_succ, List.getElem?_append_right (Nat.le_add_right _ _),
    Nat.add_sub_cancel_left]

/-- A run has the style of its first character. -/
theorem Runs.first (h : Runs line column cells ranges) (hr : r ∈ ranges) :
    ∃ k c, r.startChar = (column + k : Nat) ∧ cells[k]? = some (c, r.style) := by
  induction h with
  | nil column => cases hr
  | @cons column c style same rest ranges _ _ _ ih =>
    rcases List.mem_cons.mp hr with rfl | hr
    · exact ⟨0, c, rfl, rfl⟩
    · obtain ⟨k, d, hstart, hcell⟩ := ih hr
      refine ⟨same.length + 1 + k, d, ?_, by rw [getElem?_after_run, hcell]⟩
      rw [hstart]
      congr 1
      omega

/-- The characters of a run agree with its style. -/
theorem Runs.agrees_of_holds (h : Runs line column cells ranges) (hr : r ∈ ranges) :
    ∀ {k x}, cells[k]? = some x → r.Holds (column + k) → x.2.agrees r.style = true := by
  induction h with
  | nil column => cases hr
  | @cons column c style same rest ranges agree _ more ih =>
    intro k x hx hholds
    rcases List.mem_cons.mp hr with rfl | hr
    · have hk : k < same.length + 1 := by
        simp only [StyledRange.Holds, rangeAt, List.length_cons, List.length_map] at hholds
        omega
      cases k with
      | zero =>
        cases hx
        exact ResolvedStyle.agrees_iff.mpr ⟨rfl, rfl, rfl, rfl, rfl⟩
      | succ k =>
        rw [List.getElem?_cons_succ, List.getElem?_append_left (by omega)] at hx
        exact agree x (List.mem_of_getElem? hx)
    · have hbounds := (more.divides.bounds hr).1
      obtain ⟨k, rfl⟩ : ∃ k', k = same.length + 1 + k' :=
        ⟨k - (same.length + 1), by simp only [StyledRange.Holds] at hholds; omega⟩
      rw [getElem?_after_run] at hx
      exact ih hr hx (by rwa [← Nat.add_assoc] at hholds)

/-- The character after a run does not agree with it. -/
theorem Runs.not_agrees_after (h : Runs line column cells ranges) (hr : r ∈ ranges) :
    ∀ {k x}, cells[k]? = some x → r.endChar = (column + k : Nat) → x.2.agrees r.style = false := by
  induction h with
  | nil column => cases hr
  | @cons column c style same rest ranges _ differ more ih =>
    intro k x hx hend
    rcases List.mem_cons.mp hr with rfl | hr
    · obtain rfl : k = same.length + 1 + 0 := by
        simp only [rangeAt, List.length_cons, List.length_map] at hend
        omega
      rw [getElem?_after_run, ← List.head?_eq_getElem?] at hx
      exact differ x hx
    · have hbounds := more.divides.bounds hr
      obtain ⟨k, rfl⟩ : ∃ k', k = same.length + 1 + k' := ⟨k - (same.length + 1), by omega⟩
      rw [getElem?_after_run] at hx
      exact ih hr hx (by rwa [← Nat.add_assoc] at hend)

/-- Runs that follow each other do not agree. -/
theorem Runs.apart (h : Runs line column cells ranges) :
    ranges.IsChain fun a b => b.style.agrees a.style = false := by
  induction h with
  | nil column => exact .nil
  | @cons column c style same rest ranges _ differ more ih =>
    refine List.isChain_cons.mpr ⟨?_, ih⟩
    intro next hnext
    cases more with
    | nil => cases hnext
    | cons _ _ _ =>
      cases hnext
      exact differ _ rfl

/-- The ranges of a line whose characters have the given styles: each shows its characters in their
style, neighbours do not agree, and no ranges that show the same reach further than these. -/
structure CoarsestRuns (line : Int) (text : List CodePoint) (styleAt : Nat → ResolvedStyle)
    (ranges : List StyledRange) : Prop where
  covers : CoversLine line text ranges
  unique : ∀ i < text.length, ∃! r, r ∈ ranges ∧ r.Holds i
  styled : ∀ r ∈ ranges, ∀ i, r.Holds i → r.style = styleAt i
  apart : ranges.IsChain fun a b => b.style.agrees a.style = false
  coarsest : ∀ others, CoversLine line text others →
    (∀ r ∈ others, ∀ i, r.Holds i → r.style.agrees (styleAt i) = true) →
      ∀ r ∈ others, ∃ s ∈ ranges, s.startChar ≤ r.startChar ∧ r.endChar ≤ s.endChar

theorem runs_coarsest_nil {styleAt : Nat → ResolvedStyle} :
    CoarsestRuns line [] styleAt (runs line []) where
  covers := .empty emptyLineStyle
  unique i hi := absurd hi (Nat.not_lt_zero i)
  styled r hr i hholds := by
    obtain rfl := List.mem_singleton.mp hr
    simp only [StyledRange.Holds, rangeAt, List.length_nil] at hholds
    omega
  apart := .singleton _
  coarsest others hothers _ r hr := by
    cases hothers with
    | empty style =>
      obtain rfl := List.mem_singleton.mp hr
      exact ⟨_, List.mem_singleton_self _, Int.le_refl _, Int.le_refl _⟩
    | divided ne _ => exact absurd rfl ne

/-- A run goes as far as any range that shows the same characters in their styles. -/
theorem Runs.reaches {styleAt : Nat → ResolvedStyle} {s : StyledRange} {a : Nat}
    (h : Runs line 0 cells ranges) (hcells : ∀ i x, cells[i]? = some x → x.2 = styleAt i)
    (hs : s ∈ ranges) (hfirst : s.Holds a) (hsame : s.style = styleAt a) (hstart : r.Holds a)
    (hwithin : r.endChar ≤ cells.length)
    (hstyled : ∀ i, r.Holds i → r.style.agrees (styleAt i) = true) : r.endChar ≤ s.endChar := by
  by_contra hbeyond
  obtain ⟨k, hk⟩ : ∃ k : Nat, s.endChar = k := by
    refine ⟨s.endChar.toNat, ?_⟩
    simp only [StyledRange.Holds] at hfirst
    omega
  have hholds : r.Holds k := by
    simp only [StyledRange.Holds] at hfirst hstart ⊢
    omega
  have hlength : k < cells.length := by
    simp only [StyledRange.Holds] at hholds
    omega
  have hafter := h.not_agrees_after hs (List.getElem?_eq_getElem hlength) (by simpa using hk)
  rw [hcells k _ (List.getElem?_eq_getElem hlength), hsame] at hafter
  have hagrees : (styleAt k).agrees (styleAt a) = true :=
    ResolvedStyle.agrees_trans (ResolvedStyle.agrees_symm (hstyled k hholds)) (hstyled a hstart)
  rw [hagrees] at hafter
  cases hafter

/-- Where styles that agree are the same, the runs of a line are its coarsest ranges. -/
theorem runs_coarsest {styleAt : Nat → ResolvedStyle}
    (hequal : ∀ i j, (styleAt i).agrees (styleAt j) = true → styleAt i = styleAt j) (text : List CodePoint) :
    CoarsestRuns line text styleAt (runs line (text.mapIdx fun i c => (c, styleAt i))) := by
  by_cases hempty : text = []
  · obtain rfl := hempty
    exact runs_coarsest_nil
  · have hchars : (text.mapIdx fun i c => (c, styleAt i)).map (·.1) = text := by
      apply List.ext_getElem <;> simp
    have hcells : ∀ i x, (text.mapIdx fun i c => (c, styleAt i))[i]? = some x → x.2 = styleAt i := by
      intro i x hx
      obtain ⟨c, -, rfl⟩ : ∃ c, text[i]? = some c ∧ (c, styleAt i) = x := by simpa using hx
      rfl
    have hruns : Runs line 0 (text.mapIdx fun i c => (c, styleAt i)) _ :=
      runs_runs (by simpa using hempty)
    generalize hall : (text.mapIdx fun i c => (c, styleAt i)) = cells at hchars hcells hruns ⊢
    have hparts := hruns.divides
    rw [hchars] at hparts
    have hstyled : ∀ r ∈ runs line cells, ∀ i, r.Holds i → r.style = styleAt i := by
      intro r hr i hholds
      obtain ⟨k, c, -, hfirst⟩ := hruns.first hr
      have hbounds := hparts.bounds hr
      have hlength : i < cells.length := by
        have hlengths : cells.length = text.length := by rw [← hchars, List.length_map]
        simp only [StyledRange.Holds] at hholds
        omega
      have hagrees := hruns.agrees_of_holds hr (List.getElem?_eq_getElem hlength) (by simpa using hholds)
      have hstyle : r.style = styleAt k := hcells k _ hfirst
      rw [hcells i _ (List.getElem?_eq_getElem hlength), hstyle] at hagrees
      rw [hstyle, hequal i k hagrees]
    exact
      { covers := .divided hempty hparts
        unique := fun i hi => hparts.unique (Nat.zero_le i) (by simpa using hi)
        styled := hstyled
        apart := hruns.apart
        coarsest := by
          intro others hothers hshown r hr
          cases hothers with
          | empty style => exact absurd rfl hempty
          | divided _ parts =>
            have hbounds := parts.bounds hr
            obtain ⟨a, ha⟩ : ∃ a : Nat, r.startChar = a := ⟨r.startChar.toNat, by omega⟩
            obtain ⟨s, ⟨hs, hholds⟩, -⟩ := hparts.unique (Nat.zero_le a) (by omega)
            refine ⟨s, hs, by rw [ha]; exact hholds.1, ?_⟩
            refine hruns.reaches hcells hs hholds (hstyled s hs a hholds) ⟨by omega, by omega⟩ ?_
              (hshown r hr)
            rw [← hchars, List.length_map] at hbounds
            omega }

end

/-! ### Overlays that were asked before -/

/-- The overlays of a theme that callers can have: a new one, and what any call leaves. -/
inductive Served (t : Theme) : Overlay → Prop
  | fresh : Served t { theme := t }
  | resolve {o : Overlay} (served : Served t o) (cell : Cell) : Served t (o.resolve cell).2
  | line {o : Overlay} (served : Served t o) (number : Int) (text : Str) (tokens : List Token)
      (spans : List Span) : Served t (o.line number text tokens spans).2
  | lines {o : Overlay} (served : Served t o) (texts : List Str) (tokens : List Token)
      (spans : Nat → List Span) : Served t (o.lines texts tokens spans).2
  | document {o : Overlay} (served : Served t o) (content : Str) (tokens : List Token)
      (data : List Int) (legend : Option Legend) (utf16 : Bool) :
      Served t (o.document content tokens data legend utf16).2

/-- An overlay remembers only what its theme says. -/
structure Overlay.Remembers (t : Theme) (o : Overlay) : Prop where
  theme : o.theme = t
  known : ∀ cell style, o.known.lookup cell = some style → style = Styling.resolve t cell.1 cell.2

namespace Overlay

variable {t : Theme} {o : Overlay}

theorem Remembers.resolve (h : o.Remembers t) (cell : Cell) :
    (o.resolve cell).1 = Styling.resolve t cell.1 cell.2 ∧ (o.resolve cell).2.Remembers t := by
  unfold Overlay.resolve
  split
  · rename_i style hlookup
    exact ⟨h.known cell style hlookup, h⟩
  · refine ⟨by rw [h.theme], h.theme, fun other style hother => ?_⟩
    rw [List.lookup_cons] at hother
    split at hother
    · rename_i hcell
      rw [beq_iff_eq] at hcell
      cases hother
      rw [hcell, h.theme]
    · exact h.known other style hother

theorem Remembers.resolveAll (cells : List Cell) : ∀ {o : Overlay}, o.Remembers t →
    (o.resolveAll cells).1 = cells.map (fun cell => Styling.resolve t cell.1 cell.2) ∧
      (o.resolveAll cells).2.Remembers t := by
  induction cells with
  | nil =>
    intro o h
    exact ⟨rfl, h⟩
  | cons cell cells ih =>
    intro o h
    obtain ⟨hstyle, hnext⟩ := h.resolve cell
    obtain ⟨hstyles, hlast⟩ := ih hnext
    exact ⟨by simp [Overlay.resolveAll, hstyle, hstyles], hlast⟩

theorem Remembers.linesFrom (tokens : List Token) (spans : Nat → List Span) (texts : List Str) :
    ∀ {o : Overlay} (number : Nat), o.Remembers t →
      (o.linesFrom tokens spans number texts).2.Remembers t := by
  induction texts with
  | nil =>
    intro o number h
    exact h
  | cons text texts ih =>
    intro o number h
    exact ih (number + 1) (Remembers.resolveAll _ h).2

end Overlay

theorem Served.remembers {t : Theme} {o : Overlay} (h : Served t o) : o.Remembers t := by
  induction h with
  | fresh => exact ⟨rfl, by simp⟩
  | resolve _ cell ih => exact (ih.resolve cell).2
  | line _ number text tokens spans ih => exact (Overlay.Remembers.resolveAll _ ih).2
  | lines _ texts tokens spans ih => exact Overlay.Remembers.linesFrom tokens spans texts 0 ih
  | document _ content tokens data legend utf16 ih =>
    exact Overlay.Remembers.linesFrom _ _ _ 0 ⟨ih.theme, by simp⟩

/-- The ranges of a line are the runs of its characters, each in the style the theme gives to the scopes
of the last token and the classification of the last span over it. -/
theorem line_eq_runs {t : Theme} {o : Overlay} (h : o.Remembers t) (number : Int)
    (text : Str) (tokens : List Token) (spans : List Span) :
    (o.line number text tokens spans).1 = runs number
      (text.toList.mapIdx fun i c => (c, resolve t (scopesAt tokens i) (kindAt spans i))) := by
  have hstyles := (Overlay.Remembers.resolveAll (cellsOf text.toList.length tokens spans) h).1
  have hcells : text.toList.zip (o.resolveAll (cellsOf text.toList.length tokens spans)).1 =
      text.toList.mapIdx fun i c => (c, resolve t (scopesAt tokens i) (kindAt spans i)) := by
    rw [hstyles, cellsOf_eq]
    apply List.ext_getElem <;> simp
  rw [← hcells]
  rfl

/-- A line's ranges are the coarsest that show each of its characters in the style the theme gives to
the scopes of the last token and the classification of the last span over it: whatever the order of
tokens and spans is, wherever they reach, and whatever the overlay served before. -/
theorem line_coarsest {t : Theme} {o : Overlay} (served : Served t o) (number : Int) (text : Str)
    (tokens : List Token) (spans : List Span) :
    CoarsestRuns number text.toList (fun i => resolve t (scopesAt tokens i) (kindAt spans i))
      (o.line number text tokens spans).1 := by
  rw [line_eq_runs served.remembers]
  exact runs_coarsest (fun _ _ h => resolve_eq_of_agrees h) text.toList

/-- A line whose second token begins before it and lies over the first, and whose span is turned
around, for an overlay that was asked for a document before: its three characters are one range, in the
style of the second token. -/
theorem line_coarsest_overlapping :
    let served := (Overlay.document { theme := {} } "x" [] [] none false).2
    let tokens : List Token := [⟨0, 1, 9, ["constant"]⟩, ⟨0, -2, 3, ["source", "string"]⟩]
    let spans : List Span := [⟨0, 2, 1, ⟨"variable", []⟩⟩]
    let ranges := (served.line 0 "abc" tokens spans).1
    Served {} served ∧ ranges.length = 1 ∧ ∀ r ∈ ranges, ∀ i < 3, r.Holds i →
      r.style = resolve {} ["source", "string"] none := by
  intro served tokens spans ranges
  have hserved : Served {} served := .document .fresh "x" [] [] none false
  have hlast : ∀ i < 3, resolve {} (scopesAt tokens i) (kindAt spans i) =
      resolve {} ["source", "string"] none := by decide
  refine ⟨hserved, by decide, fun r hr i hi hholds => ?_⟩
  rw [← hlast i hi]
  exact (line_coarsest hserved 0 "abc" tokens spans).styled r hr i hholds

end Highlighter.Styling

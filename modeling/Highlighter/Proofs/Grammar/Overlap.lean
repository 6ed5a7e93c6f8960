import Highlighter.Proofs.Grammar.EngineContract
import Highlighter.Proofs.Grammar.Outcome

/-! How many regions lie over a position. A capture that is added to a match takes no region away from
a position, and puts one more over each position that it newly covers. -/

namespace Highlighter.Grammar

open Highlighter.Pattern (Match Span Text)

def Region.holds (r : Region) (x : Nat) : Bool := r.start ≤ x && x < r.stop

/-- How many regions lie over a position. -/
def overlap (rs : List Region) (x : Nat) : Nat := rs.countP (·.holds x)

@[simp] theorem overlap_nil (x : Nat) : overlap [] x = 0 := rfl

@[simp] theorem overlap_append (rs ss : List Region) (x : Nat) :
    overlap (rs ++ ss) x = overlap rs x + overlap ss x := List.countP_append

theorem overlap_cons (r : Region) (rs : List Region) (x : Nat) :
    overlap (r :: rs) x = overlap rs x + if r.start ≤ x ∧ x < r.stop then 1 else 0 := by
  simp [overlap, Region.holds, List.countP_cons]

@[simp] theorem overlap_gap (start stop : Nat) (scope : Scope) (x : Nat) :
    overlap (gap start stop scope) x = if start ≤ x ∧ x < stop then 1 else 0 := by
  unfold gap
  split
  · simp [overlap_cons]
  · rw [if_neg (by omega)]; rfl

theorem overlap_shift (offset : Nat) (rs : List Region) (x : Nat) :
    overlap (rs.map (·.shift offset)) x = if offset ≤ x then overlap rs (x - offset) else 0 := by
  induction rs with
  | nil => simp
  | cons r rs ih =>
    have hs : (r.shift offset).start = r.start + offset := rfl
    have ht : (r.shift offset).stop = r.stop + offset := rfl
    rw [List.map_cons, overlap_cons, overlap_cons, ih, hs, ht]
    split <;> split <;> grind

theorem overlap_pos {rs : List Region} {x : Nat} :
    0 < overlap rs x ↔ ∃ r ∈ rs, r.start ≤ x ∧ x < r.stop := by
  simp [overlap, List.countP_pos_iff, Region.holds]

/-- The region that is found to hold a position is one of the regions, the others stay around it. -/
theorem holder?_eq {x : Nat} : ∀ {reversed after before rest : List Region} {old : Region},
    holder? x reversed after = some (before, old, rest) →
      reversed.reverse ++ after = before ++ old :: rest
  | [], _, _, _, _, h => by cases h
  | [r], after, before, rest, old, h => by
    simp only [holder?, Option.some.injEq, Prod.mk.injEq] at h
    obtain ⟨rfl, rfl, rfl⟩ := h
    rfl
  | r :: s :: reversed, after, before, rest, old, h => by
    rw [holder?] at h
    split at h
    · have ih := holder?_eq h
      simpa using ih
    · simp only [Option.some.injEq, Prod.mk.injEq] at h
      obtain ⟨rfl, rfl, rfl⟩ := h
      simp

theorem holder?_ne_none {x : Nat} : ∀ {reversed after : List Region}, reversed ≠ [] →
    holder? x reversed after ≠ none
  | [], _, h => absurd rfl h
  | [_], _, _ => by simp [holder?]
  | r :: s :: reversed, after, _ => by
    rw [holder?]
    split
    · exact holder?_ne_none (List.cons_ne_nil s reversed)
    · simp

/-- A region is not taken away from a position by dividing a span of it. -/
theorem overlap_splice_le (old : Region) {start stop : Nat} {inner : List Region}
    (hi : ∀ x, start ≤ x → x < stop → 0 < overlap inner x) (x : Nat) :
    (if old.start ≤ x ∧ x < old.stop then 1 else 0) ≤
      overlap (splice old start stop inner) x := by
  simp only [splice, overlap_append, overlap_gap]
  have := hi x
  split <;> split <;> split <;> omega

/-- What adding captures does to a match that is being divided. -/
structure Extends (p q : Progress) : Prop where
  covered_le : p.covered ≤ q.covered
  overlap_le : ∀ x, overlap p.regions x + (if p.covered ≤ x ∧ x < q.covered then 1 else 0) ≤
    overlap q.regions x

theorem Extends.refl (p : Progress) : Extends p p :=
  ⟨Nat.le_refl _, fun x => by rw [if_neg (by omega)]; omega⟩

theorem Extends.trans {p q r : Progress} (h₁ : Extends p q) (h₂ : Extends q r) : Extends p r := by
  refine ⟨Nat.le_trans h₁.covered_le h₂.covered_le, fun x => ?_⟩
  have hp := h₁.overlap_le x
  have hq := h₂.overlap_le x
  split at hp <;> split at hq <;> split <;> omega

/-- A division leaves no position of its text without a region. -/
def Division.Covers (divide : Division) : Prop :=
  ∀ text scope rule c rs c', Returns (divide text scope rule) c rs c' →
    ∀ x < text.size, 0 < overlap rs x

variable {engine : Engine} {divide : Division} {line : Text} {scope : Scope} {m : Match}
  {c c' : Compiler}

/-- Either nothing is added, since the group took no part or is empty, or its span is added. -/
theorem addCapture_cases {capture : Nat × Rule} {p q : Progress}
    (h : Returns (addCapture engine divide line scope m capture p) c q c') :
    (q = p ∧ c' = c ∧ ∀ span, m.group? capture.1 = some (some span) → span.start = span.stop) ∨
    ∃ span, m.group? capture.1 = some (some span) ∧ span.start ≠ span.stop ∧
      Returns (addSpan engine divide line scope span capture.2 p) c q c' := by
  unfold addCapture at h
  split at h
  · rename_i span hg
    split at h
    · rename_i he
      obtain ⟨rfl, rfl⟩ := Returns.pure h
      refine .inl ⟨rfl, rfl, fun s hs => ?_⟩
      obtain rfl : span = s := by simpa [hg] using hs
      simpa using he
    · rename_i hne
      exact .inr ⟨span, hg, by simpa using hne, h⟩
  · rename_i hg
    obtain ⟨rfl, rfl⟩ := Returns.pure h
    exact .inl ⟨rfl, rfl, fun s hs => absurd hs (hg s)⟩

/-- A span is divided on its own within a region that is there already, or behind all that was
covered. -/
theorem addSpan_cases {span : Span} {rule : Rule} {p q : Progress}
    (h : Returns (addSpan engine divide line scope span rule p) c q c') :
    ∃ compiled c₁ inner, Returns (compileRule engine rule) c compiled c₁ ∧
      ((span.start < p.covered ∧ ∃ before old after,
          holder? span.start p.regions.reverse [] = some (before, old, after) ∧
          Returns (divide (line.extract span.start span.stop) old.scope compiled) c₁ inner c' ∧
          q = ⟨before ++ splice old span.start span.stop (inner.map (·.shift span.start)) ++ after,
            p.covered⟩) ∨
        (p.covered ≤ span.start ∧
          Returns (divide (line.extract span.start span.stop) scope compiled) c₁ inner c' ∧
          q = ⟨p.regions ++ gap p.covered span.start scope ++ inner.map (·.shift span.start),
            span.stop⟩)) := by
  obtain ⟨compiled, c₁, hr, rest⟩ := Returns.bind h
  split at rest
  · rename_i hlt
    split at rest
    · exact absurd rest Returns.throw
    · rename_i before old after hh
      obtain ⟨inner, c₂, hd, rest⟩ := Returns.bind rest
      obtain ⟨rfl, rfl⟩ := Returns.pure rest
      exact ⟨compiled, c₁, inner, hr, .inl ⟨hlt, before, old, after, hh, hd, rfl⟩⟩
  · rename_i hle
    obtain ⟨inner, c₂, hd, rest⟩ := Returns.bind rest
    obtain ⟨rfl, rfl⟩ := Returns.pure rest
    exact ⟨compiled, c₁, inner, hr, .inr ⟨by omega, hd, rfl⟩⟩

/-- A group's text that was divided on its own covers the group's span. -/
theorem covers_span (hd : divide.Covers) {span : Span} {rule : Compiled} {inner : List Region}
    (hs : span.stop ≤ line.size)
    (h : Returns (divide (line.extract span.start span.stop) scope rule) c inner c') (x : Nat)
    (hx : span.start ≤ x) (hx' : x < span.stop) :
    0 < overlap (inner.map (·.shift span.start)) x := by
  rw [overlap_shift, if_pos hx]
  apply hd _ _ _ _ _ _ h
  rw [Array.size_extract]
  omega

theorem addSpan_extends (hd : divide.Covers) {span : Span} {rule : Rule} {p q : Progress}
    (hsize : span.stop ≤ line.size) (hle : span.start ≤ span.stop)
    (h : Returns (addSpan engine divide line scope span rule p) c q c') : Extends p q := by
  obtain ⟨compiled, c₁, inner, -, ⟨-, before, old, after, hh, hi, rfl⟩ | ⟨hcov, hi, rfl⟩⟩ :=
    addSpan_cases h
  · refine ⟨Nat.le_refl _, fun x => ?_⟩
    have hold := overlap_splice_le old (covers_span hd hsize hi) x
    have hregions : p.regions = before ++ old :: after := by simpa using holder?_eq hh
    rw [hregions, if_neg (by simp only; omega)]
    simp only [overlap_append, overlap_cons]
    omega
  · refine ⟨by simp only; omega, fun x => ?_⟩
    have hspan := covers_span hd hsize hi x
    simp only [overlap_append, overlap_gap]
    split <;> split <;> omega

theorem addCapture_extends (hd : divide.Covers) {position : Nat} (hm : m.Lies position line.size)
    {capture : Nat × Rule} {p q : Progress}
    (h : Returns (addCapture engine divide line scope m capture p) c q c') : Extends p q := by
  obtain ⟨rfl, -⟩ | ⟨span, hg, -, h⟩ := addCapture_cases h
  · exact .refl _
  · obtain ⟨hle, hsize⟩ := hm.group hg
    exact addSpan_extends hd hsize hle h

theorem addCaptures_extends (hd : divide.Covers) {position : Nat} (hm : m.Lies position line.size)
    {captures : Captures} {p q : Progress}
    (h : Returns (captures.foldlM
      (fun p capture => addCapture engine divide line scope m capture p) p) c q c') :
    Extends p q := by
  induction captures generalizing p c with
  | nil =>
    obtain ⟨rfl, -⟩ := Returns.pure h
    exact .refl _
  | cons capture captures ih =>
    rw [List.foldlM_cons] at h
    obtain ⟨r, c₁, hr, h⟩ := Returns.bind h
    exact (addCapture_extends hd hm hr).trans (ih h)

end Highlighter.Grammar

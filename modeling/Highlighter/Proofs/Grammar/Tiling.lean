import Highlighter.Proofs.Grammar.Overlap

/-! Regions that tile a stretch: each begins where the one before it ends. Only positions below a bound
are shown, and what lies beyond the bound is in no order. -/

namespace Highlighter.Grammar

open Highlighter.Pattern (Match Text)

/-- The regions tile the stretch from one position to another as far as it is shown. -/
inductive Tiled (shown : Nat) : Nat → Nat → List Region → Prop
  | nil (start : Nat) : Tiled shown start start []
  | cons {start next stop : Nat} {scope : Scope} {rs : List Region} (lt : start < next)
      (rest : Tiled shown next stop rs) : Tiled shown start stop (⟨start, next, scope⟩ :: rs)
  | hidden {start stop : Nat} {rs : List Region} (from_hidden : shown ≤ start)
      (to_hidden : shown ≤ stop) (all : ∀ r ∈ rs, shown ≤ r.start ∧ r.start < r.stop) :
      Tiled shown start stop rs

namespace Tiled

variable {n a b c x : Nat} {rs ss : List Region} {r : Region}

/-- Whatever tiles from a hidden position on is hidden altogether. -/
theorem hidden_of_le (h : Tiled n a b rs) (ha : n ≤ a) :
    n ≤ b ∧ ∀ r ∈ rs, n ≤ r.start ∧ r.start < r.stop := by
  induction h with
  | nil a => exact ⟨ha, by simp⟩
  | cons lt rest ih =>
    obtain ⟨hb, hall⟩ := ih (by omega)
    exact ⟨hb, List.forall_mem_cons.mpr ⟨⟨ha, lt⟩, hall⟩⟩
  | hidden _ hb hall => exact ⟨hb, hall⟩

theorem append (h₁ : Tiled n a b rs) (h₂ : Tiled n b c ss) : Tiled n a c (rs ++ ss) := by
  induction h₁ with
  | nil a => exact h₂
  | cons lt rest ih => exact .cons lt (ih h₂)
  | hidden ha hb hall =>
    obtain ⟨hc, hall'⟩ := h₂.hidden_of_le hb
    refine .hidden ha hc fun r hr => ?_
    rcases List.mem_append.mp hr with hr | hr
    · exact hall r hr
    · exact hall' r hr

theorem of_append (h : Tiled n a c (rs ++ ss)) : ∃ b, Tiled n a b rs ∧ Tiled n b c ss := by
  induction rs generalizing a with
  | nil => exact ⟨a, .nil a, h⟩
  | cons r rs ih =>
    cases h with
    | cons lt rest =>
      obtain ⟨b, h₁, h₂⟩ := ih rest
      exact ⟨b, .cons lt h₁, h₂⟩
    | hidden ha hc hall =>
      exact ⟨c, .hidden ha hc fun s hs => hall s (List.mem_append_left ss hs),
        .hidden hc hc fun s hs => hall s (List.mem_append_right (r :: rs) hs)⟩

/-- A gap tiles its stretch; one that would go backwards beyond the bound is not seen. -/
theorem gap {scope : Scope} (h : a ≤ b ∨ n ≤ b) : Tiled n a b (gap a b scope) := by
  unfold Grammar.gap
  split
  · rename_i hlt
    exact .cons hlt (.nil b)
  · rename_i hle
    rcases Nat.lt_or_ge b a with hlt | hge
    · exact .hidden (by omega) (by omega) (by simp)
    · obtain rfl : a = b := by omega
      exact .nil a

theorem mono {k : Nat} (h : Tiled n a b rs) (hk : k ≤ n) : Tiled k a b rs := by
  induction h with
  | nil a => exact .nil a
  | cons lt rest ih => exact .cons lt ih
  | hidden ha hb hall =>
    exact .hidden (by omega) (by omega) fun r hr => ⟨by have := hall r hr; omega, (hall r hr).2⟩

theorem shift (offset : Nat) (h : Tiled n a b rs) :
    Tiled (n + offset) (a + offset) (b + offset) (rs.map (·.shift offset)) := by
  induction h with
  | nil a => exact .nil _
  | cons lt rest ih => exact .cons (Nat.add_lt_add_right lt offset) ih
  | hidden ha hb hall =>
    refine .hidden (by omega) (by omega) fun r hr => ?_
    obtain ⟨s, hs, rfl⟩ := List.mem_map.mp hr
    have := hall s hs
    simp only [Region.shift]
    omega

theorem start_le (h : Tiled n a b rs) (hr : r ∈ rs) : min a n ≤ r.start := by
  induction h with
  | nil a => cases hr
  | cons lt rest ih =>
    rcases List.mem_cons.mp hr with rfl | hr
    · exact Nat.min_le_left _ _
    · have := ih hr
      omega
  | hidden ha hb hall =>
    have := hall r hr
    omega

theorem covers (h : Tiled n a b rs) (ha : a ≤ x) (hb : x < b) (hn : x < n) : 0 < overlap rs x := by
  induction h with
  | nil a => omega
  | @cons a next b scope rs lt rest ih =>
    rw [overlap_cons]
    by_cases hx : x < next
    · rw [if_pos ⟨ha, hx⟩]
      omega
    · have := ih (by omega) hb
      omega
  | hidden ha' hb' hall => omega

/-- The last region ends where the tiling does, or beyond all that is shown. -/
theorem last (h : Tiled n a b (rs ++ [r])) : r.stop = b ∨ n ≤ r.stop := by
  obtain ⟨m, -, h⟩ := h.of_append
  cases h with
  | cons lt rest =>
    cases rest with
    | nil => exact .inl rfl
    | hidden hm hb hall => exact .inr hm
  | hidden hm hb hall =>
    obtain ⟨hstart, hlt⟩ := hall r List.mem_cons_self
    exact .inr (by omega)

/-- Where all of a tiling is shown, its regions lie within it, and none is empty. -/
theorem within (h : Tiled n a b rs) (hb : b < n) (hr : r ∈ rs) :
    a ≤ r.start ∧ r.start < r.stop ∧ r.stop ≤ b := by
  obtain ⟨before, after, rfl⟩ := List.append_of_mem hr
  obtain ⟨k, hbefore, hrest⟩ := h.of_append
  have hle {k l : Nat} {ss : List Region} (h : Tiled n k l ss) (hl : l < n) : k ≤ l := by
    induction h with
    | nil => exact Nat.le_refl _
    | cons lt _ ih => exact Nat.le_trans (Nat.le_of_lt lt) (ih hl)
    | hidden => omega
  cases hrest with
  | cons lt rest =>
    have hstop := hle rest hb
    exact ⟨hle hbefore (Nat.lt_trans lt (Nat.lt_of_le_of_lt hstop hb)), lt, hstop⟩
  | hidden => omega

end Tiled

/-! ### Spans within regions -/

/-- Where a position was found, the region before ends at or before it, and the region itself ends after
it unless it is the last. -/
theorem holder?_bounds {x : Nat} : ∀ {reversed after before rest : List Region} {old : Region},
    holder? x reversed after = some (before, old, rest) →
      (∀ r, before.getLast? = some r → r.stop ≤ x) ∧
        (rest = after ∧ reversed.head? = some old ∨ x < old.stop)
  | [], _, _, _, _, h => by cases h
  | [r], after, before, rest, old, h => by
    simp only [holder?, Option.some.injEq, Prod.mk.injEq] at h
    obtain ⟨rfl, rfl, rfl⟩ := h
    exact ⟨by simp, .inl ⟨rfl, rfl⟩⟩
  | r :: s :: reversed, after, before, rest, old, h => by
    rw [holder?] at h
    split at h
    · rename_i hlt
      obtain ⟨hbefore, ⟨-, hold⟩ | hold⟩ := holder?_bounds h
      · obtain rfl : s = old := by simpa using hold
        exact ⟨hbefore, .inr hlt⟩
      · exact ⟨hbefore, .inr hold⟩
    · rename_i hle
      simp only [Option.some.injEq, Prod.mk.injEq] at h
      obtain ⟨rfl, rfl, rfl⟩ := h
      refine ⟨fun t ht => ?_, .inl ⟨rfl, rfl⟩⟩
      obtain rfl : s = t := by simpa using ht
      omega

/-- A position within a tiling is found in the region that holds it, if it is shown. -/
theorem Tiled.holds {n a b x : Nat} {rs before after : List Region} {old : Region} (h : Tiled n a b rs)
    (hx : x < n) (ha : a ≤ x) (hb : x < b) (hh : holder? x rs.reverse [] = some (before, old, after)) :
    old.start ≤ x ∧ x < old.stop := by
  have hrs : rs = before ++ old :: after := by simpa using holder?_eq hh
  obtain ⟨hbefore, hlast⟩ := holder?_bounds hh
  subst hrs
  obtain ⟨m, hm, hold⟩ := h.of_append
  have hle : m ≤ x := by
    rcases List.eq_nil_or_concat before with rfl | ⟨init, r, rfl⟩
    · cases hm with
      | nil => omega
      | hidden ha' _ _ => omega
    · have hr := hbefore r (by simp)
      rw [List.concat_eq_append] at hm
      have := hm.last
      omega
  cases hold with
  | hidden hm' _ _ => omega
  | cons lt rest =>
    refine ⟨hle, ?_⟩
    rcases hlast with ⟨rfl, -⟩ | hlast
    · cases rest with
      | nil => exact hb
      | hidden hn _ _ => exact Nat.lt_of_lt_of_le hx hn
    · exact hlast

/-- Whether a span that starts in a region also lies in it, as far as this is shown. -/
def Region.admits (shown : Nat) (old : Region) (span : Pattern.Span) : Bool :=
  shown ≤ span.start ||
    (old.start ≤ span.start && (span.stop ≤ old.stop || shown ≤ old.stop))

section
variable {n a b : Nat} {rs before after inner : List Region} {old : Region} {span : Pattern.Span}

/-- Dividing a span of a region on its own keeps the tiling where the region admits the span. -/
theorem Tiled.splice (h : Tiled n a b rs)
    (hh : holder? span.start rs.reverse [] = some (before, old, after)) (hb : span.start < b)
    (hadmits : old.admits n span = true) (hi : Tiled n span.start span.stop inner) :
    Tiled n a b (before ++ splice old span.start span.stop inner ++ after) := by
  have hrs : rs = before ++ old :: after := by simpa using holder?_eq hh
  have hlast : after = [] ∨ span.start < old.stop := (holder?_bounds hh).2.imp_left (·.1)
  simp only [Region.admits, Bool.or_eq_true, Bool.and_eq_true, decide_eq_true_eq] at hadmits
  subst hrs
  obtain ⟨m, hbefore, hold⟩ := h.of_append
  rw [List.append_assoc]
  refine hbefore.append ?_
  cases hold with
  | @cons _ next _ scope _ lt rest =>
    have hstart : m ≤ span.start ∨ n ≤ span.start := by simp only at hadmits; omega
    have hnext : span.stop ≤ next ∨ n ≤ next := by
      rcases hlast with rfl | hlast
      · cases rest with
        | nil => simp only at hadmits; omega
        | hidden hn _ _ => exact .inr hn
      · simp only at hadmits hlast; omega
    exact (((Tiled.gap hstart).append hi).append (.gap hnext)).append rest
  | hidden hm hb hall =>
    have hold := hall old List.mem_cons_self
    have hs : n ≤ span.start := by omega
    obtain ⟨ht, hinner⟩ := hi.hidden_of_le hs
    refine .hidden hm hb fun r hr => ?_
    simp only [Grammar.splice, List.mem_append] at hr
    rcases hr with ((hr | hr) | hr) | hr
    · exact ((Tiled.gap (.inr hs)).hidden_of_le hold.1).2 r hr
    · exact hinner r hr
    · exact ((Tiled.gap (.inr (by omega))).hidden_of_le ht).2 r hr
    · exact hall r (List.mem_cons_of_mem _ hr)

/-- Where a region does not admit a span, a position that is shown gets two regions, or one that lies
outside of the tiling gets one. -/
theorem Tiled.clash (h : Tiled n a b rs)
    (hh : holder? span.start rs.reverse [] = some (before, old, after)) (hb : span.start < b)
    (hspan : span.start < span.stop) (hadmits : old.admits n span = false)
    (hi : ∀ x, span.start ≤ x → x < span.stop → 0 < overlap inner x) :
    ∃ x, x < n ∧ x < span.stop ∧
      2 ≤ overlap (before ++ Grammar.splice old span.start span.stop inner ++ after) x +
        if a ≤ x ∧ x < b then 0 else 1 := by
  have hrs : rs = before ++ old :: after := by simpa using holder?_eq hh
  have hmiss : span.start < n ∧
      (span.start < old.start ∨ old.stop < span.stop ∧ old.stop < n) := by
    simp only [Region.admits, Bool.or_eq_false_iff, Bool.and_eq_false_iff,
      decide_eq_false_iff_not] at hadmits
    omega
  obtain ⟨hs, hmiss⟩ := hmiss
  subst hrs
  obtain ⟨m, hm, hold⟩ := h.of_append
  have hsplice (x : Nat) (hx : span.start ≤ x) (hx' : x < span.stop) :
      0 < overlap (Grammar.splice old span.start span.stop inner) x := by
    have := hi x hx hx'
    simp only [Grammar.splice, overlap_append]
    omega
  by_cases ha : span.start < a
  · refine ⟨span.start, hs, hspan, ?_⟩
    have := hsplice span.start (Nat.le_refl _) hspan
    rw [overlap_append, overlap_append, if_neg (by omega)]
    omega
  -- The span starts within the tiling, so it starts in the region that was found.
  obtain ⟨hle, hin⟩ := h.holds hs (by omega) hb hh
  cases hold with
  | @cons _ next _ scope _ lt rest =>
    obtain ⟨hnext, hn⟩ : next < span.stop ∧ next < n := by simp only at hmiss hle; omega
    simp only at hin
    refine ⟨next, hn, hnext, ?_⟩
    have h₁ := hsplice next (by omega) hnext
    rw [overlap_append, overlap_append]
    by_cases hlt : next < b
    · have h₂ := rest.covers (Nat.le_refl _) hlt hn
      omega
    · rw [if_neg (by omega)]
      omega
  | hidden hm' _ hall =>
    have := hall old List.mem_cons_self
    omega

end

end Highlighter.Grammar

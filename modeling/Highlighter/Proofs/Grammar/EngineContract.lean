import Highlighter.Grammar.Engine

/-! What is relied on of an engine. Any engine can be watched, so that it fails where it would not keep
to this; a watched engine answers as before wherever the engine itself keeps to it. -/

namespace Highlighter.Pattern

/-- Where a match that was searched from a position on may lie in a text of a size. -/
structure Match.Lies (m : Match) (position size : Nat) : Prop where
  from_le : position ≤ m.start
  start_le : m.start ≤ m.stop
  stop_le : m.stop ≤ size
  groups_le : ∀ span, some span ∈ m.groups → span.start ≤ span.stop ∧ span.stop ≤ size

/-- Group zero is the whole match, so it lies in the text as the others do. -/
theorem Match.Lies.group {m : Match} {position size n : Nat} {span : Span}
    (h : m.Lies position size) (hg : m.group? n = some (some span)) :
    span.start ≤ span.stop ∧ span.stop ≤ size := by
  cases n with
  | zero =>
    simp only [Match.group?, Option.some.injEq] at hg
    subst hg
    exact ⟨h.start_le, h.stop_le⟩
  | succ n => exact h.groups_le span (List.mem_of_getElem? hg)

theorem Match.Lies.mono {m : Match} {position earlier size : Nat} (h : m.Lies position size)
    (he : earlier ≤ position) : m.Lies earlier size :=
  ⟨Nat.le_trans he h.from_le, h.start_le, h.stop_le, h.groups_le⟩

/-- The check behind `Lies`. -/
def Match.lies (m : Match) (position size : Nat) : Bool :=
  position ≤ m.start && m.start ≤ m.stop && m.stop ≤ size &&
    m.groups.all fun span => span.all fun s => s.start ≤ s.stop && s.stop ≤ size

theorem Match.lies_sound {m : Match} {position size : Nat} (h : m.lies position size = true) :
    m.Lies position size := by
  simp only [Match.lies, Bool.and_eq_true, decide_eq_true_eq, List.all_eq_true] at h
  obtain ⟨⟨⟨hf, hs⟩, ht⟩, hg⟩ := h
  refine ⟨hf, hs, ht, ?_⟩
  intro span hm
  simpa using hg _ hm

end Highlighter.Pattern

namespace Highlighter.Grammar

open Highlighter.Pattern (Match PatternError)

/-- Matches lie between the position they are searched from and the end of the text, with their groups
in the text, and a match at a position begins there. -/
structure Engine.Sound (engine : Engine) : Prop where
  search : ∀ {r text position m}, engine.search r text position = .ok (some m) →
    m.Lies position text.size
  matchAt : ∀ {r text position m}, engine.matchAt r text position = .ok (some m) →
    m.Lies position text.size ∧ m.start = position
  searchAny : ∀ {rs text position index m},
    engine.searchAny rs text position = .ok (some (index, m)) → m.Lies position text.size

/-- An answer that is only given if it passes a check. -/
def watched {α : Type} (check : α → Bool) :
    Except PatternError (Option α) → Except PatternError (Option α)
  | .ok (some a) => if check a then .ok (some a) else .error .invalidArgument
  | x => x

theorem watched_sound {α : Type} {check : α → Bool} {x : Except PatternError (Option α)} {a : α}
    (h : watched check x = .ok (some a)) : check a = true := by
  unfold watched at h
  split at h
  · split at h
    · rename_i hc; cases h; exact hc
    · cases h
  · rename_i hne; exact absurd h (hne a)

/-- The engine, failing where it would not keep to what is relied on. -/
def Engine.watch (engine : Engine) : Engine where
  read := engine.read
  search r text position :=
    watched (fun m => m.lies position text.size) (engine.search r text position)
  matchAt r text position :=
    watched (fun m => m.lies position text.size && m.start == position)
      (engine.matchAt r text position)
  searchAny rs text position :=
    watched (fun found => found.2.lies position text.size) (engine.searchAny rs text position)

theorem Engine.watch_sound (engine : Engine) : engine.watch.Sound where
  search h := by
    have hc := watched_sound h
    exact Match.lies_sound hc
  matchAt h := by
    have hc := watched_sound h
    simp only [Bool.and_eq_true, beq_iff_eq] at hc
    exact ⟨Match.lies_sound hc.1, hc.2⟩
  searchAny h := by
    have hc := watched_sound h
    exact Match.lies_sound hc

end Highlighter.Grammar

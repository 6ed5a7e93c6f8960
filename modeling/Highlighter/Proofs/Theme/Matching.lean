import Highlighter.Theme.Matching
import Mathlib.Data.List.Induction

/-! Which scope of a stack decides about its style, and which rule. The innermost scope that any selector
covers decides; for it the longest of these selectors wins, and of equally long ones that of the last rule. So
rules that are added behind others win all ties. -/

namespace Highlighter

/-- The selector is the scope, or the scope goes on from it after a dot. -/
inductive Covers (selector : Str) : Str → Prop
  | whole : Covers selector selector
  | inside (rest : Str) : Covers selector (selector ++ "." ++ rest)

theorem selectorCovers_iff {selector scope : List CodePoint} :
    selectorCovers selector scope = true ↔ scope = selector ∨ ∃ rest, scope = selector ++ .char '.' :: rest := by
  induction selector generalizing scope with
  | nil => cases scope <;> simp [selectorCovers]
  | cons s selector ih =>
    cases scope with
    | nil => simp [selectorCovers]
    | cons c scope =>
      simp only [selectorCovers, Bool.and_eq_true, beq_iff_eq, ih, List.cons_append, List.cons.injEq]
      constructor
      · rintro ⟨rfl, h | h⟩
        · exact .inl ⟨rfl, h⟩
        · exact .inr (h.imp fun _ h => ⟨rfl, h⟩)
      · rintro (⟨rfl, h⟩ | ⟨rest, rfl, h⟩)
        · exact ⟨rfl, .inl h⟩
        · exact ⟨rfl, .inr ⟨rest, h⟩⟩

theorem covers_iff {selector scope : Str} :
    Covers selector scope ↔ selectorCovers selector.toList scope.toList = true := by
  rw [selectorCovers_iff]
  constructor
  · rintro (_ | rest)
    · exact .inl rfl
    · exact .inr ⟨rest.toList, by simp⟩
  · rintro (h | ⟨rest, h⟩)
    · rw [Str.ext h]
      exact .whole
    · have hscope : scope = selector ++ "." ++ Str.ofList rest := Str.ext (by simp [h])
      rw [hscope]
      exact .inside _

namespace Theme

/-- The rule at a place has a selector that covers the scope. -/
structure Bids (rules : List StyleRule) (scope : Str) (place : Nat) (rule : StyleRule)
    (selector : Str) : Prop where
  listed : rules[place]? = some rule
  mem : selector ∈ rule.selectors
  covers : Covers selector scope

/-- No selector that covers the scope is longer, and no equally long one is of a later rule. -/
structure Wins (rules : List StyleRule) (scope : Str) (place : Nat) (rule : StyleRule)
    (selector : Str) : Prop extends Bids rules scope place rule selector where
  greatest : ∀ i other s, Bids rules scope i other s →
    s.length < selector.length ∨ s.length = selector.length ∧ i ≤ place

/-- No selector covers the scope. -/
def Untouched (rules : List StyleRule) (scope : Str) : Prop :=
  ∀ place rule selector, ¬ Bids rules scope place rule selector

/-- The scope at a place of the stack is the innermost one that a selector covers; the selector that wins has
a length, and its rule a style. -/
structure Decides (rules : List StyleRule) (scopes : List Str) (place length : Nat) (style : Style) :
    Prop where
  wins : ∃ scope i rule selector, scopes[place]? = some scope ∧ Wins rules scope i rule selector ∧
    selector.length = length ∧ rule.style = style
  innermost : ∀ i scope, place < i → scopes[i]? = some scope → Untouched rules scope

variable {rules derived : List StyleRule} {scope selector : Str} {rule : StyleRule} {place length : Nat}
  {style : Style} {scopes : List Str}

/-! ### One scope -/

theorem better_some (b y : Nat × Style) : better (some b) y = if b.1 ≤ y.1 then some y else some b := rfl

theorem foldl_better_eq_none {xs : List (Nat × Style)} {best : Option (Nat × Style)} :
    xs.foldl better best = none ↔ best = none ∧ xs = [] := by
  induction xs generalizing best with
  | nil => simp
  | cons x xs ih =>
    rw [List.foldl_cons, ih]
    cases best with
    | none => simp [better]
    | some b => rw [better_some]; split <;> simp

/-- The best of all is a new candidate, and then none is longer, or the old one, and then all new ones are
shorter. -/
theorem foldl_better {xs : List (Nat × Style)} {best : Option (Nat × Style)} {b : Nat × Style}
    (h : xs.foldl better best = some b) :
    (b ∈ xs ∧ (∀ x ∈ xs, x.1 ≤ b.1) ∧ ∀ old ∈ best, old.1 ≤ b.1) ∨ (best = some b ∧ ∀ x ∈ xs, x.1 < b.1) := by
  induction xs generalizing best with
  | nil => exact .inr ⟨h, by simp⟩
  | cons x xs ih =>
    obtain ⟨hb, hnew, hold⟩ | ⟨hb, hnew⟩ := ih h
    · cases best with
      | none => exact .inl ⟨.tail _ hb, by simpa using ⟨hold x rfl, fun a b => hnew (a, b)⟩, by simp⟩
      | some old =>
        rw [better_some] at hold
        split at hold <;> rename_i hle
        · have hx := hold x rfl
          exact .inl ⟨.tail _ hb, List.forall_mem_cons.2 ⟨hx, hnew⟩, by simpa using Nat.le_trans hle hx⟩
        · have hold := hold old rfl
          exact .inl ⟨.tail _ hb, List.forall_mem_cons.2 ⟨by omega, hnew⟩, by simpa using hold⟩
    · cases best with
      | none =>
        obtain rfl : x = b := Option.some.inj hb
        have hle := fun y hy => Nat.le_of_lt (hnew y hy)
        exact .inl ⟨.head _, List.forall_mem_cons.2 ⟨Nat.le_refl _, hle⟩, by simp⟩
      | some old =>
        rw [better_some] at hb
        split at hb <;> rename_i hold <;> obtain rfl := Option.some.inj hb
        · have hle := fun y hy => Nat.le_of_lt (hnew y hy)
          exact .inl ⟨.head _, List.forall_mem_cons.2 ⟨Nat.le_refl _, hle⟩, by simpa using hold⟩
        · exact .inr ⟨rfl, List.forall_mem_cons.2 ⟨by omega, hnew⟩⟩

/-- The candidates of one more rule have its style and the lengths of those of its selectors that cover the
scope. -/
theorem mem_candidates_singleton {b : Nat × Style} : b ∈ candidates [rule] scope ↔
    b.2 = rule.style ∧ ∃ selector ∈ rule.selectors, Covers selector scope ∧ selector.length = b.1 := by
  obtain ⟨length, style⟩ := b
  simp only [candidates, List.flatMap_cons, List.flatMap_nil, List.append_nil, List.mem_map, List.mem_filter,
    ← covers_iff, Prod.mk.injEq]
  constructor
  · rintro ⟨s, ⟨hs, hc⟩, rfl, rfl⟩
    exact ⟨rfl, s, hs, hc, rfl⟩
  · rintro ⟨rfl, s, hs, hc, rfl⟩
    exact ⟨s, ⟨hs, hc⟩, rfl, rfl⟩

/-- A place of two lists of rules is one of the first, or one of the second after all of the first. -/
theorem bids_append : Bids (rules ++ derived) scope place rule selector ↔
    Bids rules scope place rule selector ∨
      ∃ i, place = rules.length + i ∧ Bids derived scope i rule selector := by
  constructor
  · rintro ⟨hlisted, hmem, hcovers⟩
    rw [List.getElem?_append] at hlisted
    split at hlisted
    · exact .inl ⟨hlisted, hmem, hcovers⟩
    · exact .inr ⟨place - rules.length, by omega, hlisted, hmem, hcovers⟩
  · rintro (⟨hlisted, hmem, hcovers⟩ | ⟨i, rfl, hlisted, hmem, hcovers⟩)
    · have hlt := (List.getElem?_eq_some_iff.1 hlisted).1
      exact ⟨by rw [List.getElem?_append_left hlt, hlisted], hmem, hcovers⟩
    · exact ⟨by rw [List.getElem?_append_right (by omega), Nat.add_sub_cancel_left, hlisted], hmem, hcovers⟩

theorem Bids.place_lt (h : Bids rules scope place rule selector) : place < rules.length :=
  (List.getElem?_eq_some_iff.1 h.listed).1

theorem untouched_append :
    Untouched (rules ++ derived) scope ↔ Untouched rules scope ∧ Untouched derived scope := by
  constructor
  · intro h
    exact ⟨fun i r s hbids => h i r s (bids_append.2 (.inl hbids)),
      fun i r s hbids => h _ r s (bids_append.2 (.inr ⟨i, rfl, hbids⟩))⟩
  · rintro ⟨h, hderived⟩ i r s hbids
    obtain hbids | ⟨j, -, hbids⟩ := bids_append.1 hbids
    · exact h i r s hbids
    · exact hderived j r s hbids

/-- Behind other rules the winner stays, unless one of these wins with a longer selector. -/
theorem Wins.append_right (h : Wins derived scope place rule selector)
    (hshort : ∀ i other s, Bids rules scope i other s → s.length ≤ selector.length) :
    Wins (rules ++ derived) scope (rules.length + place) rule selector where
  toBids := bids_append.2 (.inr ⟨place, rfl, h.toBids⟩)
  greatest i other s hbids := by
    obtain hleft | ⟨j, rfl, hright⟩ := bids_append.1 hbids
    · have := hshort i other s hleft
      have := hleft.place_lt
      omega
    · have := h.greatest j other s hright
      omega

/-- Before other rules the winner stays if their selectors are all shorter. -/
theorem Wins.append_left (h : Wins rules scope place rule selector)
    (hshort : ∀ i other s, Bids derived scope i other s → s.length < selector.length) :
    Wins (rules ++ derived) scope place rule selector where
  toBids := bids_append.2 (.inl h.toBids)
  greatest i other s hbids := by
    obtain hleft | ⟨j, rfl, hright⟩ := bids_append.1 hbids
    · exact h.greatest i other s hleft
    · exact .inl (hshort j other s hright)

/-- Two selectors that win are equally long, and of one rule. -/
theorem Wins.unique {place' : Nat} {rule' : StyleRule} {selector' : Str}
    (h : Wins rules scope place rule selector) (h' : Wins rules scope place' rule' selector') :
    selector.length = selector'.length ∧ rule = rule' := by
  have hle := h.greatest place' rule' selector' h'.toBids
  have hge := h'.greatest place rule selector h.toBids
  obtain ⟨hlength, rfl⟩ : selector.length = selector'.length ∧ place = place' := by omega
  exact ⟨hlength, Option.some.inj (h.listed.symm.trans h'.listed)⟩

theorem bids_singleton {other : StyleRule} : Bids [rule] scope place other selector ↔
    place = 0 ∧ other = rule ∧ selector ∈ rule.selectors ∧ Covers selector scope := by
  constructor
  · rintro ⟨hlisted, hmem, hcovers⟩
    obtain rfl : place = 0 := by
      have := (List.getElem?_eq_some_iff.1 hlisted).1
      simpa using this
    obtain rfl : rule = other := Option.some.inj hlisted
    exact ⟨rfl, rfl, hmem, hcovers⟩
  · rintro ⟨rfl, rfl, hmem, hcovers⟩
    exact ⟨rfl, hmem, hcovers⟩

/-- The best candidate of a scope: that of the rule that wins, and none if no selector covers the scope. -/
theorem best_candidate (rules : List StyleRule) (scope : Str) :
    match (candidates rules scope).foldl better none with
    | some (length, style) => ∃ place rule selector, Wins rules scope place rule selector ∧
        selector.length = length ∧ rule.style = style
    | none => Untouched rules scope := by
  -- rule by rule in the order of the list: of two equally long selectors the later one wins
  induction rules using List.reverseRecOn with
  | nil => intro place rule selector h; exact absurd h.listed (by simp)
  | append_singleton rules rule ih =>
    have hcandidate : ∀ {i other s}, Bids [rule] scope i other s →
        (s.length, rule.style) ∈ candidates [rule] scope := fun hbids =>
      have ⟨_, _, hmem, hcovers⟩ := bids_singleton.1 hbids
      mem_candidates_singleton.2 ⟨rfl, _, hmem, hcovers, rfl⟩
    have hsplit : candidates (rules ++ [rule]) scope = candidates rules scope ++ candidates [rule] scope :=
      List.flatMap_append
    rw [hsplit, List.foldl_append]
    split <;> rename_i hbest
    · obtain ⟨hmem, hnew, hold⟩ | ⟨hb, hnew⟩ := foldl_better hbest
      · obtain ⟨rfl, selector, hselector, hcovers, rfl⟩ := mem_candidates_singleton.1 hmem
        have hwins : Wins [rule] scope 0 rule selector :=
          ⟨bids_singleton.2 ⟨rfl, rfl, hselector, hcovers⟩, fun i other s hbids => by
            have := hnew _ (hcandidate hbids)
            have := (bids_singleton.1 hbids).1
            omega⟩
        refine ⟨_, rule, selector, hwins.append_right fun i other s hbids => ?_, rfl, rfl⟩
        split at ih <;> rename_i hbefore
        · obtain ⟨place, winner, t, hwinner, rfl, -⟩ := ih
          have := hwinner.greatest i other s hbids
          have := hold _ hbefore
          omega
        · exact absurd hbids (ih i other s)
      · rw [hb] at ih
        obtain ⟨place, winner, t, hwinner, rfl, hstyle⟩ := ih
        have hwins := hwinner.append_left fun i other s hbids => hnew _ (hcandidate hbids)
        exact ⟨place, winner, t, hwins, rfl, hstyle⟩
    · obtain ⟨hnone, hempty⟩ := foldl_better_eq_none.1 hbest
      rw [hnone] at ih
      exact untouched_append.2 ⟨ih, fun i other s hbids => by simpa [hempty] using hcandidate hbids⟩

theorem styleOfScope?_eq_some : styleOfScope? rules scope = some style ↔
    ∃ place rule selector, Wins rules scope place rule selector ∧ rule.style = style := by
  have hbest := best_candidate rules scope
  unfold styleOfScope?
  split at hbest <;> rename_i h <;> rw [h]
  · obtain ⟨i, winner, t, hwins, -, rfl⟩ := hbest
    simp only [Option.map_some, Option.some.injEq]
    constructor
    · rintro rfl
      exact ⟨i, winner, t, hwins, rfl⟩
    · rintro ⟨j, other, u, hother, rfl⟩
      rw [(hwins.unique hother).2]
  · simp only [Option.map_none, reduceCtorEq, false_iff]
    rintro ⟨i, winner, t, hwins, -⟩
    exact hbest i winner t hwins.toBids

theorem styleOfScope?_eq_none : styleOfScope? rules scope = none ↔ Untouched rules scope := by
  have hbest := best_candidate rules scope
  unfold styleOfScope?
  split at hbest <;> rename_i h <;> rw [h]
  · obtain ⟨i, winner, t, hwins, -⟩ := hbest
    simpa using fun huntouched : Untouched rules scope => huntouched i winner t hwins.toBids
  · simpa using hbest

/-! ### The stack -/

theorem Decides.unique {place' length' : Nat} {style' : Style} (h : Decides rules scopes place length style)
    (h' : Decides rules scopes place' length' style') :
    place = place' ∧ length = length' ∧ style = style' := by
  obtain ⟨scope, i, rule, selector, hscope, hwins, rfl, rfl⟩ := h.wins
  obtain ⟨scope', i', rule', selector', hscope', hwins', rfl, rfl⟩ := h'.wins
  obtain hlt | rfl | hgt := Nat.lt_trichotomy place place'
  · exact absurd hwins'.toBids (h.innermost _ _ hlt hscope' i' rule' selector')
  · obtain rfl : scope = scope' := Option.some.inj (hscope.symm.trans hscope')
    obtain ⟨hlength, rfl⟩ := hwins.unique hwins'
    exact ⟨rfl, hlength, rfl⟩
  · exact absurd hwins.toBids (h'.innermost _ _ hgt hscope i rule selector)

theorem Decides.not_untouched (h : Decides rules scopes place length style) :
    ¬ ∀ scope ∈ scopes, Untouched rules scope := by
  obtain ⟨scope, i, rule, selector, hscope, hwins, -⟩ := h.wins
  exact fun huntouched => huntouched scope (List.mem_of_getElem? hscope) i rule selector hwins.toBids

/-- A scope that is put onto the stack decides if any selector covers it; otherwise the others decide as
without it. -/
theorem Decides.push (h : Decides rules scopes place length style) (huntouched : Untouched rules scope) :
    Decides rules (scopes ++ [scope]) place length style where
  wins := by
    obtain ⟨decisive, i, rule, selector, hscope, hwins⟩ := h.wins
    have hlt := (List.getElem?_eq_some_iff.1 hscope).1
    exact ⟨decisive, i, rule, selector, by rw [List.getElem?_append_left hlt, hscope], hwins⟩
  innermost i inner hi hinner := by
    rw [List.getElem?_append] at hinner
    split at hinner
    · exact h.innermost i inner hi hinner
    · obtain rfl : scope = inner := (by simpa using List.mem_of_getElem? hinner : inner = scope).symm
      exact huntouched

theorem matchInnermost_decides (rules : List StyleRule) (scopes : List Str) :
    match matchInnermost rules scopes.reverse with
    | some (place, style) => ∃ length, Decides rules scopes place length style
    | none => ∀ scope ∈ scopes, Untouched rules scope := by
  -- the stack is read from its inner end, which is where the list is appended to
  induction scopes using List.reverseRecOn with
  | nil => simp [matchInnermost]
  | append_singleton scopes scope ih =>
    rw [List.reverse_append, List.reverse_singleton, List.singleton_append, matchInnermost]
    cases hstyle : styleOfScope? rules scope with
    | some style =>
      obtain ⟨i, rule, selector, hwins, rfl⟩ := styleOfScope?_eq_some.1 hstyle
      have hscope : (scopes ++ [scope])[scopes.reverse.length]? = some scope := by simp
      refine ⟨selector.length, ⟨scope, i, rule, selector, hscope, hwins, rfl, rfl⟩, ?_⟩
      intro j inner hj hinner
      have := (List.getElem?_eq_some_iff.1 hinner).1
      simp only [List.length_reverse, List.length_append, List.length_singleton] at hj this
      omega
    | none =>
      have huntouched := styleOfScope?_eq_none.1 hstyle
      split at ih <;> rename_i hmatch <;> rw [hmatch]
      · exact ih.imp fun _ h => h.push huntouched
      · simpa [or_imp, forall_and] using ⟨ih, huntouched⟩

theorem matchScopes_eq_some : matchScopes rules scopes = ⟨style, some place⟩ ↔
    ∃ length, Decides rules scopes place length style := by
  have hmatch := matchInnermost_decides rules scopes
  unfold matchScopes
  cases hinnermost : matchInnermost rules scopes.reverse with
  | some found =>
    rw [hinnermost] at hmatch
    obtain ⟨length, hdecides⟩ := hmatch
    simp only [ScopeMatch.mk.injEq, Option.some.injEq]
    constructor
    · rintro ⟨rfl, rfl⟩
      exact ⟨length, hdecides⟩
    · rintro ⟨length', hother⟩
      obtain ⟨hplace, -, hstyle⟩ := hdecides.unique hother
      exact ⟨hstyle, hplace⟩
  | none =>
    rw [hinnermost] at hmatch
    simp only [ScopeMatch.mk.injEq, reduceCtorEq, and_false, false_iff]
    rintro ⟨length, hdecides⟩
    exact hdecides.not_untouched hmatch

theorem matchScopes_eq_none : matchScopes rules scopes = ⟨style, none⟩ ↔
    style = { foreground := some Style.defaultForeground } ∧ ∀ scope ∈ scopes, Untouched rules scope := by
  have hmatch := matchInnermost_decides rules scopes
  unfold matchScopes
  cases hinnermost : matchInnermost rules scopes.reverse with
  | some found =>
    rw [hinnermost] at hmatch
    obtain ⟨length, hdecides⟩ := hmatch
    simp [hdecides.not_untouched]
  | none =>
    rw [hinnermost] at hmatch
    simpa [eq_comm] using fun _ => hmatch

/-! ### More rules behind the others -/

/-- From its place on inwards a selector that covers a scope covers the one that decides, and is no longer
than the one that wins. -/
theorem Decides.bids_le (h : Decides rules scopes place length style) {i j : Nat} (hi : place ≤ i)
    (hscope : scopes[i]? = some scope) (hbids : Bids rules scope j rule selector) :
    i = place ∧ selector.length ≤ length := by
  obtain rfl | hlt := Nat.eq_or_lt_of_le hi
  · obtain ⟨decisive, k, winner, t, hdecisive, hwins, rfl, -⟩ := h.wins
    obtain rfl : decisive = scope := Option.some.inj (hdecisive.symm.trans hscope)
    have := hwins.greatest j rule selector hbids
    exact ⟨rfl, by omega⟩
  · exact absurd hbids (h.innermost i scope hlt hscope j rule selector)

/-- Added rules decide if from their place on inwards the others have no longer selector. -/
theorem Decides.append_right (h : Decides derived scopes place length style)
    (hrules : ∀ {i scope j rule selector}, place ≤ i → scopes[i]? = some scope →
      Bids rules scope j rule selector → i = place ∧ selector.length ≤ length) :
    Decides (rules ++ derived) scopes place length style where
  wins := by
    obtain ⟨scope, j, rule, selector, hscope, hwins, rfl, hstyle⟩ := h.wins
    exact ⟨scope, _, rule, selector, hscope,
      hwins.append_right fun _ _ _ hbids => (hrules (Nat.le_refl _) hscope hbids).2, rfl, hstyle⟩
  innermost i scope hi hscope := by
    refine untouched_append.2 ⟨fun j rule selector hbids => ?_, h.innermost i scope hi hscope⟩
    have := (hrules (Nat.le_of_lt hi) hscope hbids).1
    omega

/-- The rules before them decide if from their place on inwards the added ones have shorter selectors only. -/
theorem Decides.append_left (h : Decides rules scopes place length style)
    (hderived : ∀ {i scope j rule selector}, place ≤ i → scopes[i]? = some scope →
      Bids derived scope j rule selector → i = place ∧ selector.length < length) :
    Decides (rules ++ derived) scopes place length style where
  wins := by
    obtain ⟨scope, j, rule, selector, hscope, hwins, rfl, hstyle⟩ := h.wins
    exact ⟨scope, _, rule, selector, hscope,
      hwins.append_left fun _ _ _ hbids => (hderived (Nat.le_refl _) hscope hbids).2, rfl, hstyle⟩
  innermost i scope hi hscope := by
    refine untouched_append.2 ⟨h.innermost i scope hi hscope, fun j rule selector hbids => ?_⟩
    have := (hderived (Nat.le_of_lt hi) hscope hbids).1
    omega

/-- Rules that have no selector for any scope of the stack change nothing behind others. -/
theorem matchScopes_append_of_untouched (huntouched : ∀ scope ∈ scopes, Untouched derived scope) :
    matchScopes (rules ++ derived) scopes = matchScopes rules scopes := by
  cases h : matchScopes rules scopes with
  | mk style place =>
    cases place with
    | none =>
      obtain ⟨hstyle, hrules⟩ := matchScopes_eq_none.1 h
      exact matchScopes_eq_none.2 ⟨hstyle, fun scope hscope =>
        untouched_append.2 ⟨hrules scope hscope, huntouched scope hscope⟩⟩
    | some place =>
      obtain ⟨length, hdecides⟩ := matchScopes_eq_some.1 h
      exact matchScopes_eq_some.2 ⟨length, hdecides.append_left fun _ hscope hbids =>
        absurd hbids (huntouched _ (List.mem_of_getElem? hscope) _ _ _)⟩

/-- Nor do they change anything before others. -/
theorem matchScopes_of_untouched_append (huntouched : ∀ scope ∈ scopes, Untouched rules scope) :
    matchScopes (rules ++ derived) scopes = matchScopes derived scopes := by
  cases h : matchScopes derived scopes with
  | mk style place =>
    cases place with
    | none =>
      obtain ⟨hstyle, hderived⟩ := matchScopes_eq_none.1 h
      exact matchScopes_eq_none.2 ⟨hstyle, fun scope hscope =>
        untouched_append.2 ⟨huntouched scope hscope, hderived scope hscope⟩⟩
    | some place =>
      obtain ⟨length, hdecides⟩ := matchScopes_eq_some.1 h
      exact matchScopes_eq_some.2 ⟨length, hdecides.append_right fun _ hscope hbids =>
        absurd hbids (huntouched _ (List.mem_of_getElem? hscope) _ _ _)⟩

/-- Of two lists of rules that both have a selector for the stack the one decides that does so further inside,
or with the longer selector at the same scope; at a tie the later list. -/
theorem matchScopes_append {place' length' : Nat} {style' : Style}
    (h : Decides rules scopes place length style) (h' : Decides derived scopes place' length' style') :
    matchScopes (rules ++ derived) scopes =
      if place < place' ∨ place = place' ∧ length ≤ length' then matchScopes derived scopes
      else matchScopes rules scopes := by
  split <;> rename_i hbetter
  · rw [matchScopes_eq_some.2 ⟨length', h'⟩]
    refine matchScopes_eq_some.2 ⟨length', h'.append_right fun hi hscope hbids => ?_⟩
    have := h.bids_le (by omega) hscope hbids
    omega
  · rw [matchScopes_eq_some.2 ⟨length, h⟩]
    refine matchScopes_eq_some.2 ⟨length, h.append_left fun hi hscope hbids => ?_⟩
    have := h'.bids_le (by omega) hscope hbids
    omega

/-- A stack is matched by its innermost scope that a selector covers, with the style of the pair of rule and
selector that is greatest by the length of the selector and then by the place of the rule; it gets the default
style, and no place, exactly if no selector covers any of its scopes. Rules that are added behind others give
the better of the two separate results, by the place and then by the length of the selector, and win ties. -/
theorem matchScopes_reference (rules : List StyleRule) (scopes : List Str) :
    (∀ style place, matchScopes rules scopes = ⟨style, some place⟩ ↔
      ∃ length, Decides rules scopes place length style) ∧
    (∀ style, matchScopes rules scopes = ⟨style, none⟩ ↔
      style = { foreground := some Style.defaultForeground } ∧ ∀ scope ∈ scopes, Untouched rules scope) ∧
    ∀ derived,
      ((∀ scope ∈ scopes, Untouched rules scope) →
        matchScopes (rules ++ derived) scopes = matchScopes derived scopes) ∧
      ((∀ scope ∈ scopes, Untouched derived scope) →
        matchScopes (rules ++ derived) scopes = matchScopes rules scopes) ∧
      ∀ place length style place' length' style', Decides rules scopes place length style →
        Decides derived scopes place' length' style' → matchScopes (rules ++ derived) scopes =
          if place < place' ∨ place = place' ∧ length ≤ length' then matchScopes derived scopes
          else matchScopes rules scopes :=
  ⟨fun _ _ => matchScopes_eq_some, fun _ => matchScopes_eq_none, fun _ =>
    ⟨matchScopes_of_untouched_append, matchScopes_append_of_untouched, fun _ _ _ _ _ _ => matchScopes_append⟩⟩

/-- A rule with one selector wins wherever the selector covers the scope. -/
theorem wins_singleton (hcovers : Covers selector scope) (style : Style) :
    Wins [⟨[selector], style⟩] scope 0 ⟨[selector], style⟩ selector where
  toBids := bids_singleton.2 ⟨rfl, rfl, .head _, hcovers⟩
  greatest i other s hbids := by
    obtain ⟨rfl, -, hmem, -⟩ := bids_singleton.1 hbids
    exact .inr ⟨by rw [List.mem_singleton.1 hmem], Nat.le_refl 0⟩

/-- A derived theme that repeats a selector of its base theme gives the scope its own style. -/
theorem matchScopes_reference_tie : matchScopes
      ([⟨["string"], { foreground := some "#ff0000" }⟩] ++ [⟨["string"], { foreground := some "#0000ff" }⟩])
      ["source", "string.quoted"] = ⟨{ foreground := some "#0000ff" }, some 1⟩ :=
  have decides (style : Style) : Decides [⟨["string"], style⟩] ["source", "string.quoted"] 1 6 style :=
    ⟨⟨_, 0, _, "string", rfl, wins_singleton (.inside "quoted") style, by decide, rfl⟩,
      fun i scope hi hscope => absurd (List.getElem?_eq_some_iff.1 hscope).1 (Nat.not_lt.2 hi)⟩
  ((matchScopes_reference _ _).2.2 _).2.2 1 6 _ 1 6 _ (decides _) (decides _)

end Theme

end Highlighter

import Highlighter.Proofs.Grammar.Layers
import Mathlib.Data.List.TakeWhile

/-! What includes lead to. A reference stands for a pattern list by the form that it has, and from the
patterns of a grammar rules are reached by includes and by rules that only hold patterns. -/

namespace Highlighter.Grammar

variable {l : Library} {g h : Grammar} {r s : Rule} {a b : PatternList} {reference scope key : Str}

/-! ### References -/

/-- The pattern list that a reference in a grammar stands for. -/
inductive Resolves (l : Library) (g : Grammar) : Str → PatternList → Prop
  | self : Resolves l g "$self" (g, g.patterns)
  | base {base : Grammar} : l.base? = some base → Resolves l g "$base" (base, base.patterns)
  | key {key : Str} {rule : Rule} : g.repository.lookup key = some rule →
      Resolves l g ("#" ++ key) (g, [rule])
  | scope {scope : Str} {other : Grammar} : CodePoint.char '#' ∉ scope.toList → scope ≠ "$self" →
      scope ≠ "$base" → l.find? scope = some other → Resolves l g scope (other, other.patterns)
  | scopeAlone {scope : Str} {other : Grammar} : CodePoint.char '#' ∉ scope.toList → scope ≠ "" →
      l.find? scope = some other → Resolves l g (scope ++ "#") (other, other.patterns)
  | scopeKey {scope key : Str} {other : Grammar} {rule : Rule} : CodePoint.char '#' ∉ scope.toList →
      scope ≠ "" → key ≠ "" → l.find? scope = some other → other.repository.lookup key = some rule →
      Resolves l g (scope ++ "#" ++ key) (other, [rule])

theorem before_hash (hs : CodePoint.char '#' ∉ scope.toList) : ∀ c ∈ scope.toList, (c != .char '#') = true := by
  intro c hc
  rw [bne_iff_ne]
  intro he
  exact hs (he ▸ hc)

theorem splitReference_scope (hs : CodePoint.char '#' ∉ scope.toList) :
    splitReference scope = (scope, ("" : Str)) := by
  have htake : scope.toList.takeWhile (· != .char '#') = scope.toList :=
    List.takeWhile_eq_self_iff.mpr (before_hash hs)
  unfold splitReference
  simp only [htake]
  simp
  rfl

theorem splitReference_key (hs : CodePoint.char '#' ∉ scope.toList) :
    splitReference (scope ++ "#" ++ key) = (scope, key) := by
  have hlist : (scope ++ "#" ++ key).toList = scope.toList ++ .char '#' :: key.toList := by simp
  have htake : (scope.toList ++ .char '#' :: key.toList).takeWhile (· != .char '#') = scope.toList := by
    rw [List.takeWhile_append_of_pos (before_hash hs)]
    simp
  unfold splitReference
  simp only [hlist, htake]
  simp

/-- A reference is a scope, or a scope and a key with a hash between them. -/
theorem reference_cases (reference : Str) : CodePoint.char '#' ∉ reference.toList ∨
    ∃ scope key, CodePoint.char '#' ∉ scope.toList ∧ reference = scope ++ "#" ++ key := by
  by_cases hmem : CodePoint.char '#' ∈ reference.toList
  · obtain ⟨scope, key, hsplit, hs⟩ := List.eq_append_cons_of_mem hmem
    refine .inr ⟨.ofList scope, .ofList key, hs, ?_⟩
    ext1
    simpa using hsplit
  · exact .inl hmem

theorem repositoryTarget_eq {rules : List Rule} : repositoryTarget g key = .rules h rules ↔
    h = g ∧ ∃ rule, g.repository.lookup key = some rule ∧ rules = [rule] := by
  unfold repositoryTarget
  cases g.repository.lookup key with
  | none => simp
  | some rule => simp [eq_comm]

theorem resolveInclude_base : resolveInclude l g "$base" =
    match l.base? with
    | some base => .rules base base.patterns
    | none => .noBase := rfl

theorem resolveInclude_base_iff {l : Library} {g : Grammar} :
    (∀ h, resolveInclude l h "$base" = .rules g g.patterns) ↔ l.base? = some g := by
  simp only [resolveInclude_base, forall_const]
  cases l.base? with
  | none => simp
  | some base =>
    constructor
    · intro h
      rw [(Target.rules.inj h).1]
    · intro h
      rw [Option.some.inj h]

theorem ne_of_hash (h : CodePoint.char '#' ∈ reference.toList) : reference ≠ "$self" ∧ reference ≠ "$base" := by
  constructor
  · rintro rfl
    simp at h
  · rintro rfl
    simp at h

theorem resolveInclude_key : resolveInclude l g ("#" ++ key) = repositoryTarget g key := by
  obtain ⟨hself, hbase⟩ : "#" ++ key ≠ "$self" ∧ "#" ++ key ≠ "$base" := ne_of_hash (by simp)
  unfold resolveInclude
  simp [hself, hbase]

/-- A reference that begins by a scope is looked up under that scope. -/
theorem resolveInclude_scope (hself : reference ≠ "$self") (hbase : reference ≠ "$base")
    (hsplit : splitReference reference = (scope, key)) (hhash : reference.toList.head? ≠ some (.char '#')) :
    resolveInclude l g reference =
      match l.find? scope with
      | none => .missing scope
      | some other => if key == "" then .rules other other.patterns else repositoryTarget other key := by
  unfold resolveInclude
  simp only [beq_iff_eq, hself, hbase, if_false, hsplit]
  split
  · rename_i heq
    simp [heq] at hhash
  · rfl

theorem resolveInclude_alone (hs : CodePoint.char '#' ∉ scope.toList) (hself : scope ≠ "$self")
    (hbase : scope ≠ "$base") : resolveInclude l g scope =
      match l.find? scope with
      | none => .missing scope
      | some other => .rules other other.patterns := by
  have hhash : scope.toList.head? ≠ some (.char '#') := fun h => hs (List.mem_of_head? h)
  rw [resolveInclude_scope hself hbase (splitReference_scope hs) hhash]
  rfl

theorem resolveInclude_scopeKey (hs : CodePoint.char '#' ∉ scope.toList) (hne : scope ≠ "") :
    resolveInclude l g (scope ++ "#" ++ key) =
      match l.find? scope with
      | none => .missing scope
      | some other => if key == "" then .rules other other.patterns else repositoryTarget other key := by
  obtain ⟨hself, hbase⟩ : scope ++ "#" ++ key ≠ "$self" ∧ scope ++ "#" ++ key ≠ "$base" :=
    ne_of_hash (by simp)
  refine resolveInclude_scope hself hbase (splitReference_key hs) ?_
  cases hscope : scope.toList with
  | nil => exact absurd (Str.ext hscope) hne
  | cons c rest =>
    rw [hscope] at hs
    simp only [Str.toList_append, hscope, List.cons_append, List.head?_cons, ne_eq, Option.some.injEq]
    rintro rfl
    exact hs List.mem_cons_self

theorem Resolves.target (h : Resolves l g reference b) : resolveInclude l g reference = .rules b.1 b.2 := by
  cases h with
  | self => rfl
  | base hbase => rw [resolveInclude_base, hbase]
  | key hrule => rw [resolveInclude_key, repositoryTarget_eq.mpr ⟨rfl, _, hrule, rfl⟩]
  | scope hs hself hbase hother => rw [resolveInclude_alone hs hself hbase, hother]
  | @scopeAlone scope other hs hne hother =>
    have h : resolveInclude l g (scope ++ "#" ++ "") = _ := resolveInclude_scopeKey hs hne
    rw [Str.append_empty, hother] at h
    exact h
  | scopeKey hs hne hkey hother hrule =>
    rw [resolveInclude_scopeKey hs hne, hother]
    dsimp only
    rw [if_neg (by simpa using hkey), repositoryTarget_eq.mpr ⟨rfl, _, hrule, rfl⟩]

theorem Resolves.of_target (h : resolveInclude l g reference = .rules b.1 b.2) :
    Resolves l g reference b := by
  obtain ⟨other, rules⟩ := b
  dsimp only at h
  by_cases hself : reference = "$self"
  · subst hself
    cases h
    exact .self
  by_cases hbase : reference = "$base"
  · subst hbase
    rw [resolveInclude_base] at h
    cases hb : l.base? with
    | none => rw [hb] at h; cases h
    | some base => rw [hb] at h; cases h; exact .base hb
  rcases reference_cases reference with hs | ⟨scope, key, hs, rfl⟩
  · rw [resolveInclude_alone hs hself hbase] at h
    cases ho : l.find? reference with
    | none => rw [ho] at h; cases h
    | some other => rw [ho] at h; cases h; exact .scope hs hself hbase ho
  by_cases hne : scope = ""
  · subst hne
    rw [Str.empty_append, resolveInclude_key] at h
    obtain ⟨rfl, rule, hrule, rfl⟩ := repositoryTarget_eq.mp h
    rw [Str.empty_append]
    exact .key hrule
  rw [resolveInclude_scopeKey hs hne] at h
  cases ho : l.find? scope with
  | none => rw [ho] at h; cases h
  | some found =>
    rw [ho] at h
    dsimp only at h
    by_cases hkey : key = ""
    · subst hkey
      cases h
      rw [Str.append_empty]
      exact .scopeAlone hs hne ho
    · rw [if_neg (by simpa using hkey)] at h
      obtain ⟨rfl, rule, hrule, rfl⟩ := repositoryTarget_eq.mp h
      exact .scopeKey hs hne hkey ho hrule

/-- A reference is the base's where there is none exactly if the resolution stops. -/
theorem resolveInclude_noBase_iff :
    resolveInclude l g reference = .noBase ↔ reference = "$base" ∧ l.base? = none := by
  constructor
  · intro h
    refine ⟨?_, resolveInclude_noBase h⟩
    unfold resolveInclude repositoryTarget at h
    grind
  · rintro ⟨rfl, hb⟩
    rw [resolveInclude_base, hb]

/-! ### Reached rules -/

/-- The rules that are reached from the patterns of a grammar, with the grammars in which they are written:
the patterns, and the rules of the lists that reached rules stand for. -/
inductive Reached (l : Library) (g : Grammar) : Grammar → Rule → Prop
  | pattern {r : Rule} (mem : r ∈ g.patterns) : Reached l g g r
  | included {h : Grammar} {r s : Rule} {reference : Str} {b : PatternList} (reached : Reached l g h r)
      (refers : r.include = some reference) (resolves : Resolves l h reference b) (mem : s ∈ b.2) :
      Reached l g b.1 s
  | grouped {h : Grammar} {r s : Rule} (reached : Reached l g h r) (alone : r.include = none)
      (noMatch : r.matchPattern = none) (noBegin : r.beginPattern = none) (mem : s ∈ r.patterns) :
      Reached l g h s

theorem next?_iff : next? l h r = some b ↔
    (∃ reference, r.include = some reference ∧ Resolves l h reference b) ∨
      r.include = none ∧ r.matchPattern = none ∧ r.beginPattern = none ∧ r.patterns ≠ [] ∧
        b = (h, r.patterns) := by
  unfold next?
  cases hinclude : r.include with
  | some reference =>
    have htarget : Resolves l h reference b ↔ resolveInclude l h reference = .rules b.1 b.2 :=
      ⟨Resolves.target, Resolves.of_target⟩
    simp only [Option.some.injEq, exists_eq_left', htarget]
    cases resolveInclude l h reference <;> simp [Prod.ext_iff]
  | none =>
    cases r.matchPattern <;> cases r.beginPattern <;> simp [eq_comm (a := b)]

/-- The reached rules are those of the lists that the patterns lead to. -/
theorem reached_iff : Reached l g h r ↔
    ∃ rules, Relation.ReflTransGen (Precedes l) (g, g.patterns) (h, rules) ∧ r ∈ rules := by
  constructor
  · intro hreached
    induction hreached with
    | pattern mem => exact ⟨_, .refl, mem⟩
    | included reached refers resolves mem ih =>
      obtain ⟨rules, hlead, hr⟩ := ih
      exact ⟨_, hlead.tail ⟨_, hr, next?_iff.mpr (.inl ⟨_, refers, resolves⟩)⟩, mem⟩
    | grouped reached alone noMatch noBegin mem ih =>
      obtain ⟨rules, hlead, hr⟩ := ih
      have hne := List.ne_nil_of_mem mem
      exact ⟨_, hlead.tail ⟨_, hr, next?_iff.mpr (.inr ⟨alone, noMatch, noBegin, hne, rfl⟩)⟩, mem⟩
  · rintro ⟨rules, hlead, hr⟩
    generalize hb : (h, rules) = b at hlead
    induction hlead generalizing h rules r with
    | refl =>
      cases hb
      exact .pattern hr
    | tail _ hprecedes ih =>
      subst hb
      obtain ⟨s, hs, hnext⟩ := hprecedes
      have hreached := ih _ hs rfl
      rcases next?_iff.mp hnext with ⟨reference, hrefers, hresolves⟩ | ⟨hinclude, hmatch, hbegin, -, hb⟩
      · exact hreached.included hrefers hresolves hr
      · cases hb
        exact hreached.grouped hinclude hmatch hbegin hr

end Highlighter.Grammar

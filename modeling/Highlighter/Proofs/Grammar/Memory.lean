import Highlighter.Proofs.Grammar.Outcome
import Highlighter.Proofs.Grammar.RuleIds

/-! What a compiler keeps. Lists that were flattened, grammars of rules that were met and rules that were
made ready are never forgotten or changed, and only rules of the library get into them. -/

namespace Highlighter.Grammar

/-- The rules that data refers to. -/
class Mentions (α : Type) where
  mentions : α → Rule → Prop

export Mentions (mentions)

instance : Mentions Candidate := ⟨fun x r => x.rule = r⟩
instance {α : Type} [Mentions α] : Mentions (List α) := ⟨fun l r => ∃ a ∈ l, mentions a r⟩
instance : Mentions Unit := ⟨fun _ _ => False⟩

theorem mentions_cons {α : Type} [Mentions α] {a : α} {l : List α} {r : Rule} :
    mentions (a :: l) r ↔ mentions a r ∨ mentions l r := by
  simp [mentions]

theorem mentions_flatten {l : List (List Candidate)} {r : Rule} :
    mentions l.flatten r ↔ mentions l r := by
  simp only [mentions, List.mem_flatten]
  constructor
  · rintro ⟨x, ⟨part, hpart, hx⟩, hr⟩
    exact ⟨part, hpart, x, hx, hr⟩
  · rintro ⟨part, hpart, x, hx, hr⟩
    exact ⟨x, ⟨part, hpart, hx⟩, hr⟩

namespace Compiler

/-- The rule is one of the library's, and it was met in its grammar. -/
def Met (c : Compiler) (r : Rule) : Prop :=
  ∃ g, c.library.Has g r ∧ c.homes.lookup r.id = some g.number

/-- Nothing that the first keeps is lost or different in the second. -/
structure Grows (c d : Compiler) : Prop where
  library_eq : d.library = c.library
  lists : ∀ key cs, c.lists.lookup key = some cs → d.lists.lookup key = some cs
  homes : ∀ id n, c.homes.lookup id = some n → d.homes.lookup id = some n
  compiled : ∀ id r, c.compiled.lookup id = some r → d.compiled.lookup id = some r

theorem Grows.refl (c : Compiler) : c.Grows c :=
  ⟨rfl, fun _ _ h => h, fun _ _ h => h, fun _ _ h => h⟩

theorem Grows.trans {c d e : Compiler} (h₁ : c.Grows d) (h₂ : d.Grows e) : c.Grows e :=
  ⟨h₂.library_eq.trans h₁.library_eq, fun key cs h => h₂.lists key cs (h₁.lists key cs h),
    fun id n h => h₂.homes id n (h₁.homes id n h),
    fun id r h => h₂.compiled id r (h₁.compiled id r h)⟩

theorem Met.grows {c d : Compiler} {r : Rule} (h : c.Met r) (hg : c.Grows d) : d.Met r := by
  obtain ⟨g, hr, hn⟩ := h
  exact ⟨g, hg.library_eq ▸ hr, hg.homes _ _ hn⟩

/-- Only rules that were met are in the lists, and they were met where they are written. -/
structure Listed (c : Compiler) : Prop where
  wellFormed : c.library.WellFormed
  homes : ∀ id n, c.homes.lookup id = some n → n = id.grammar
  lists : ∀ key cs, c.lists.lookup key = some cs → ∀ r, mentions cs r → c.Met r

end Compiler

/-- What flattening leads to: it only adds lists and rules that were met, and answers with such rules. It
fails only where the base is asked for and does not exist. -/
structure Gathered {α : Type} [Mentions α] (c : Compiler) (result : Except Failure α × Compiler) :
    Prop where
  listed : result.2.Listed
  grows : c.Grows result.2
  compiled_eq : result.2.compiled = c.compiled
  met : ∀ a, result.1 = .ok a → ∀ r, mentions a r → result.2.Met r
  total : c.library.base? ≠ none → ∃ a, result.1 = .ok a

variable {α β : Type} [Mentions α] [Mentions β] {c d : Compiler} {g : Grammar}

theorem Gathered.bind {x : Compile α} {f : α → Compile β} (hx : Gathered c (outcome x c))
    (hf : ∀ a d, d.Listed → c.Grows d → (∀ r, mentions a r → d.Met r) →
      Gathered d (outcome (f a) d)) : Gathered c (outcome (x >>= f) c) := by
  rw [outcome_bind]
  rcases hr : outcome x c with ⟨e | a, d⟩ <;> rw [hr] at hx
  · refine ⟨hx.listed, hx.grows, hx.compiled_eq, by rintro a ⟨⟩, fun hb => ?_⟩
    obtain ⟨a, ⟨⟩⟩ := hx.total hb
  · have h := hf a d hx.listed hx.grows (hx.met a rfl)
    exact ⟨h.listed, hx.grows.trans h.grows, h.compiled_eq.trans hx.compiled_eq, h.met,
      fun hb => h.total (hx.grows.library_eq ▸ hb)⟩

theorem Gathered.pure {a : α} (hc : c.Listed) (ha : ∀ r, mentions a r → c.Met r) :
    Gathered c (outcome (Pure.pure a) c) := by
  refine ⟨hc, .refl c, rfl, ?_, fun _ => ⟨a, rfl⟩⟩
  rintro _ ⟨⟩
  exact ha

theorem Gathered.throw {e : Failure} (hc : c.Listed) (hb : c.library.base? = none) :
    Gathered (α := α) c (outcome (MonadExcept.throw e) c) :=
  ⟨hc, .refl c, rfl, by rintro a ⟨⟩, fun hne => absurd hb hne⟩

/-- Setting the grammar of one of its rules. -/
theorem setHome_gathered {r : Rule} (hc : c.Listed) (hr : c.library.Has g r) :
    Gathered c (outcome (setHome r g) c) ∧ (outcome (setHome r g) c).2.Met r := by
  have hgrammar := hr.grammar_eq hc.wellFormed
  have hgrows : c.Grows { c with homes := (r.id, g.number) :: c.homes } := by
    refine ⟨rfl, fun _ _ h => h, fun id n h => ?_, fun _ _ h => h⟩
    rw [List.lookup_cons]
    split
    · rename_i he
      obtain rfl : id = r.id := by simpa using he
      rw [hc.homes _ _ h, hgrammar]
    · exact h
  refine ⟨⟨⟨hc.wellFormed, fun id n h => ?_, fun key cs h s hs => ?_⟩, hgrows, rfl, ?_,
    fun _ => ⟨(), rfl⟩⟩, g, hr, ?_⟩
  · change ((r.id, g.number) :: c.homes).lookup id = some n at h
    rw [List.lookup_cons] at h
    split at h
    · rename_i he
      obtain rfl : id = r.id := by simpa using he
      cases h
      exact hgrammar.symm
    · exact hc.homes id n h
  · exact (hc.lists key cs h s hs).grows hgrows
  · rintro _ - _ ⟨⟩
  · exact List.lookup_cons_self

theorem noteMissing_gathered {what : Str} (hc : c.Listed) :
    Gathered c (outcome (noteMissing what) c) := by
  unfold noteMissing
  rw [outcome_modify]
  split
  · exact .pure hc (by rintro _ ⟨⟩)
  · have hgrows : c.Grows { c with missing := c.missing ++ [what] } :=
      ⟨rfl, fun _ _ h => h, fun _ _ h => h, fun _ _ h => h⟩
    refine ⟨⟨hc.wellFormed, hc.homes, fun key cs h r hr => ?_⟩, hgrows, rfl, by rintro _ - _ ⟨⟩,
      fun _ => ⟨(), rfl⟩⟩
    exact (hc.lists key cs h r hr).grows hgrows

/-- An include leads to a pattern list of the library. -/
theorem resolveInclude_lists {l : Library} {reference : Str} {other : Grammar} {rules : List Rule}
    (hg : ∃ scope, (scope, g) ∈ l.grammars)
    (h : resolveInclude l g reference = .rules other rules) : l.Lists (other, rules) := by
  have hrepository {g : Grammar} {key : Str} (hg : ∃ scope, (scope, g) ∈ l.grammars)
      (h : repositoryTarget g key = .rules other rules) : l.Lists (other, rules) := by
    unfold repositoryTarget at h
    split at h
    · rename_i rule hrule
      cases h
      obtain ⟨before, after, he, -⟩ := List.lookup_eq_some_iff.mp hrule
      refine .entry ⟨hg, rule, List.mem_append_right _ ?_, .refl rule⟩
      rw [he]
      exact List.mem_map.mpr ⟨(key, rule), List.mem_append_right before List.mem_cons_self, rfl⟩
    · cases h
  unfold resolveInclude at h
  split at h
  · cases h
    obtain ⟨_, hg⟩ := hg
    exact .grammar hg
  · split at h
    · split at h
      · rename_i base hbase
        cases h
        obtain ⟨main, -, hbase⟩ := Option.bind_eq_some_iff.mp hbase
        exact .grammar (Library.find?_mem hbase)
      · cases h
    · split at h
      · exact hrepository hg h
      · dsimp only at h
        split at h
        · cases h
        · rename_i other' hother
          split at h
          · cases h
            exact .grammar (Library.find?_mem hother)
          · exact hrepository ⟨_, Library.find?_mem hother⟩ h

theorem resolveInclude_noBase {l : Library} {reference : Str}
    (h : resolveInclude l g reference = .noBase) : l.base? = none := by
  unfold resolveInclude repositoryTarget at h
  grind

/-- Flattening lists of rules of the library, as a parameter. -/
def Gathers (lists : Grammar → List Rule → Compile (List Candidate)) : Prop :=
  ∀ g rules c, c.Listed → (∀ r ∈ rules, c.library.Has g r) → Gathered c (outcome (lists g rules) c)

theorem contribution_gathered {lists : Grammar → List Rule → Compile (List Candidate)}
    (hl : Gathers lists) {rule : Rule} (hc : c.Listed) (hr : c.library.Has g rule) :
    Gathered c (outcome (contribution lists g rule) c) := by
  have hstarts {pattern : Str} : Gathered c
      (outcome (do setHome rule g; return [⟨pattern, rule⟩] : Compile (List Candidate)) c) := by
    obtain ⟨hset, hmet⟩ := setHome_gathered hc hr
    refine ⟨hset.listed, hset.grows, rfl, ?_, fun _ => ⟨_, rfl⟩⟩
    rintro _ ⟨⟩ s ⟨x, hx, rfl⟩
    rw [List.mem_singleton.mp hx]
    exact hmet
  unfold contribution
  split
  · rw [outcome_bind_ok outcome_get]
    split
    · rename_i other rules hresolve
      exact hl other rules c hc (resolveInclude_lists hr.1 hresolve).has
    · exact (noteMissing_gathered hc).bind fun _ d hd _ _ => .pure hd (by rintro r ⟨_, ⟨⟩, _⟩)
    · rename_i hresolve
      exact .throw hc (resolveInclude_noBase hresolve)
  · split
    · exact hstarts
    · exact hstarts
    · split
      · exact .pure hc (by rintro r ⟨_, ⟨⟩, _⟩)
      · exact hl g rule.patterns c hc fun s hs => hr.child (List.mem_append_left _ hs)

theorem contributions_gathered {lists : Grammar → List Rule → Compile (List Candidate)}
    (hl : Gathers lists) {rules : List Rule} (hc : c.Listed) (hr : ∀ r ∈ rules, c.library.Has g r) :
    Gathered c (outcome (rules.mapM (contribution lists g)) c) := by
  induction rules generalizing c with
  | nil => exact .pure hc (by rintro r ⟨_, ⟨⟩, _⟩)
  | cons rule rules ih =>
    rw [List.mapM_cons]
    have hfirst := contribution_gathered hl hc (hr rule List.mem_cons_self)
    refine hfirst.bind fun part d hd hg hpart => ?_
    have hrest := ih hd fun s hs => hg.library_eq ▸ hr s (List.mem_cons_of_mem rule hs)
    refine hrest.bind fun parts e he hg' hparts => .pure he fun s hs => ?_
    rcases mentions_cons.mp hs with hs | hs
    · exact (hpart s hs).grows hg'
    · exact hparts s hs

theorem outcome_storeList {key : ListKey} {candidates : List Candidate} :
    outcome (storeList key candidates) c =
      (.ok (), { c with lists := (key, candidates) :: c.lists }) := rfl

theorem flatten_known {fuel : Nat} {rules : List Rule} {candidates : List Candidate}
    (h : c.lists.lookup (listKey g rules) = some candidates) :
    outcome (flatten (fuel + 1) g rules) c = (.ok candidates, c) := by
  rw [flatten, outcome_bind_ok outcome_get]
  dsimp only
  rw [h, outcome_pure]

theorem flatten_new {fuel : Nat} {rules : List Rule} (h : c.lists.lookup (listKey g rules) = none) :
    outcome (flatten (fuel + 1) g rules) c =
      match outcome (rules.mapM (contribution (flatten fuel) g))
        { c with lists := (listKey g rules, []) :: c.lists } with
      | (.ok parts, d) =>
        (.ok parts.flatten, { d with lists := (listKey g rules, parts.flatten) :: d.lists })
      | (.error e, d) => (.error e, d) := by
  rw [flatten, outcome_bind_ok outcome_get]
  dsimp only
  rw [h]
  dsimp only
  rw [outcome_bind_ok outcome_storeList, outcome_bind]
  rcases outcome (rules.mapM (contribution (flatten fuel) g))
    { c with lists := (listKey g rules, []) :: c.lists } with ⟨e | parts, d⟩ <;> rfl

/-- Another list under a key that was not there. -/
theorem Compiler.Grows.store {key : ListKey} (h : c.lists.lookup key = none)
    (hlibrary : d.library = c.library)
    (hlists : ∀ k cs, k ≠ key → c.lists.lookup k = some cs → d.lists.lookup k = some cs)
    (hhomes : ∀ id n, c.homes.lookup id = some n → d.homes.lookup id = some n)
    (hcompiled : d.compiled = c.compiled) : c.Grows d := by
  refine ⟨hlibrary, fun k cs hk => hlists k cs ?_ hk, hhomes, fun id r hr => hcompiled ▸ hr⟩
  rintro rfl
  rw [h] at hk
  cases hk

theorem lookup_other {key k : ListKey} {candidates : List Candidate}
    {lists : List (ListKey × List Candidate)} (h : k ≠ key) :
    ((key, candidates) :: lists).lookup k = lists.lookup k := by
  rw [List.lookup_cons]
  split
  · rename_i he
    exact absurd (by simpa using he) h
  · rfl

/-- A list of rules that were met can be stored. -/
theorem Compiler.Listed.store {key : ListKey} {candidates : List Candidate} (hd : d.Listed)
    (hm : ∀ r, mentions candidates r → d.Met r) :
    Compiler.Listed { d with lists := (key, candidates) :: d.lists } := by
  refine ⟨hd.wellFormed, hd.homes, fun k cs hk r hr => ?_⟩
  change ((key, candidates) :: d.lists).lookup k = some cs at hk
  by_cases he : k = key
  · subst he
    rw [List.lookup_cons_self] at hk
    cases hk
    exact hm r hr
  · rw [lookup_other he] at hk
    exact hd.lists k cs hk r hr

/-- Flattening keeps all that was there before. -/
theorem flatten_gathers (fuel : Nat) : Gathers (flatten fuel) := by
  induction fuel with
  | zero => exact fun g rules c hc _ => .pure hc (by rintro r ⟨_, ⟨⟩, _⟩)
  | succ fuel ih =>
    intro g rules c hc hr
    cases hk : c.lists.lookup (listKey g rules) with
    | some candidates =>
      rw [flatten_known hk]
      exact .pure hc (hc.lists _ _ hk)
    | none =>
      rw [flatten_new hk]
      have hfirst : Compiler.Listed { c with lists := (listKey g rules, []) :: c.lists } :=
        hc.store (by rintro r ⟨_, ⟨⟩, _⟩)
      have h := contributions_gathered ih hfirst hr
      split
      · rename_i parts d hparts
        rw [hparts] at h
        have hgrows : c.Grows
            { d with lists := (listKey g rules, parts.flatten) :: d.lists } := by
          refine .store hk h.grows.library_eq (fun k cs hne hk => ?_) h.grows.homes h.compiled_eq
          rw [lookup_other hne]
          exact h.grows.lists k cs (by rwa [lookup_other hne])
        refine ⟨h.listed.store fun r hm => ?_, hgrows, h.compiled_eq, ?_, fun _ => ⟨_, rfl⟩⟩
        · exact h.met parts rfl r (mentions_flatten.mp hm)
        · rintro _ ⟨⟩ r hm
          exact h.met parts rfl r (mentions_flatten.mp hm)
      · rename_i e d hparts
        rw [hparts] at h
        have hgrows : c.Grows d := by
          refine .store hk h.grows.library_eq (fun k cs hne hk => ?_) h.grows.homes h.compiled_eq
          exact h.grows.lists k cs (by rwa [lookup_other hne])
        refine ⟨h.listed, hgrows, h.compiled_eq, by rintro _ ⟨⟩, fun hb => ?_⟩
        obtain ⟨_, ⟨⟩⟩ := h.total hb

theorem flatten_lookup {fuel : Nat} {rules : List Rule} {candidates : List Candidate}
    (h : Returns (flatten (fuel + 1) g rules) c candidates d) :
    d.lists.lookup (listKey g rules) = some candidates := by
  cases hk : c.lists.lookup (listKey g rules) with
  | some found =>
    rw [Returns, flatten_known hk] at h
    cases h
    exact hk
  | none =>
    rw [Returns, flatten_new hk] at h
    split at h
    · cases h
      exact List.lookup_cons_self
    · cases h

theorem candidatesOf_gathered {rules : List Rule} (hc : c.Listed)
    (hr : ∀ r ∈ rules, c.library.Has g r) : Gathered c (outcome (candidatesOf g rules) c) := by
  unfold candidatesOf
  rw [outcome_bind_ok outcome_get]
  exact flatten_gathers _ g rules c hc hr

theorem candidatesOf_lookup {rules : List Rule} {candidates : List Candidate}
    (h : Returns (candidatesOf g rules) c candidates d) :
    d.lists.lookup (listKey g rules) = some candidates := by
  obtain ⟨_, _, hget, rest⟩ := Returns.bind h
  obtain ⟨rfl, rfl⟩ : c = _ ∧ c = _ := by simpa [Returns] using hget
  exact flatten_lookup rest

end Highlighter.Grammar

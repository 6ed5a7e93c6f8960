import Highlighter.Proofs.Grammar.Includes

/-! Which rules a flattened list offers. A list that is asked for while it is being flattened is taken as
empty, so the lists that are flattened on the way are incomplete; but what a list lacks is in the answer of
the call that is still at it, and the first list of all is complete. -/

namespace Highlighter.Grammar

variable {l : Library} {g : Grammar} {r : Rule} {a b p : PatternList} {c d e : Compiler}
  {opened : List PatternList} {n : Nat} {cs ds : List Candidate} {key : ListKey}

/-! ### The depth of flattening -/

/-- One level of flattening, given how lists within the list are flattened. -/
def flattenLevel (lists : Grammar → List Rule → Compile (List Candidate)) (g : Grammar)
    (rules : List Rule) : Compile (List Candidate) := do
  let key := listKey g rules
  match (← get).lists.lookup key with
  | some candidates => return candidates
  | none =>
    storeList key []
    let parts ← rules.mapM (contribution lists g)
    let candidates := parts.flatten
    storeList key candidates
    return candidates

/-- So many levels of flattening, given how lists that lie deeper are flattened. -/
def flattenTo (deeper : Grammar → List Rule → Compile (List Candidate)) :
    Nat → Grammar → List Rule → Compile (List Candidate)
  | 0 => deeper
  | n + 1 => flattenLevel (flattenTo deeper n)

theorem flatten_succ : flatten (n + 1) = flattenLevel (flatten n) := rfl

/-- The list was flattened, or it is being flattened. -/
def Compiler.Visited (c : Compiler) (p : PatternList) : Prop := ∃ cs, c.lists.lookup p.key = some cs

theorem Compiler.Visited.grows (h : c.Visited p) (hd : c.Grows d) : d.Visited p := by
  obtain ⟨cs, hcs⟩ := h
  exact ⟨cs, hd.lists _ _ hcs⟩

theorem visited_store {c : Compiler} :
    Compiler.Visited { c with lists := (key, cs) :: c.lists } p ↔ p.key = key ∨ c.Visited p := by
  unfold Compiler.Visited
  dsimp only
  by_cases he : p.key = key
  · rw [he, List.lookup_cons_self]
    simp
  · rw [lookup_other he]
    simp [he]

/-- Lists are being flattened. -/
structure Underway (l : Library) (opened : List PatternList) (c : Compiler) : Prop where
  listed : c.Listed
  library_eq : c.library = l
  visited : ∀ p ∈ opened, c.Visited p

theorem Underway.gathered {α : Type} [Mentions α] {result : Except Failure α × Compiler}
    (hc : Underway l opened c) (h : Gathered c result) : Underway l opened result.2 :=
  ⟨h.listed, h.grows.library_eq.trans hc.library_eq, fun p hp => (hc.visited p hp).grows h.grows⟩

theorem Underway.not_mem (hc : Underway l opened c) (ha : c.lists.lookup a.key = none) : a ∉ opened := by
  intro hmem
  obtain ⟨cs, hcs⟩ := hc.visited a hmem
  rw [ha] at hcs
  cases hcs

theorem Underway.open (hc : Underway l opened c) :
    Underway l (a :: opened) { c with lists := (a.key, []) :: c.lists } := by
  refine ⟨hc.listed.store (by rintro r ⟨_, ⟨⟩, _⟩), hc.library_eq, fun p hp => ?_⟩
  rw [visited_store]
  rcases List.mem_cons.mp hp with rfl | hp
  · exact .inl rfl
  · exact .inr (hc.visited p hp)

theorem Underway.contribution (hc : Underway l opened c) (ha : l.Lists a) (hr : r ∈ a.2) :
    Gathered c (outcome (contribution (flatten n) a.1 r) c) :=
  contribution_gathered (flatten_gathers n) hc.listed (hc.library_eq ▸ ha.has r hr)

/-- The rule asks for the base, and there is none. -/
def Asks (l : Library) (r : Rule) : Prop := r.include = some ("$base" : Str) ∧ l.base? = none

/-- What a rule adds to a list: what the list that it stands for comes to, a failure, or what it offers by
itself. -/
theorem contribution_cases (c : Compiler) (g : Grammar) (r : Rule) :
    (∃ b, next? c.library g r = some b ∧
      ∀ lists, outcome (contribution lists g r) c = outcome (lists b.1 b.2) c) ∨
    (next? c.library g r = none ∧ Asks c.library r ∧
      ∀ lists, outcome (contribution lists g r) c = (.error .noBase, c)) ∨
    (next? c.library g r = none ∧ ¬ Asks c.library r ∧ ∃ d : Compiler, d.lists = c.lists ∧
      ∀ lists, outcome (contribution lists g r) c = (.ok (own r), d)) := by
  cases hnext : next? c.library g r with
  | some b => exact .inl ⟨b, rfl, fun lists => contribution_next hnext⟩
  | none =>
    right
    unfold next? at hnext
    unfold contribution own
    cases hinclude : r.include with
    | some reference =>
      rw [hinclude] at hnext
      have hasks : Asks c.library r ↔ resolveInclude c.library g reference = .noBase := by
        rw [resolveInclude_noBase_iff, Asks, hinclude, Option.some.injEq]
      rw [hasks]
      cases hresolve : resolveInclude c.library g reference with
      | rules other rules =>
        dsimp only at hnext
        rw [hresolve] at hnext
        cases hnext
      | missing what =>
        refine .inr ⟨rfl, nofun, (outcome (noteMissing what) c).2, ?_, fun lists => ?_⟩
        · rw [noteMissing, outcome_modify]
          split <;> rfl
        · dsimp only
          rw [outcome_bind_ok outcome_get, hresolve]
          rfl
      | noBase =>
        refine .inl ⟨rfl, rfl, fun lists => ?_⟩
        dsimp only
        rw [outcome_bind_ok outcome_get, hresolve]
        rfl
    | none =>
      have hasks : ¬ Asks c.library r := by
        rintro ⟨hbase, -⟩
        rw [hinclude] at hbase
        cases hbase
      refine .inr ⟨rfl, hasks, ?_⟩
      cases hmatch : r.matchPattern with
      | some pattern => exact ⟨(outcome (setHome r g) c).2, rfl, fun lists => rfl⟩
      | none =>
        cases hbegin : r.beginPattern with
        | some pattern => exact ⟨(outcome (setHome r g) c).2, rfl, fun lists => rfl⟩
        | none =>
          rw [hinclude, hmatch, hbegin] at hnext
          dsimp only at hnext ⊢
          split at hnext
          · rename_i hempty
            refine ⟨c, rfl, fun lists => ?_⟩
            rw [if_pos hempty, outcome_pure]
          · cases hnext

theorem contribution_congr {lists lists' : Grammar → List Rule → Compile (List Candidate)}
    (h : ∀ b, next? c.library g r = some b → outcome (lists b.1 b.2) c = outcome (lists' b.1 b.2) c) :
    outcome (contribution lists g r) c = outcome (contribution lists' g r) c := by
  rcases contribution_cases c g r with ⟨b, hb, hall⟩ | ⟨-, -, hall⟩ | ⟨-, -, d, -, hall⟩
  · rw [hall, hall, h b hb]
  · rw [hall, hall]
  · rw [hall, hall]

theorem outcome_mapM_congr {ε σ α β : Type} {P : σ → Prop} {f f' : β → ExceptT ε (StateM σ) α}
    {bs : List β} {s : σ} (hs : P s)
    (hf : ∀ b ∈ bs, ∀ s, P s → outcome (f b) s = outcome (f' b) s ∧ P (outcome (f b) s).2) :
    outcome (bs.mapM f) s = outcome (bs.mapM f') s := by
  induction bs generalizing s with
  | nil => rfl
  | cons b bs ih =>
    obtain ⟨hsame, hnext⟩ := hf b List.mem_cons_self s hs
    rw [List.mapM_cons, List.mapM_cons, outcome_bind, outcome_bind, ← hsame]
    rcases hfirst : outcome (f b) s with ⟨e | a, s₁⟩
    · rfl
    · rw [hfirst] at hnext
      have hrest := ih hnext fun b' hb' => hf b' (List.mem_cons_of_mem b hb')
      dsimp only
      rw [outcome_bind, outcome_bind, hrest]

/-- The fuel is never used up: each list on the way is another one, so nothing lies deeper than there are
lists, and it does not matter how that would be flattened. -/
theorem flattenTo_eq {deeper : Grammar → List Rule → Compile (List Candidate)} (path : Path l opened a)
    (hfuel : l.patternLists.length < n + opened.length) (hc : Underway l opened c) :
    outcome (flattenTo deeper n a.1 a.2) c = outcome (flatten n a.1 a.2) c := by
  -- by the fuel: what was opened differs pairwise, so together with the fuel it exceeds the number of lists
  induction n generalizing opened a c with
  | zero =>
    have := path.length_le
    omega
  | succ n ih =>
    rw [flattenTo, flatten_succ]
    unfold flattenLevel
    rw [outcome_bind_ok outcome_get, outcome_bind_ok outcome_get]
    dsimp only
    cases hkept : c.lists.lookup (listKey a.1 a.2) with
    | some candidates => rfl
    | none =>
      have hnew : a ∉ opened := hc.not_mem hkept
      have hparts : ∀ r ∈ a.2, ∀ c, Underway l (a :: opened) c →
          outcome (contribution (flatten n) a.1 r) c = outcome (contribution (flattenTo deeper n) a.1 r) c ∧
            Underway l (a :: opened) (outcome (contribution (flatten n) a.1 r) c).2 := by
        intro r hr c hc
        refine ⟨contribution_congr fun b hb => ?_, hc.gathered (hc.contribution path.lists hr)⟩
        rw [hc.library_eq] at hb
        have hpath : Path l (a :: opened) b := .next path hnew ⟨r, hr, hb⟩
        exact (ih hpath (by rw [List.length_cons]; omega) hc).symm
      have hsame := outcome_mapM_congr hc.open hparts
      dsimp only
      rw [outcome_bind_ok outcome_storeList, outcome_bind_ok outcome_storeList, outcome_bind, outcome_bind]
      unfold PatternList.key at hsame
      rw [hsame]

/-! ### What is offered -/

theorem mem_own {x : Candidate} :
    x ∈ own r ↔ r.include = none ∧ r.matchPattern.or r.beginPattern = some x.pattern ∧ x.rule = r := by
  obtain ⟨pattern, rule⟩ := x
  unfold own
  cases r.include <;> cases r.matchPattern <;> cases r.beginPattern <;> simp [eq_comm]

theorem own_ne_nil :
    own r ≠ [] ↔ r.include = none ∧ (r.matchPattern.isSome ∨ r.beginPattern.isSome) := by
  unfold own
  cases r.include <;> cases r.matchPattern <;> cases r.beginPattern <;> simp

/-- The rule starts by a pattern of its own, in a list that the list leads to. -/
def Offers (l : Library) (a : PatternList) (r : Rule) : Prop :=
  own r ≠ [] ∧ ∃ b, Relation.ReflTransGen (Precedes l) a b ∧ r ∈ b.2

/-- The list leads to a rule that asks for the base, and there is none. -/
def Stops (l : Library) (a : PatternList) : Prop :=
  ∃ b, Relation.ReflTransGen (Precedes l) a b ∧ ∃ r ∈ b.2, Asks l r

/-- What is kept for lists is offered by them. -/
def Sound (l : Library) (c : Compiler) : Prop :=
  ∀ b, l.Lists b → ∀ cs, c.lists.lookup b.key = some cs → ∀ x ∈ cs, Offers l b x.rule

theorem Offers.lead (h : Offers l b r) (hab : Precedes l a b) : Offers l a r := by
  obtain ⟨hown, p, hbp, hr⟩ := h
  exact ⟨hown, p, .head hab hbp, hr⟩

theorem Stops.lead (h : Stops l b) (hab : Precedes l a b) : Stops l a := by
  obtain ⟨p, hbp, hr⟩ := h
  exact ⟨p, .head hab hbp, hr⟩

theorem own_offers (hr : r ∈ a.2) {x : Candidate} (hx : x ∈ own r) : Offers l a x.rule := by
  obtain ⟨-, -, rfl⟩ := mem_own.mp hx
  exact ⟨List.ne_nil_of_mem hx, a, .refl, hr⟩

/-- What a list offers can be kept for it. -/
theorem Sound.store (h : Sound l c) (hw : l.WellFormed) (ha : l.Lists a)
    (hcs : ∀ x ∈ cs, Offers l a x.rule) : Sound l { c with lists := (a.key, cs) :: c.lists } := by
  intro b hb ds hds x hx
  change ((a.key, cs) :: c.lists).lookup b.key = some ds at hds
  by_cases he : b.key = a.key
  · obtain rfl := hb.key_inj hw ha he
    rw [List.lookup_cons_self] at hds
    cases hds
    exact hcs x hx
  · rw [lookup_other he] at hds
    exact h b hb ds hds x hx

/-! ### What is gained -/

/-- What a list leads to was flattened or is being flattened, and what it offers by itself is there. -/
structure Followed (l : Library) (cs : List Candidate) (d : Compiler) (b : PatternList) : Prop where
  next : ∀ p, Precedes l b p → d.Visited p
  own : ∀ r ∈ b.2, ∀ x ∈ own r, x ∈ cs
  based : ∀ r ∈ b.2, ¬ Asks l r

theorem Followed.mono (h : Followed l cs c b) (hcs : ∀ x ∈ cs, x ∈ ds)
    (hd : ∀ p, c.Visited p → d.Visited p) : Followed l ds d b :=
  ⟨fun p hp => hd p (h.next p hp), fun r hr x hx => hcs x (h.own r hr x hx), h.based⟩

theorem Followed.cons {rules : List Rule} (h : Followed l cs d (g, [r])) (hs : Followed l cs d (g, rules)) :
    Followed l cs d (g, r :: rules) := by
  refine ⟨?_, ?_, ?_⟩
  · rintro p ⟨s, hs', hnext⟩
    rcases List.mem_cons.mp hs' with rfl | hs'
    · exact h.next p ⟨s, List.mem_singleton_self s, hnext⟩
    · exact hs.next p ⟨s, hs', hnext⟩
  · exact List.forall_mem_cons.mpr ⟨h.own r (List.mem_singleton_self r), hs.own⟩
  · exact List.forall_mem_cons.mpr ⟨h.based r (List.mem_singleton_self r), hs.based⟩

/-- Candidates were gained for a list: it offers them, and all that was met on the way is followed in them.
A list that was met before is left to those who met it. -/
structure Gains (l : Library) (a : PatternList) (c : Compiler) (cs : List Candidate) (d : Compiler) :
    Prop where
  grows : c.Grows d
  sound : Sound l d
  offers : ∀ x ∈ cs, Offers l a x.rule
  followed : ∀ b, l.Lists b → d.Visited b → c.Visited b ∨ Followed l cs d b

theorem Gains.lead (h : Gains l b c cs d) (hab : Precedes l a b) : Gains l a c cs d :=
  ⟨h.grows, h.sound, fun x hx => (h.offers x hx).lead hab, h.followed⟩

theorem Gains.append (h : Gains l a c cs d) (h' : Gains l a d ds e) : Gains l a c (cs ++ ds) e := by
  refine ⟨h.grows.trans h'.grows, h'.sound, ?_, fun b hb hv => ?_⟩
  · intro x hx
    rcases List.mem_append.mp hx with hx | hx
    · exact h.offers x hx
    · exact h'.offers x hx
  · rcases h'.followed b hb hv with hv | hf
    · refine (h.followed b hb hv).imp id fun hf => ?_
      exact hf.mono (fun x => List.mem_append_left ds) fun p hp => hp.grows h'.grows
    · exact .inr (hf.mono (fun x => List.mem_append_right cs) fun p => id)

/-- A step gives an answer with a property, or it misses the base, and then something holds. -/
def Comes {α : Type} (Q : α → Compiler → Prop) (P : Prop) : Except Failure α × Compiler → Prop
  | (.ok a, d) => Q a d
  | (.error f, _) => f = .noBase ∧ P

theorem Comes.bind {α β : Type} {x : Compile α} {f : α → Compile β} {Q : α → Compiler → Prop}
    {Q' : β → Compiler → Prop} {P : Prop} (hx : Comes Q P (outcome x c))
    (hf : ∀ a d, outcome x c = (.ok a, d) → Q a d → Comes Q' P (outcome (f a) d)) :
    Comes Q' P (outcome (x >>= f) c) := by
  rw [outcome_bind]
  rcases hr : outcome x c with ⟨e | a, d⟩ <;> rw [hr] at hx
  · exact hx
  · exact hf a d hr hx

theorem Comes.mono {α : Type} {result : Except Failure α × Compiler} {Q Q' : α → Compiler → Prop}
    {P P' : Prop} (h : Comes Q P result) (hq : ∀ a d, Q a d → Q' a d) (hp : P → P') : Comes Q' P' result := by
  rcases result with ⟨e | a, d⟩
  · exact ⟨h.1, hp h.2⟩
  · exact hq a d h

/-- Flattening a list gains what it offers, and the list was met then; or the list stops it. -/
abbrev Explores (l : Library) (a : PatternList) (c : Compiler)
    (result : Except Failure (List Candidate) × Compiler) : Prop :=
  Comes (fun cs d => Gains l a c cs d ∧ d.Visited a) (Stops l a) result

theorem own_of_next (h : next? l g r = some b) : own r = [] ∧ ¬ Asks l r := by
  rcases next?_iff.mp h with ⟨reference, hrefers, hresolves⟩ | ⟨halone, hmatch, hbegin, -, -⟩
  · refine ⟨by rw [own, hrefers], ?_⟩
    rintro ⟨hbase, hnone⟩
    rw [hrefers, Option.some.injEq] at hbase
    have hstops := resolveInclude_noBase_iff (g := g).mpr ⟨hbase, hnone⟩
    rw [hresolves.target] at hstops
    cases hstops
  · refine ⟨by rw [own, halone, hmatch, hbegin], ?_⟩
    rintro ⟨hbase, -⟩
    rw [halone] at hbase
    cases hbase

theorem contribution_gains (ha : l.Lists a) (hr : r ∈ a.2) (hc : Underway l opened c) (hs : Sound l c)
    (hlists : ∀ b, Precedes l a b → Explores l b c (outcome (flatten n b.1 b.2) c)) :
    Comes (fun cs d => Gains l a c cs d ∧ Followed l cs d (a.1, [r])) (Stops l a)
      (outcome (contribution (flatten n) a.1 r) c) := by
  have hgathered := hc.contribution (n := n) ha hr
  have hcases := contribution_cases c a.1 r
  rw [hc.library_eq] at hcases
  rcases hcases with ⟨b, hnext, hall⟩ | ⟨-, hasks, hall⟩ | ⟨hnext, hbased, d, hkept, hall⟩ <;>
    rw [hall] at hgathered ⊢
  · have hab : Precedes l a b := ⟨r, hr, hnext⟩
    refine (hlists b hab).mono (fun cs d h => ⟨h.1.lead hab, ?_⟩) fun h => h.lead hab
    obtain ⟨hown, hbased⟩ := own_of_next hnext
    refine ⟨?_, ?_, ?_⟩
    · rintro p ⟨s, hs, hp⟩
      obtain rfl := List.mem_singleton.mp hs
      obtain rfl : b = p := Option.some.inj (hnext.symm.trans hp)
      exact h.2
    · rw [List.forall_mem_singleton, hown]
      exact nofun
    · rw [List.forall_mem_singleton]
      exact hbased
  · exact ⟨rfl, a, .refl, r, hr, hasks⟩
  · have hvisited (p : PatternList) (hp : d.Visited p) : c.Visited p := by
      rwa [Compiler.Visited, hkept] at hp
    refine ⟨⟨hgathered.grows, ?_, fun x => own_offers hr, fun b _ hb => .inl (hvisited b hb)⟩, ?_, ?_, ?_⟩
    · intro b hb ds hds
      exact hs b hb ds (hkept ▸ hds)
    · rintro p ⟨s, hs, hp⟩
      obtain rfl := List.mem_singleton.mp hs
      rw [hnext] at hp
      cases hp
    · rw [List.forall_mem_singleton]
      exact fun x => id
    · rw [List.forall_mem_singleton]
      exact hbased

theorem contributions_gain (ha : l.Lists a) {rules : List Rule} (hr : ∀ r ∈ rules, r ∈ a.2)
    (hlists : ∀ b, Precedes l a b → ∀ c, Underway l opened c → Sound l c →
      Explores l b c (outcome (flatten n b.1 b.2) c))
    (hc : Underway l opened c) (hs : Sound l c) :
    Comes (fun parts d => Gains l a c parts.flatten d ∧ Followed l parts.flatten d (a.1, rules)) (Stops l a)
      (outcome (rules.mapM (contribution (flatten n) a.1)) c) := by
  induction rules generalizing c with
  | nil =>
    refine ⟨⟨.refl c, hs, nofun, fun b _ hb => .inl hb⟩, ?_, nofun, nofun⟩
    rintro p ⟨s, ⟨⟩, _⟩
  | cons r rules ih =>
    obtain ⟨hfirst, hrest⟩ := List.forall_mem_cons.mp hr
    have hpart := contribution_gains ha hfirst hc hs fun b hb => hlists b hb c hc hs
    have hunderway := hc.gathered (hc.contribution (n := n) ha hfirst)
    rw [List.mapM_cons]
    refine hpart.bind fun part d hreturns hpart => ?_
    rw [hreturns] at hunderway
    refine (ih hrest hunderway hpart.1.sound).bind fun parts e _ hparts => ?_
    refine ⟨hpart.1.append hparts.1, .cons ?_ ?_⟩
    · exact hpart.2.mono (fun x => List.mem_append_left _) fun p hp => hp.grows hparts.1.grows
    · exact hparts.2.mono (fun x => List.mem_append_right _) fun p => id

/-- By the fuel, as for the depth: each list on the way is another one. -/
theorem flatten_gains (hw : l.WellFormed) (path : Path l opened a)
    (hfuel : l.patternLists.length < n + opened.length) (hc : Underway l opened c) (hs : Sound l c) :
    Explores l a c (outcome (flatten n a.1 a.2) c) := by
  induction n generalizing opened a c with
  | zero =>
    have := path.length_le
    omega
  | succ n ih =>
    have hgathered := flatten_gathers (n + 1) a.1 a.2 c hc.listed (hc.library_eq ▸ path.lists.has)
    cases hkept : c.lists.lookup a.key with
    | some cs =>
      -- nothing is met here; if the list is still being flattened, what it lacks is for that call to gain
      rw [flatten_known hkept]
      exact ⟨⟨.refl c, hs, hs a path.lists cs hkept, fun b _ hb => .inl hb⟩, cs, hkept⟩
    | none =>
      have hnew : a ∉ opened := hc.not_mem hkept
      have hlists (b : PatternList) (hb : Precedes l a b) (c : Compiler) (hc : Underway l (a :: opened) c)
          (hs : Sound l c) : Explores l b c (outcome (flatten n b.1 b.2) c) :=
        ih (.next path hnew hb) (by rw [List.length_cons]; omega) hc hs
      have hparts := contributions_gain path.lists (fun _ => id) hlists hc.open
        (hs.store hw path.lists nofun)
      unfold PatternList.key at hparts
      rw [flatten_new hkept] at hgathered ⊢
      rcases hresult : outcome (a.2.mapM (contribution (flatten n) a.1))
          { c with lists := (listKey a.1 a.2, []) :: c.lists } with ⟨f | parts, d⟩ <;>
        rw [hresult] at hparts hgathered
      · exact hparts
      · obtain ⟨hgains, hfollowed⟩ := hparts
        have hstored (p : PatternList) (hp : d.Visited p) :
            Compiler.Visited { d with lists := (a.key, parts.flatten) :: d.lists } p :=
          visited_store.mpr (.inr hp)
        have hall := hfollowed.mono (fun _ => id) hstored
        refine ⟨⟨hgathered.grows, hgains.sound.store hw path.lists hgains.offers, hgains.offers,
          fun b hb hv => ?_⟩, visited_store.mpr (.inl rfl)⟩
        by_cases he : b.key = a.key
        · obtain rfl := hb.key_inj hw path.lists he
          exact .inr hall
        · rcases visited_store.mp hv with hkey | hv
          · exact absurd hkey he
          · refine (hgains.followed b hb hv).imp (fun hv => ?_) fun hf => hf.mono (fun _ => id) hstored
            exact (visited_store.mp hv).resolve_left he

/-! ### The first list -/

/-- From a compiler that has flattened nothing, all that a list leads to is followed. -/
theorem Gains.all (h : Gains l a { library := l } cs d) (ha : l.Lists a) (hv : d.Visited a)
    (hab : Relation.ReflTransGen (Precedes l) a b) : Followed l cs d b := by
  have hfollowed {p : PatternList} (hp : l.Lists p) (hv : d.Visited p) : Followed l cs d p := by
    rcases h.followed p hp hv with ⟨cs, ⟨⟩⟩ | hf
    exact hf
  suffices hmet : l.Lists b ∧ d.Visited b from hfollowed hmet.1 hmet.2
  induction hab with
  | refl => exact ⟨ha, hv⟩
  | tail _ hprecedes ih =>
    obtain ⟨hp, hvisited⟩ := ih
    refine ⟨?_, (hfollowed hp hvisited).next _ hprecedes⟩
    obtain ⟨s, hs, hnext⟩ := hprecedes
    exact next?_lists (hp.has s hs) hnext

theorem Underway.fresh (hw : l.WellFormed) : Underway l [] { library := l } :=
  ⟨⟨hw, nofun, nofun⟩, rfl, nofun⟩

theorem candidatesOf_gains (hw : l.WellFormed) (ha : l.Lists a) :
    Explores l a { library := l } (outcome (candidatesOf a.1 a.2) { library := l }) := by
  rw [candidatesOf, outcome_bind_ok outcome_get]
  refine flatten_gains hw (.start ha) Library.patternLists_lt (.fresh hw) ?_
  rintro b - cs ⟨⟩

theorem flattenTo_candidatesOf {rules : List Rule} (hw : l.WellFormed) (ha : l.Lists (g, rules))
    (deeper : Grammar → List Rule → Compile (List Candidate)) :
    outcome (flattenTo deeper (Library.listBound l) g rules) { library := l } =
      outcome (candidatesOf g rules) { library := l } := by
  rw [candidatesOf, outcome_bind_ok outcome_get]
  have hfresh : Underway l [] { library := l } := .fresh hw
  exact flattenTo_eq (a := (g, rules)) (.start ha) Library.patternLists_lt hfresh

/-- What the list of a grammar's patterns offers are the rules that are reached from there. -/
theorem offers_iff : Offers l (g, g.patterns) r ↔ own r ≠ [] ∧ ∃ h, Reached l g h r := by
  refine and_congr_right fun _ => ?_
  simp only [reached_iff, Prod.exists]

theorem stops_iff : Stops l (g, g.patterns) ↔ ∃ h r, Reached l g h r ∧ Asks l r := by
  simp only [Stops, reached_iff, Prod.exists]
  constructor
  · rintro ⟨h, rules, hlead, r, hr, hasks⟩
    exact ⟨h, r, ⟨rules, hlead, hr⟩, hasks⟩
  · rintro ⟨h, r, ⟨rules, hlead, hr⟩, hasks⟩
    exact ⟨h, rules, hlead, r, hr, hasks⟩

/-- The candidates of a grammar's patterns are the rules that are reached from there, unless one of them asks
for the base where there is none. -/
theorem candidatesOf_reached (hw : l.WellFormed) (hg : l.Lists (g, g.patterns)) :
    Comes (fun cs _ => (¬ ∃ h r, Reached l g h r ∧ Asks l r) ∧
        ∀ r, (∃ x ∈ cs, x.rule = r) ↔ own r ≠ [] ∧ ∃ h, Reached l g h r)
      (∃ h r, Reached l g h r ∧ Asks l r) (outcome (candidatesOf g g.patterns) { library := l }) := by
  refine (candidatesOf_gains hw hg).mono ?_ stops_iff.mp
  rintro cs d ⟨hgains, hvisited⟩
  constructor
  · rw [← stops_iff]
    rintro ⟨b, hlead, r, hr, hasks⟩
    exact (hgains.all hg hvisited hlead).based r hr hasks
  · intro r
    rw [← offers_iff]
    constructor
    · rintro ⟨x, hx, rfl⟩
      exact hgains.offers x hx
    · rintro ⟨hown, b, hlead, hr⟩
      obtain ⟨x, hx⟩ := List.exists_mem_of_ne_nil _ hown
      exact ⟨x, (hgains.all hg hvisited hlead).own r hr x hx, (mem_own.mp hx).2.2⟩

end Highlighter.Grammar

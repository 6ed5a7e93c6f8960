import Highlighter.Proofs.Grammar.Memory

/-! What making a rule ready leads to. The outcome is determined by the rule and the flattened list of its
patterns alone, whether the rule was made ready before or not. -/

namespace Highlighter.Grammar

instance : Mentions (Nat × Rule) := ⟨fun c r => c.2 = r⟩
instance : Mentions Choice := ⟨fun choice r => mentions choice.candidates r⟩
instance : Mentions Form :=
  ⟨fun f r => (∃ choice, f.choice? = some choice ∧ mentions choice r) ∨ mentions f.captures r⟩
instance : Mentions Compiled := ⟨fun k r => mentions k.form r⟩

/-- A step that neither reads nor changes what is kept, and never goes too deep. -/
def Stateless {α : Type} (x : Compile α) : Prop :=
  ∃ result, result ≠ .error .tooDeep ∧ ∀ c, outcome x c = (result, c)

namespace Stateless

variable {α β : Type} {x : Compile α} {f : α → Compile β}

theorem pure {a : α} : Stateless (Pure.pure a) := ⟨.ok a, by rintro ⟨⟩, fun _ => rfl⟩

theorem throw {e : Failure} (he : e ≠ .tooDeep) : Stateless (MonadExcept.throw e : Compile α) :=
  ⟨.error e, fun h => he (Except.error.inj h), fun _ => rfl⟩

theorem bind (hx : Stateless x) (hf : ∀ a, Stateless (f a)) : Stateless (x >>= f) := by
  obtain ⟨e | a, he, hx⟩ := hx
  · exact ⟨.error e, fun h => he (congrArg _ (Except.error.inj h)), fun c => outcome_bind_error (hx c)⟩
  · obtain ⟨result, hr, hf⟩ := hf a
    exact ⟨result, hr, fun c => (outcome_bind_ok (hx c)).trans (hf c)⟩

theorem mapM {f : β → Compile α} (hf : ∀ b, Stateless (f b)) {l : List β} : Stateless (l.mapM f) := by
  induction l with
  | nil => exact pure
  | cons b l ih =>
    rw [List.mapM_cons]
    exact (hf b).bind fun _ => ih.bind fun _ => pure

theorem answer {a : Except Pattern.PatternError α} : Stateless (answer a) := by
  cases a with
  | ok a => exact pure
  | error e => exact throw (by simp)

theorem readPattern {engine : Engine} {source : Str} : Stateless (readPattern engine source) := by
  unfold Grammar.readPattern
  split
  · exact answer
  · exact throw (by simp)

theorem choiceOf {engine : Engine} {candidates : List Candidate} :
    Stateless (choiceOf engine candidates) := by
  refine (mapM fun _ => readPattern).bind fun regexes => ?_
  split
  · exact throw (by simp)
  · exact pure

theorem snd_eq (h : Stateless x) (c : Compiler) : (outcome x c).2 = c := by
  obtain ⟨result, -, h⟩ := h
  rw [h]

theorem fst_eq (h : Stateless x) (c d : Compiler) : (outcome x c).1 = (outcome x d).1 := by
  obtain ⟨result, -, h⟩ := h
  rw [h, h]

end Stateless

theorem choiceOf_candidates {engine : Engine} {candidates : List Candidate} {choice : Choice}
    {c d : Compiler} (h : Returns (choiceOf engine candidates) c choice d) :
    choice.candidates = candidates := by
  obtain ⟨regexes, c₁, -, h⟩ := Returns.bind h
  split at h
  · obtain ⟨_, _, h, -⟩ := Returns.bind h
    exact absurd h Returns.throw
  · obtain ⟨rfl, -⟩ := Returns.pure h
    rfl

namespace Compiler

/-- The flattened list of a rule's patterns, once it was asked for. -/
def kept? (c : Compiler) (r : Rule) : Option (List Candidate) :=
  (c.homes.lookup r.id).bind fun n => c.lists.lookup ⟨n, r.patterns.map (·.id)⟩

theorem kept?_eq {c : Compiler} {g : Grammar} {r : Rule}
    (h : c.homes.lookup r.id = some g.number) :
    c.kept? r = c.lists.lookup (listKey g r.patterns) := by
  rw [kept?, h]
  rfl

theorem Grows.kept? {c d : Compiler} {r : Rule} {candidates : List Candidate} (h : c.Grows d)
    (hk : c.kept? r = some candidates) : d.kept? r = some candidates := by
  obtain ⟨n, hn, hk⟩ := Option.bind_eq_some_iff.mp hk
  exact Option.bind_eq_some_iff.mpr ⟨n, h.homes _ _ hn, h.lists _ _ hk⟩

/-- What becomes of a rule when it is made ready, given the list that is kept for it. -/
def Prepares (engine : Engine) (c : Compiler) (r : Rule) (result : Except Failure Compiled) : Prop :=
  if r.matchPattern.isSome then result = .ok ⟨r.id, r.name, .single r.captures⟩
  else ∃ candidates, c.kept? r = some candidates ∧
    result = (outcome (choiceOf engine candidates) c).1.map (Compiled.ofChoice r)

/-- Two that keep one list for a rule. -/
def Agrees (c d : Compiler) : Prop :=
  ∀ r, c.Met r → d.Met r → ∀ cs ds, c.kept? r = some cs → d.kept? r = some ds → cs = ds

variable {engine : Engine} {c d : Compiler} {r : Rule} {result result' : Except Failure Compiled}

theorem Prepares.grows (h : c.Prepares engine r result) (hg : c.Grows d) :
    d.Prepares engine r result := by
  unfold Prepares at h ⊢
  split
  · rwa [if_pos ‹_›] at h
  · rw [if_neg ‹_›] at h
    obtain ⟨candidates, hk, hr⟩ := h
    exact ⟨candidates, hg.kept? hk, hr.trans (by rw [Stateless.choiceOf.fst_eq c d])⟩

theorem Prepares.agree (h : c.Prepares engine r result) (h' : d.Prepares engine r result')
    (hagree : c.Agrees d) (hc : c.Met r) (hd : d.Met r) : result = result' := by
  unfold Prepares at h h'
  split at h
  · rw [if_pos ‹_›] at h'
    rw [h, h']
  · rw [if_neg ‹_›] at h'
    obtain ⟨cs, hk, rfl⟩ := h
    obtain ⟨ds, hk', rfl⟩ := h'
    rw [hagree r hc hd cs ds hk hk', Stateless.choiceOf.fst_eq c d]

/-- What is kept is right: lists hold rules that were met, and rules that were made ready are what their
lists make of them. -/
structure Faithful (engine : Engine) (c : Compiler) : Prop extends c.Listed where
  ready : ∀ id k, c.compiled.lookup id = some k → c.library.base? ≠ none ∧
    (∀ s, mentions k s → c.Met s) ∧ ∃ r, r.id = id ∧ c.Met r ∧ c.Prepares engine r (.ok k)

end Compiler

variable {engine : Engine} {c d : Compiler} {g : Grammar} {r : Rule}

theorem setHomes_gathered {captures : Captures} (hc : c.Listed)
    (hr : ∀ x ∈ captures, c.library.Has g x.2) :
    ∃ d, Returns (setHomes captures g) c () d ∧ Gathered (α := Unit) c (.ok (), d) ∧
      ∀ s, mentions captures s → d.Met s := by
  induction captures generalizing c with
  | nil => exact ⟨c, rfl, .pure hc (by rintro _ ⟨⟩), by rintro s ⟨_, ⟨⟩, _⟩⟩
  | cons x captures ih =>
    obtain ⟨hfirst, hmet⟩ := setHome_gathered hc (hr x List.mem_cons_self)
    obtain ⟨d, hd, hrest, hmets⟩ := ih hfirst.listed fun y hy =>
      hfirst.grows.library_eq ▸ hr y (List.mem_cons_of_mem x hy)
    have hall : Returns (setHomes (x :: captures) g) c () d := by
      change Returns (setHome x.2 g >>= fun _ => setHomes captures g) c () d
      exact Returns.bind_intro rfl hd
    refine ⟨d, hall, ⟨hrest.listed, hfirst.grows.trans hrest.grows, hrest.compiled_eq, ?_,
      fun _ => ⟨(), rfl⟩⟩, fun s hs => ?_⟩
    · rintro _ - _ ⟨⟩
    · rcases mentions_cons.mp hs with hs | hs
      · obtain rfl : x.2 = s := hs
        exact hmet.grows hrest.grows
      · exact hmets s hs

theorem single_child {x : Nat × Rule} (hx : x ∈ r.captures) : x.2 ∈ r.children :=
  List.mem_append_right _ (List.mem_map_of_mem (by simp [hx]))

/-- All captures of a rule that is ready are written in the rule. -/
theorem ofChoice_child {choice : Choice} {x : Nat × Rule}
    (hx : x ∈ (Compiled.ofChoice r choice).form.captures) : x.2 ∈ r.children := by
  refine List.mem_append_right _ (List.mem_map_of_mem ?_)
  simp only [Compiled.ofChoice] at hx
  split at hx <;> simp only [Form.captures, List.mem_append, List.not_mem_nil] at hx <;>
    rcases hx with hx | hx <;> simp [hx]

theorem ofChoice_choice? {choice found : Choice}
    (h : (Compiled.ofChoice r choice).form.choice? = some found) : found = choice := by
  simp only [Compiled.ofChoice] at h
  split at h <;> cases h <;> rfl

/-- What making a rule ready leads to. -/
structure Prepared (engine : Engine) (c : Compiler) (r : Rule)
    (result : Except Failure Compiled × Compiler) : Prop where
  grows : c.Grows result.2
  met : ∀ k, result.1 = .ok k → ∀ s, mentions k s → result.2.Met s
  prepares : c.library.base? ≠ none → result.2.Prepares engine r result.1

theorem compileIn_prepared (hc : c.Listed) (hr : c.library.Has g r)
    (hn : c.homes.lookup r.id = some g.number) :
    Prepared engine c r (outcome (compileIn engine g r) c) ∧
      (outcome (compileIn engine g r) c).2.Listed ∧
      (outcome (compileIn engine g r) c).2.compiled = c.compiled := by
  have hset {captures : Captures} {d : Compiler} (hd : d.Listed) (hg : c.Grows d)
      (hk : ∀ x ∈ captures, x.2 ∈ r.children) :=
    setHomes_gathered hd fun x hx => hg.library_eq ▸ hr.child (hk x hx)
  unfold compileIn
  by_cases hm : r.matchPattern.isSome
  · obtain ⟨d, hd, h, hmets⟩ := hset hc (.refl c) fun x hx => single_child hx
    rw [if_pos hm, outcome_bind_ok (outcome_pure _)]
    dsimp only [Form.captures]
    rw [outcome_bind_ok hd, outcome_pure]
    refine ⟨⟨h.grows, ?_, fun _ => ?_⟩, h.listed, h.compiled_eq⟩
    · rintro _ ⟨⟩ s (⟨choice, hc, -⟩ | hs)
      · cases hc
      · exact hmets s hs
    · rw [Compiler.Prepares, if_pos hm]
  · rw [if_neg hm]
    have hlist := candidatesOf_gathered hc fun s hs => hr.child (List.mem_append_left _ hs)
    rcases hcs : outcome (candidatesOf g r.patterns) c with ⟨e | cs, c₁⟩ <;> rw [hcs] at hlist
    · rw [outcome_bind_error hcs]
      refine ⟨⟨hlist.grows, by rintro _ ⟨⟩, fun hb => ?_⟩, hlist.listed, hlist.compiled_eq⟩
      obtain ⟨_, ⟨⟩⟩ := hlist.total hb
    · have hkept : c₁.kept? r = some cs := by
        rw [Compiler.kept?_eq (hlist.grows.homes _ _ hn)]
        exact candidatesOf_lookup hcs
      have hstateless : Stateless (choiceOf engine cs) := .choiceOf
      obtain ⟨result, -, hchoice⟩ := hstateless
      have hprepares : c₁.Prepares engine r (result.map (Compiled.ofChoice r)) := by
        rw [Compiler.Prepares, if_neg hm]
        exact ⟨cs, hkept, by rw [hchoice]⟩
      cases result with
      | error e =>
        rw [outcome_bind_ok hcs, outcome_bind_error (hchoice c₁)]
        exact ⟨⟨hlist.grows, by rintro _ ⟨⟩, fun _ => hprepares⟩, hlist.listed, hlist.compiled_eq⟩
      | ok choice =>
        have hchild : ∀ x ∈ (Compiled.ofChoice r choice).form.captures, x.2 ∈ r.children :=
          fun x hx => ofChoice_child hx
        obtain ⟨d, hd, h, hmets⟩ := hset hlist.listed hlist.grows hchild
        rw [outcome_bind_ok hcs, outcome_bind_ok (hchoice c₁), outcome_bind_ok (outcome_pure _),
          outcome_bind_ok hd, outcome_pure]
        refine ⟨⟨hlist.grows.trans h.grows, ?_, fun _ => hprepares.grows h.grows⟩, h.listed,
          h.compiled_eq.trans hlist.compiled_eq⟩
        rintro _ ⟨⟩ s (⟨found, hf, hs⟩ | hs)
        · rw [ofChoice_choice? hf] at hs
          have hs : mentions choice.candidates s := hs
          rw [choiceOf_candidates (hchoice c₁)] at hs
          exact (hlist.met cs rfl s hs).grows h.grows
        · exact hmets s hs

theorem homeOf_eq {base : Grammar} (hc : c.Listed) (hr : c.library.Has g r)
    (hn : c.homes.lookup r.id = some g.number) : c.homeOf base r = g := by
  obtain ⟨scope, hg⟩ := hr.1
  rw [Compiler.homeOf, hn, Option.bind_some, Library.byNumber?_eq hc.wellFormed hg, Option.getD_some]

theorem Compiler.Met.unique {s : Rule} (hc : c.Listed) (hr : c.Met r) (hs : c.Met s)
    (he : r.id = s.id) : r = s := by
  obtain ⟨g, hr, -⟩ := hr
  obtain ⟨g', hs, -⟩ := hs
  exact (hr.unique hc.wellFormed hs he).2

theorem Compiler.Faithful.grows (hc : c.Faithful engine) (hd : d.Listed) (hg : c.Grows d)
    (he : d.compiled = c.compiled) : d.Faithful engine := by
  refine ⟨hd, fun id k h => ?_⟩
  rw [he] at h
  obtain ⟨hbase, hmentions, s, hid, hs, hprepares⟩ := hc.ready id k h
  exact ⟨hg.library_eq ▸ hbase, fun s hs => (hmentions s hs).grows hg, s, hid, hs.grows hg,
    hprepares.grows hg⟩

theorem Compiler.Grows.remember {id : RuleId} {k : Compiled} (hnew : c.compiled.lookup id = none) :
    c.Grows { c with compiled := (id, k) :: c.compiled } := by
  refine ⟨rfl, fun _ _ h => h, fun _ _ h => h, fun id' k' h => ?_⟩
  rw [List.lookup_cons]
  split
  · rename_i hid
    obtain rfl : id' = id := by simpa using hid
    rw [hnew] at h
    cases h
  · exact h

/-- A rule that was made ready can be remembered. -/
theorem Compiler.Faithful.remember {k : Compiled} (hc : c.Faithful engine)
    (hnew : c.compiled.lookup r.id = none) (hb : c.library.base? ≠ none) (hr : c.Met r)
    (hm : ∀ s, mentions k s → c.Met s) (hp : c.Prepares engine r (.ok k)) :
    Faithful engine { c with compiled := (r.id, k) :: c.compiled } := by
  have hgrows := Grows.remember (k := k) hnew
  refine ⟨⟨hc.wellFormed, hc.homes, fun key cs h s hs => (hc.lists key cs h s hs).grows hgrows⟩,
    fun id k' h => ?_⟩
  change ((r.id, k) :: c.compiled).lookup id = some k' at h
  rw [List.lookup_cons] at h
  split at h
  · rename_i hid
    obtain rfl : id = r.id := by simpa using hid
    cases h
    exact ⟨hb, fun s hs => (hm s hs).grows hgrows, r, rfl, hr.grows hgrows, hp.grows hgrows⟩
  · obtain ⟨hbase, hmentions, s, hid, hs, hprepares⟩ := hc.ready id k' h
    exact ⟨hbase, fun s hs => (hmentions s hs).grows hgrows, s, hid, hs.grows hgrows,
      hprepares.grows hgrows⟩

/-- Making a rule ready keeps what is kept right, and leads to what the rule's list makes of it. -/
theorem compileRule_prepared (hc : c.Faithful engine) (hr : c.Met r) :
    Prepared engine c r (outcome (compileRule engine r) c) ∧
      (outcome (compileRule engine r) c).2.Faithful engine := by
  unfold compileRule
  rw [outcome_bind_ok outcome_get]
  cases hk : c.compiled.lookup r.id with
  | some k =>
    rw [outcome_pure]
    obtain ⟨hbase, hmentions, s, hid, hs, hprepares⟩ := hc.ready _ _ hk
    obtain rfl := hs.unique hc.toListed hr hid
    refine ⟨⟨.refl c, ?_, fun _ => hprepares⟩, hc⟩
    rintro _ ⟨⟩
    exact hmentions
  | none =>
    cases hb : c.library.base? with
    | none =>
      rw [outcome_throw]
      exact ⟨⟨.refl c, by rintro _ ⟨⟩, fun h => absurd hb h⟩, hc⟩
    | some base =>
      have hbase : c.library.base? ≠ none := by simp [hb]
      obtain ⟨g, hg, hn⟩ := id hr
      dsimp only
      rw [homeOf_eq hc.toListed hg hn]
      obtain ⟨hp, hlisted, hcompiled⟩ := compileIn_prepared hc.toListed hg hn
      rcases hcompile : outcome (compileIn engine g r) c with ⟨e | k, d⟩ <;>
        rw [hcompile] at hp hlisted hcompiled
      · rw [outcome_bind_error hcompile]
        exact ⟨hp, hc.grows hlisted hp.grows hcompiled⟩
      · rw [outcome_bind_ok hcompile, outcome_bind_ok (outcome_modify _), outcome_pure]
        have hd := hc.grows hlisted hp.grows hcompiled
        have hnew : d.compiled.lookup r.id = none := hcompiled ▸ hk
        have hkeep := Compiler.Grows.remember (k := k) hnew
        refine ⟨⟨hp.grows.trans hkeep, ?_, fun hb => (hp.prepares hb).grows hkeep⟩, ?_⟩
        · rintro _ ⟨⟩ s hs
          exact (hp.met k rfl s hs).grows hkeep
        · exact hd.remember hnew (hp.grows.library_eq ▸ hbase) (hr.grows hp.grows) (hp.met k rfl)
            (hp.prepares hbase)

theorem compileRule_noBase (hc : c.Faithful engine) (hb : c.library.base? = none) :
    outcome (compileRule engine r) c = (.error .noBase, c) := by
  unfold compileRule
  rw [outcome_bind_ok outcome_get]
  cases hk : c.compiled.lookup r.id with
  | some k => exact absurd hb (hc.ready _ _ hk).1
  | none =>
    rw [hb]
    rfl

end Highlighter.Grammar

import Highlighter.Proofs.Grammar.History
import Highlighter.Proofs.Grammar.Lockstep
import Highlighter.Proofs.Grammar.Reachability
import Highlighter.Proofs.Grammar.Termination
import Mathlib.Data.List.Induction

/-! Where rules are at home. A compiler writes down for each rule that it meets in which grammar it was met, and
looks that up when the rule is made ready; for rules that were met it comes to the same to make them ready by the
grammar whose document holds them. Whatever documents a tokenizer has gone through, a rule that can be asked for
was met in that grammar, so the base never takes its place. The base itself is the main grammar where that was
asked for by a scope. -/

namespace Highlighter

open Highlighter.Grammar

/-- The grammar whose document holds the rule, or an empty one if there is none. -/
def Library.holder (l : Library) (r : Rule) : Grammar := (l.byNumber? r.id.grammar).getD default

theorem Library.Has.holder_eq {l : Library} {g : Grammar} {r : Rule} (hl : l.WellFormed) (h : l.Has g r) :
    l.holder r = g := by
  obtain ⟨scope, hg⟩ := h.1
  rw [holder, h.grammar_eq hl, byNumber?_eq hl hg, Option.getD_some]

namespace Grammar

/-- The candidates of one rule of a list, its include resolved in the grammar that holds the rule. -/
def contributionInPlace (lists : Grammar → List Rule → Compile (List Candidate)) (rule : Rule) :
    Compile (List Candidate) := do
  contribution lists ((← get).library.holder rule) rule

/-- Flattens a pattern list; its grammar serves to know the list again, and for nothing else. -/
def flattenInPlace : Nat → Grammar → List Rule → Compile (List Candidate)
  | 0, _, _ => return []
  | fuel + 1, g, rules => do
    let key := listKey g rules
    match (← get).lists.lookup key with
    | some candidates => return candidates
    | none =>
      storeList key []
      let parts ← rules.mapM (contributionInPlace (flattenInPlace fuel))
      let candidates := parts.flatten
      storeList key candidates
      return candidates

def candidatesInPlace (g : Grammar) (rules : List Rule) : Compile (List Candidate) := do
  flattenInPlace (Library.listBound (← get).library) g rules

/-- Makes a rule ready that was not ready before. -/
def compileInPlace (engine : Engine) (rule : Rule) : Compile Compiled := do
  let g := (← get).library.holder rule
  let compiled ←
    if rule.matchPattern.isSome then pure ⟨rule.id, rule.name, .single rule.captures⟩
    else do
      let choice ← choiceOf engine (← candidatesInPlace g rule.patterns)
      pure (Compiled.ofChoice rule choice)
  setHomes compiled.form.captures g
  return compiled

/-- The rule made ready, in the grammar that holds it. -/
def compileRuleInPlace (engine : Engine) (rule : Rule) : Compile Compiled := do
  let c ← get
  match c.compiled.lookup rule.id with
  | some compiled => return compiled
  | none =>
    match c.library.base? with
    | none => throw .noBase
    | some _ =>
      let compiled ← compileInPlace engine rule
      modify fun c => { c with compiled := (rule.id, compiled) :: c.compiled }
      return compiled

/-- The rule that holds the patterns of the main grammar, each read in the grammar that holds it. -/
def compileRootInPlace (engine : Engine) (g : Grammar) : Compile Compiled := do
  return ⟨none, [g.scopeName], .patternsOnly (← choiceOf engine (← candidatesInPlace g g.patterns))⟩

variable {engine : Engine} {c : Compiler} {g : Grammar} {r : Rule} {rules : List Rule} {fuel : Nat}

/-! ### The same is made ready -/

/-- By the fuel: every list that a list of rules of one grammar leads to is a list of rules of one grammar. -/
theorem flatten_inPlace (hc : c.Listed) (hr : ∀ r ∈ rules, c.library.Has g r) :
    outcome (flatten fuel g rules) c = outcome (flattenInPlace fuel g rules) c := by
  induction fuel generalizing g rules c with
  | zero => rfl
  | succ fuel ih =>
    rw [flatten, flattenInPlace, outcome_bind_ok outcome_get, outcome_bind_ok outcome_get]
    dsimp only
    cases c.lists.lookup (listKey g rules) with
    | some candidates => rfl
    | none =>
      have hparts : ∀ r ∈ rules, ∀ d : Compiler, d.Listed ∧ d.library = c.library →
          outcome (contribution (flatten fuel) g r) d =
              outcome (contributionInPlace (flattenInPlace fuel) r) d ∧
            (outcome (contribution (flatten fuel) g r) d).2.Listed ∧
            (outcome (contribution (flatten fuel) g r) d).2.library = c.library := by
        rintro r hmem d ⟨hd, hlibrary⟩
        have hhas : d.library.Has g r := hlibrary ▸ hr r hmem
        have hgathered := contribution_gathered (flatten_gathers fuel) hd hhas
        refine ⟨?_, hgathered.listed, hgathered.grows.library_eq.trans hlibrary⟩
        rw [contributionInPlace, outcome_bind_ok outcome_get, hhas.holder_eq hd.wellFormed]
        exact contribution_congr fun b hb => ih hd (next?_lists hhas hb).has
      have hopened : Compiler.Listed { c with lists := (listKey g rules, []) :: c.lists } :=
        hc.store (by rintro r ⟨_, ⟨⟩, _⟩)
      have hsame := outcome_mapM_congr ⟨hopened, rfl⟩ hparts
      dsimp only
      rw [outcome_bind_ok outcome_storeList, outcome_bind_ok outcome_storeList, outcome_bind, outcome_bind,
        hsame]

theorem candidatesOf_inPlace (hc : c.Listed) (hr : ∀ r ∈ rules, c.library.Has g r) :
    outcome (candidatesOf g rules) c = outcome (candidatesInPlace g rules) c := by
  rw [candidatesOf, candidatesInPlace, outcome_bind_ok outcome_get, outcome_bind_ok outcome_get]
  exact flatten_inPlace hc hr

theorem compileIn_inPlace (hc : c.Listed) (hr : c.library.Has g r) :
    outcome (compileIn engine g r) c = outcome (compileInPlace engine r) c := by
  unfold compileIn compileInPlace
  rw [outcome_bind_ok (outcome_get (s := c)), hr.holder_eq hc.wellFormed]
  dsimp only
  split
  · rfl
  · have hlist : outcome (candidatesOf g r.patterns) c = outcome (candidatesInPlace g r.patterns) c :=
      candidatesOf_inPlace hc fun s hs => hr.child (List.mem_append_left _ hs)
    rw [outcome_bind, outcome_bind, hlist]

/-- A rule that was met is made ready as in place, whatever else is known of it. -/
theorem compileRule_inPlace (hc : c.Listed) (hr : c.Met r) :
    outcome (compileRule engine r) c = outcome (compileRuleInPlace engine r) c := by
  obtain ⟨g, hg, hn⟩ := hr
  unfold compileRule compileRuleInPlace
  rw [outcome_bind_ok outcome_get, outcome_bind_ok outcome_get]
  cases c.compiled.lookup r.id with
  | some k => rfl
  | none =>
    cases c.library.base? with
    | none => rfl
    | some base =>
      dsimp only
      rw [homeOf_eq hc hg hn, outcome_bind, outcome_bind, compileIn_inPlace hc hg]

theorem compileRoot_inPlace (hc : c.Listed) (hg : ∀ r ∈ g.patterns, c.library.Has g r) :
    outcome (compileRoot engine g) c = outcome (compileRootInPlace engine g) c := by
  rw [compileRoot, compileRootInPlace, outcome_bind, outcome_bind, candidatesOf_inPlace hc hg]

end Grammar

/-! ### States of a compiler -/

namespace Tokenizer

variable {t : Tokenizer} {c d : Compiler} {r : Rule}

/-- The rule can be asked for: the root, or a rule that is ready, offers it or has it as a capture. -/
def Requests (t : Tokenizer) (c : Compiler) (r : Rule) : Prop :=
  mentions t.root r ∨ ∃ id k, c.compiled.lookup id = some k ∧ mentions k r

/-- The states of a tokenizer's compiler: the one it was made with, and from each of them the one after a rule
that can be asked for there was made ready, or could not be. -/
inductive Compiles (t : Tokenizer) : Compiler → Prop
  | made : Compiles t t.compiler
  | rule {c : Compiler} {r : Rule} (before : Compiles t c) (requests : t.Requests c r) :
      Compiles t (outcome (compileRule t.engine r) c).2

theorem Requests.grows (h : t.Requests c r) (hg : c.Grows d) : t.Requests d r := by
  rcases h with h | ⟨id, k, hk, h⟩
  · exact .inl h
  · exact .inr ⟨id, k, hg.compiled id k hk, h⟩

theorem Requests.met (h : t.Requests c r) (hc : c.Knows t.engine (mentions t.root)) : c.Met r := by
  rcases h with h | ⟨id, k, hk, h⟩
  · exact hc.met r h
  · exact (hc.faithful.ready id k hk).2.1 r h

/-- By the states: making a rule ready that was met leaves only rules that were met to be asked for. -/
theorem Compiles.knows (ht : t.Knows) (h : t.Compiles c) :
    c.Knows t.engine (mentions t.root) ∧ c.library = t.compiler.library := by
  induction h with
  | made => exact ⟨ht, rfl⟩
  | rule before requests ih =>
    obtain ⟨hc, hlibrary⟩ := ih
    obtain ⟨hprepared, hfaithful⟩ := compileRule_prepared hc.faithful (requests.met hc)
    exact ⟨⟨hfaithful, fun r hr => (hc.met r hr).grows hprepared.grows⟩,
      hprepared.grows.library_eq.trans hlibrary⟩

/-! ### Documents -/

/-- What a step leads to: one of the states again, where the rules in the answer can be asked for. -/
structure Requested {ε α : Type} [Mentions α] (t : Tokenizer) (c : Compiler)
    (result : Except ε α × Compiler) : Prop where
  compiles : t.Compiles result.2
  grows : c.Grows result.2
  requests : ∀ a, result.1 = .ok a → ∀ r, mentions a r → t.Requests result.2 r

/-- A step about rules that are known, from the states where these can be asked for. -/
def Requesting {ε α : Type} [Mentions α] (t : Tokenizer) (known : Rule → Prop)
    (x : ExceptT ε (StateM Compiler) α) : Prop :=
  ∀ c, t.Compiles c → (∀ r, known r → t.Requests c r) → t.Requested c (outcome x c)

namespace Requesting

variable {ε α β : Type} [Mentions α] [Mentions β] {known known' : Rule → Prop}
  {x : ExceptT ε (StateM Compiler) α} {f : α → ExceptT ε (StateM Compiler) β}

theorem mono (h : t.Requesting known x) (hk : ∀ r, known r → known' r) : t.Requesting known' x :=
  fun c hc hr => h c hc fun r hknown => hr r (hk r hknown)

theorem pure {a : α} (h : ∀ r, mentions a r → known r) :
    t.Requesting known (Pure.pure a : ExceptT ε (StateM Compiler) α) := by
  refine fun c hc hr => ⟨hc, .refl c, ?_⟩
  rintro _ ⟨⟩ r hmentions
  exact hr r (h r hmentions)

theorem throw {e : ε} : t.Requesting known (MonadExcept.throw e : ExceptT ε (StateM Compiler) α) :=
  fun c hc _ => ⟨hc, .refl c, by rintro _ ⟨⟩⟩

theorem bind (hx : t.Requesting known x)
    (hf : ∀ a, t.Requesting (fun r => known r ∨ mentions a r) (f a)) : t.Requesting known (x >>= f) := by
  intro c hc hr
  have hfirst := hx c hc hr
  rw [outcome_bind]
  rcases hrun : outcome x c with ⟨e | a, d⟩ <;> rw [hrun] at hfirst
  · exact ⟨hfirst.compiles, hfirst.grows, by rintro _ ⟨⟩⟩
  · have hknown : ∀ r, known r ∨ mentions a r → t.Requests d r := by
      rintro r (h | h)
      · exact (hr r h).grows hfirst.grows
      · exact hfirst.requests a rfl r h
    have hrest := hf a d hfirst.compiles hknown
    exact ⟨hrest.compiles, hfirst.grows.trans hrest.grows, hrest.requests⟩

theorem get {f : Compiler → ExceptT ε (StateM Compiler) β} (h : ∀ c, t.Requesting known (f c)) :
    t.Requesting known (MonadState.get >>= f) := by
  intro c hc hr
  rw [outcome_bind_ok outcome_get]
  exact h c c hc hr

theorem adapt {ε' : Type} {g : ε → ε'} (h : t.Requesting known x) :
    t.Requesting known (ExceptT.adapt g x) := by
  intro c hc hr
  have hx := h c hc hr
  rw [outcome_adapt]
  refine ⟨hx.compiles, hx.grows, fun a ha => ?_⟩
  cases hrun : (outcome x c).1 with
  | error e => rw [hrun] at ha; cases ha
  | ok b => rw [hrun] at ha; cases ha; exact hx.requests _ hrun

theorem compileRule (ht : t.Knows) (hr : known r) :
    t.Requesting known (compileRule t.engine r) := by
  intro c hc hknown
  have hknows := (hc.knows ht).1
  obtain ⟨hprepared, -⟩ := compileRule_prepared hknows.faithful ((hknown r hr).met hknows)
  refine ⟨hc.rule (hknown r hr), hprepared.grows, fun k hk s hs => .inr ⟨r.id, k, ?_, hs⟩⟩
  exact compileRule_lookup (Prod.ext hk rfl)

end Requesting

section
variable {known : Rule → Prop} {line : Pattern.Text} {stack : Stack} {allowed : Allowance}

theorem script_requesting {α : Type} [Mentions α] {divide : Division} {s : Script α} (ht : t.Knows)
    (hd : ∀ text scope rule, t.Requesting (mentions rule) (divide text scope rule))
    (h : s.About line known) : t.Requesting known (s.run t.engine divide) := by
  induction s generalizing known with
  | done a => exact .pure h
  | fail e => exact .throw
  | prepare r next ih => exact (Requesting.compileRule ht h.1).bind fun rule => ih rule (h.2 rule)
  | part text scope r next ih =>
    refine (Requesting.compileRule ht h.1).bind fun rule => ?_
    refine ((hd text scope rule).mono fun _ => .inr).bind fun regions => ?_
    exact (ih regions (h.2.2 regions)).mono fun s hs => .inl (.inl hs)
  | library next ih => exact .get fun c => ih c.library (h c.library)

theorem scripted_requesting {α : Type} [Mentions α] {divide : Division} {x : Division → Compile α}
    (h : Scripted t.engine line known x) (ht : t.Knows)
    (hd : ∀ text scope rule, t.Requesting (mentions rule) (divide text scope rule)) :
    t.Requesting known (x divide) := by
  obtain ⟨s, habout, hx⟩ := h
  rw [hx]
  exact script_requesting ht hd habout

theorem divideLine_requesting (ht : t.Knows) {depth : Nat} :
    t.Requesting (mentions stack) (divideLine t.engine allowed depth stack line) := by
  induction depth generalizing stack line with
  | zero => exact .throw
  | succ depth ih =>
    refine scripted_requesting (searchLine_scripted divideMatch_scripted) ht fun text scope rule => ?_
    have halone : t.Requesting (mentions rule)
        (divideLine t.engine allowed depth { top := ⟨scope ++ rule.name, rule, none⟩ } text) :=
      ih.mono fun _ => mentions_alone
    exact halone.bind fun _ => .pure (by rintro r ⟨_, _, ⟨⟩⟩)

theorem tokenizeLines_requesting (ht : t.Knows) {depth n : Nat} {lines : List Str} :
    t.Requesting (mentions stack) (tokenizeLines (divideLine t.engine allowed depth) stack n lines) := by
  induction lines generalizing stack n with
  | nil => exact .pure (by rintro r ⟨_, ⟨⟩, _⟩)
  | cons line lines ih =>
    rw [tokenizeLines]
    split
    · exact .throw
    · refine (divideLine_requesting ht).adapt.bind fun divided => ?_
      obtain ⟨after, regions⟩ := divided
      refine (ih.mono fun r => .inr).bind fun more => .pure ?_
      rintro r ⟨_, _, ⟨⟩⟩

end

/-- Whatever a tokenizer comes to, also within a line, is one of the states. -/
theorem Compiles.of_comes (ht : t.Knows) {stack : Stack} (h : t.Comes c stack) :
    t.Compiles c ∧ ∀ r, mentions stack r → t.Requests c r := by
  induction h with
  | start => exact ⟨.made, fun r hr => .inl (mentions_alone hr)⟩
  | @line c d stack after allowed depth line regions before divided ih =>
    have hline : t.Requested c (outcome (divideLine t.engine allowed depth stack line) c) :=
      divideLine_requesting ht _ ih.1 ih.2
    rw [show outcome _ c = _ from divided] at hline
    exact ⟨hline.compiles, hline.requests _ rfl⟩
  | document before ih =>
    exact ⟨(divideLine_requesting ht _ ih.1 ih.2).compiles, fun r hr => .inl (mentions_alone hr)⟩

/-- Documents leave a tokenizer's compiler in one of its states. -/
theorem Compiles.after (ht : t.Knows) (documents : List Str) :
    t.Compiles (t.after documents).compiler := by
  induction documents using List.reverseRecOn with
  | nil => exact .made
  | append_singleton documents content ih =>
    rw [after_append]
    have hroot : ∀ r, mentions t.rootStack r → t.Requests (t.after documents).compiler r :=
      fun r hr => .inl (mentions_alone hr)
    have hreading : t.Requesting (mentions t.rootStack) (t.reading content) := tokenizeLines_requesting ht
    rw [after_eq documents]
    exact (hreading _ ih hroot).compiles

/-! ### The base -/

theorem ofDocument_scopeName {number : Nat} {scope : String} {members : Json.Members} {g : Grammar}
    (h : ofDocument number (some scope) members = .ok g) :
    g.scopeName ≠ "" ∧ (scope ≠ "" → g.scopeName = scope) := by
  unfold ofDocument at h
  dsimp only at h
  split at h
  · cases h
  · rename_i hname
    obtain ⟨patterns, -, h⟩ := ok_of_bind h
    obtain ⟨repository, -, h⟩ := ok_of_bind h
    cases h
    refine ⟨by simpa using hname, fun hscope => ?_⟩
    simp [nameOf, hscope]

/-- Numbered grammars, none of them there twice; each has a scope, the one it is under unless that is
empty. -/
structure Filed (next : Nat) (l : Library) : Prop extends Library.Numbered next l where
  distinct : ∀ e ∈ l.grammars, ∀ f ∈ l.grammars, e.2.number = f.2.number → e = f
  named : ∀ e ∈ l.grammars, e.2.scopeName ≠ "" ∧ (e.1 ≠ "" → e.2.scopeName = e.1)

variable {next : Nat} {main : Str} {grammars loaded : List (Str × Grammar)}

theorem Filed.later {l : Library} (h : Filed next l) : Filed (next + 1) l :=
  ⟨⟨h.wellFormed, fun e he => Nat.lt_succ_of_lt (h.below e he)⟩, h.distinct, h.named⟩

/-- The grammar with the next number can be filed with the others, in whatever order. -/
theorem Filed.add {tree : Files.Tree} {path : Files.Path} {scope : String} {g : Grammar}
    (h : Filed next ⟨main, grammars⟩) (hg : Grammar.load tree next path (some scope) = .ok g)
    (hmem : ∀ e ∈ loaded, e = ((scope : Str), g) ∨ e ∈ grammars) : Filed (next + 1) ⟨main, loaded⟩ := by
  obtain ⟨hnumber, hidentified⟩ := Grammar.load_identified hg
  refine ⟨numbered_add h.toNumbered hnumber hidentified fun e he => ?_, fun e he f hf heq => ?_,
    fun e he => ?_⟩
  · exact (hmem e he).imp_left fun heq => congrArg Prod.snd heq
  · rcases hmem e he with rfl | he <;> rcases hmem f hf with rfl | hf
    · rfl
    · exact absurd (heq.symm.trans hnumber) (Nat.ne_of_lt (h.below f hf))
    · exact absurd (heq.trans hnumber) (Nat.ne_of_lt (h.below e he))
    · exact h.distinct e he f hf heq
  · rcases hmem e he with rfl | he
    · obtain ⟨members, hdocument⟩ := Grammar.load_document hg
      simpa using ofDocument_scopeName hdocument
    · exact h.named e he

theorem loadExtras_filed {tree : Files.Tree} {extras absent : List (String × Files.Path)}
    (h : Filed next ⟨main, grammars⟩) (hl : (loadExtras tree next extras grammars absent).1 = .ok loaded) :
    ∃ last, Filed last ⟨main, loaded⟩ :=
  loadExtras_preserves (P := fun n grammars => Filed n ⟨main, grammars⟩) (fun _ _ h => h.later)
    (fun _ _ _ _ _ _ h hg hmem => h.add hg hmem) h hl

section
variable {engine : Engine} {tree : Files.Tree} {path : Files.Path} {scope : String}
  {extras : List (String × Files.Path)} {notes : List Note}

/-- A tokenizer is made of the main grammar's patterns, over grammars that are filed. -/
theorem loadWith_filed (h : loadWith engine tree path scope extras = (.ok t, notes)) :
    t.compiler.library.main = scope ∧ (∃ last, Filed last t.compiler.library) ∧
      ∃ g, t.compiler.library.mainGrammar? = some g ∧
        Returns (compileRoot engine g) { library := t.compiler.library } t.root t.compiler := by
  unfold loadWith at h
  split at h
  · cases h
  · rename_i g hg
    have hnone : Filed 0 ⟨scope, []⟩ := ⟨⟨⟨nofun, nofun⟩, nofun⟩, nofun, nofun⟩
    have hfirst : Filed 1 ⟨scope, [(scope, g)]⟩ := hnone.add hg fun e he => .inl (List.mem_singleton.mp he)
    dsimp only at h
    split at h
    · cases h
    · rename_i grammars hgrammars
      obtain ⟨last, hfiled⟩ := loadExtras_filed hfirst hgrammars
      have hmade : (ofLibrary engine scope ⟨scope, grammars⟩).1 = .ok t := congrArg Prod.fst h
      obtain ⟨main, hmain, -, hroot⟩ := ofLibrary_made (Prod.ext hmade rfl)
      have hlists : Library.Lists ⟨scope, grammars⟩ (main, main.patterns) :=
        .grammar (Library.find?_mem hmain)
      have hstart : Compiler.Faithful engine { library := ⟨scope, grammars⟩ } :=
        faithful_start hfiled.wellFormed
      have hlibrary : t.compiler.library = ⟨scope, grammars⟩ := (compileRoot_knows hstart hlists.has hroot).2
      rw [hlibrary]
      exact ⟨rfl, ⟨last, hfiled⟩, main, hmain, hroot⟩

/-- The base is the main grammar exactly where that is asked for by a scope. -/
theorem Filed.base_iff {l : Library} {g : Grammar} (h : Filed next l) (hg : l.mainGrammar? = some g) :
    l.base? = some g ↔ l.main ≠ "" := by
  have hmem : (l.main, g) ∈ l.grammars := Library.find?_mem hg
  obtain ⟨hscope, hnamed⟩ := h.named _ hmem
  rw [Library.base?, hg]
  change l.find? g.scopeName = some g ↔ _
  constructor
  · intro hbase hempty
    have heq := h.distinct _ (Library.find?_mem hbase) _ hmem rfl
    exact hscope ((congrArg Prod.fst heq).trans hempty)
  · intro hne
    rw [hnamed hne]
    exact hg

/-! ### At home -/

/-- A rule is at home in the grammar that holds it: it is read there, whatever the base is, what its patterns
lead to is read where that is written, and it is made ready as in place. -/
structure AtHome (engine : Engine) (c : Compiler) (r : Rule) (g : Grammar) : Prop where
  has : c.library.Has g r
  home : ∀ base, c.homeOf base r = g
  leads : ∀ b, Relation.ReflTransGen (Precedes c.library) (g, r.patterns) b → ∀ s ∈ b.2, c.library.Has b.1 s
  ready : outcome (compileRule engine r) c = outcome (compileRuleInPlace engine r) c

theorem Requests.atHome (h : t.Requests c r) (hc : c.Knows t.engine (mentions t.root)) :
    ∃ g, AtHome t.engine c r g := by
  have hmet := h.met hc
  have hready : outcome (compileRule t.engine r) c = outcome (compileRuleInPlace t.engine r) c :=
    compileRule_inPlace hc.faithful.toListed hmet
  obtain ⟨g, hg, hn⟩ := hmet
  have hlists : c.library.Lists (g, r.patterns) := .patterns hg
  have hhome (base : Grammar) : c.homeOf base r = g := homeOf_eq hc.faithful.toListed hg hn
  exact ⟨g, hg, hhome, fun b hb => (leads_lists hlists hb).has, hready⟩

/-- Whatever documents come, each rule that can be asked for is at home in the one grammar that holds it, and
the root is made in place; the base is the main grammar exactly where that is asked for by a scope. -/
theorem compiles_atHome (h : loadWith engine tree path scope extras = (.ok t, notes)) :
    (∀ g r, t.compiler.library.Has g r → t.compiler.library.holder r = g) ∧
    (∀ c stack, t.Comes c stack → t.Compiles c) ∧
    (∀ documents, t.Compiles (t.after documents).compiler) ∧
    (∀ c, t.Compiles c →
      c.library = t.compiler.library ∧ ∀ r, t.Requests c r → ∃ g, AtHome engine c r g) ∧
    ∃ main, t.compiler.library.find? scope = some main ∧
      Returns (compileRootInPlace engine main) { library := t.compiler.library } t.root t.compiler ∧
      ((∀ g, resolveInclude t.compiler.library g "$base" = .rules main main.patterns) ↔ scope ≠ "") := by
  obtain ⟨rfl, ht⟩ := loadWith_knows h
  obtain ⟨hscope, ⟨last, hfiled⟩, main, hmain, hroot⟩ := loadWith_filed h
  have hfind : t.compiler.library.find? scope = some main := hscope ▸ hmain
  refine ⟨fun g r hg => hg.holder_eq hfiled.wellFormed, fun c stack h => (Compiles.of_comes ht h).1,
    Compiles.after ht, fun c hc => ?_, main, hfind, ?_, ?_⟩
  · obtain ⟨hknows, hlibrary⟩ := hc.knows ht
    exact ⟨hlibrary, fun r hr => hr.atHome hknows⟩
  · have hlists : t.compiler.library.Lists (main, main.patterns) := .grammar (Library.find?_mem hmain)
    have hstart : Compiler.Faithful t.engine { library := t.compiler.library } :=
      faithful_start hfiled.wellFormed
    rw [Returns, ← compileRoot_inPlace hstart.toListed hlists.has]
    exact hroot
  · rw [resolveInclude_base_iff, hfiled.base_iff hmain, hscope, Ne, Str.ofString_inj]

end

/-- A grammar that embeds another; both have a rule of one name in their repositories. -/
def embedding : Files.Tree :=
  let main := ["\x7b\"scopeName\":\"s\",\"patterns\":[\x7b\"include\":\"e\"\x7d],",
    "\"repository\":\x7b\"k\":\x7b\"match\":\"k\",\"name\":\"main\"\x7d\x7d\x7d"]
  let embedded := ["\x7b\"scopeName\":\"e\",\"patterns\":[\x7b\"begin\":\"<(k)\",\"end\":\">\",",
    "\"beginCaptures\":\x7b\"1\":\x7b\"patterns\":[\x7b\"include\":\"#k\"\x7d]\x7d\x7d,",
    "\"patterns\":[\x7b\"include\":\"#k\"\x7d]\x7d],",
    "\"repository\":\x7b\"k\":\x7b\"match\":\"k\",\"name\":\"own\"\x7d\x7d\x7d"]
  ⟨[(["g.json"], .file (Text.encodeUtf8 (main.flatMap String.toList))),
    (["e.json"], .file (Text.encodeUtf8 (embedded.flatMap String.toList)))]⟩

/-- The rule of a capture of the embedded grammar is at home there, and not in the main grammar. -/
theorem compiles_atHome_embedded : ∃ t notes main g r,
    load embedding (.ofString "g.json") "s" [("e", .ofString "e.json")] = (.ok t, notes) ∧
      t.compiler.library.find? "s" = some main ∧ t.Requests (t.after ["<kk>"]).compiler r ∧
      AtHome .standard (t.after ["<kk>"]).compiler r g ∧
      (t.after ["<kk>"]).compiler.homeOf main r ≠ main := by
  have hrun : resultOf (load embedding (.ofString "g.json") "s" [("e", .ofString "e.json")])
      (fun t => .ok (((t.after ["<kk>"]).compiler.compiled.lookup ⟨1, [0, 0, 0]⟩).map
          fun k => k.form.captures.map fun x => x.2.id.grammar,
        (t.compiler.library.find? "s").map Grammar.number)) = some (some [1], some 0) := by decide +kernel
  obtain ⟨t, notes, ht, h⟩ := resultOf_eq hrun
  obtain ⟨hcaptures, hnumber⟩ := Prod.mk.inj (Except.ok.inj h)
  obtain ⟨k, hk, hids⟩ := Option.map_eq_some_iff.mp hcaptures
  obtain ⟨x, hx, hid⟩ := List.mem_map.mp (hids ▸ List.mem_singleton_self 1)
  obtain ⟨-, -, hafter, hstates, main, hmain, -⟩ := compiles_atHome ht
  have hrequests : t.Requests (t.after ["<kk>"]).compiler x.2 := .inr ⟨_, k, hk, .inr ⟨x, hx, rfl⟩⟩
  obtain ⟨hlibrary, hhomes⟩ := hstates _ (hafter ["<kk>"])
  obtain ⟨g, hg⟩ := hhomes x.2 hrequests
  refine ⟨t, notes, main, g, x.2, ht, hmain, hrequests, hg, fun hmains => ?_⟩
  have hwellFormed := (loadWith_knows ht).2.faithful.wellFormed
  have hnumbers : x.2.id.grammar = main.number := by
    rw [← hmains, hg.home main]
    exact hg.has.grammar_eq (hlibrary ▸ hwellFormed)
  rw [hmain, Option.map_some, Option.some.injEq] at hnumber
  rw [hid, hnumber] at hnumbers
  cases hnumbers

/-- Two grammars that give themselves one scope, the first of which includes the base. -/
def namesakes : Files.Tree :=
  let main := ["\x7b\"scopeName\":\"s\",\"patterns\":[\x7b\"match\":\"a\",\"name\":\"m\"\x7d,",
    "\x7b\"include\":\"$base\"\x7d]\x7d"]
  let other := ["\x7b\"scopeName\":\"s\",\"patterns\":[\x7b\"match\":\"b\",\"name\":\"o\"\x7d]\x7d"]
  ⟨[(["g.json"], .file (Text.encodeUtf8 (main.flatMap String.toList))),
    (["o.json"], .file (Text.encodeUtf8 (other.flatMap String.toList)))]⟩

/-- The tokens of a document, and the numbers of the main grammar and the base. -/
def tokensAndBase (content : Str) (t : Tokenizer) :
    Except LoadFailure (List Token × Option Nat × Option Nat) := do
  let l := t.compiler.library
  return (← (t.tokenize content).1, l.mainGrammar?.map Grammar.number, l.base?.map Grammar.number)

/-- A main grammar that is asked for by no scope has another grammar as its base. -/
theorem tokenize_baseElsewhere : ∃ t notes main other,
    load namesakes (.ofString "g.json") "" [("s", .ofString "o.json")] = (.ok t, notes) ∧
      t.compiler.library.mainGrammar? = some main ∧ other.number ≠ main.number ∧
      resolveInclude t.compiler.library main "$base" = .rules other other.patterns ∧
      (t.tokenize "ab").1 = .ok [⟨0, 0, 1, ["s", "m"]⟩, ⟨0, 1, 2, ["s", "o"]⟩] := by
  have hrun : resultOf (load namesakes (.ofString "g.json") "" [("s", .ofString "o.json")])
      (tokensAndBase "ab") =
        some ([⟨0, 0, 1, ["s", "m"]⟩, ⟨0, 1, 2, ["s", "o"]⟩], some 0, some 1) := by decide +kernel
  obtain ⟨t, notes, ht, h⟩ := resultOf_eq hrun
  obtain ⟨tokens, htokens, h⟩ := ok_of_bind h
  obtain ⟨rfl, hnumbers⟩ := Prod.mk.inj (Except.ok.inj h)
  obtain ⟨hmain, hbase⟩ := Prod.mk.inj hnumbers
  obtain ⟨main, hmain, hfirst⟩ := Option.map_eq_some_iff.mp hmain
  obtain ⟨other, hother, hsecond⟩ := Option.map_eq_some_iff.mp hbase
  refine ⟨t, notes, main, other, ht, hmain, ?_, ?_, htokens⟩
  · rw [hfirst, hsecond]
    decide
  · rw [resolveInclude_base, hother]

end Tokenizer

end Highlighter

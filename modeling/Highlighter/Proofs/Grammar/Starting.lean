import Highlighter.Proofs.Grammar.Lockstep
import Mathlib.Data.List.Forall2

/-! What a rule that is ready was made of. Every list that is kept offers rules by the patterns they start
by, so a rule that is found in a search was found by its own pattern. -/

namespace Highlighter

/-- The rule is written in one of the grammars. -/
def Library.Owns (l : Library) (r : Grammar.Rule) : Prop := ∃ g, l.Has g r

namespace Grammar

open Highlighter.Pattern (Regex Text)

/-- The pattern by which a rule starts in a list. -/
def Rule.start? (r : Rule) : Option Str := r.matchPattern.or r.beginPattern

/-- The pattern that closes or continues a rule, as it is before the groups of a match are filled in. -/
def Rule.template? (r : Rule) : Option Str := r.endPattern.or r.whilePattern

/-- The candidates start by the patterns of their rules. -/
def Offered (candidates : List Candidate) : Prop := ∀ x ∈ candidates, x.rule.start? = some x.pattern

/-- All lists that are kept offer rules by the patterns they start by. -/
def Compiler.Starting (c : Compiler) : Prop := ∀ e ∈ c.lists, Offered e.2

/-! ### Lists -/

/-- The step keeps lists whose entries have a property, and its answer has a property. -/
def Upholds {α : Type} (P : ListKey × List Candidate → Prop) (Q : α → Prop) (x : Compile α) : Prop :=
  ∀ c : Compiler, (∀ e ∈ c.lists, P e) →
    (∀ e ∈ (outcome x c).2.lists, P e) ∧ ∀ a, (outcome x c).1 = .ok a → Q a

namespace Upholds

variable {α β : Type} {P : ListKey × List Candidate → Prop} {Q : α → Prop} {Q' : β → Prop}
  {x : Compile α} {f : α → Compile β}

theorem pure {a : α} (h : Q a) : Upholds P Q (Pure.pure a) := by
  refine fun c hc => ⟨hc, ?_⟩
  rintro _ ⟨⟩
  exact h

theorem throw {e : Failure} : Upholds P Q (MonadExcept.throw e) := by
  refine fun c hc => ⟨hc, ?_⟩
  rintro _ ⟨⟩

theorem bind (hx : Upholds P Q x) (hf : ∀ a, Q a → Upholds P Q' (f a)) : Upholds P Q' (x >>= f) := by
  intro c hc
  obtain ⟨hd, ha⟩ := hx c hc
  rw [outcome_bind]
  rcases hr : outcome x c with ⟨e | a, d⟩ <;> rw [hr] at hd ha
  · exact ⟨hd, by rintro _ ⟨⟩⟩
  · exact hf a (ha a rfl) d hd

theorem get {f : Compiler → Compile β} (h : ∀ c : Compiler, (∀ e ∈ c.lists, P e) → Upholds P Q' (f c)) :
    Upholds P Q' (MonadState.get >>= f) := by
  intro c hc
  rw [outcome_bind_ok outcome_get]
  exact h c hc c hc

/-- A change that leaves the lists alone. -/
theorem modify {f : Compiler → Compiler} (h : ∀ c, (f c).lists = c.lists) :
    Upholds P (fun _ => True) (modify f : Compile Unit) := by
  intro c hc
  refine ⟨?_, fun _ _ => trivial⟩
  rw [outcome_modify]
  intro e he
  rw [h c] at he
  exact hc e he

theorem store {key : ListKey} {candidates : List Candidate} (h : P (key, candidates)) :
    Upholds P (fun _ => True) (storeList key candidates) := by
  intro c hc
  refine ⟨?_, fun _ _ => trivial⟩
  rw [outcome_storeList]
  exact List.forall_mem_cons.mpr ⟨h, hc⟩

theorem mapM {f : β → Compile α} {l : List β} (hf : ∀ b ∈ l, Upholds P Q (f b)) :
    Upholds P (fun as => as.length = l.length ∧ ∀ a ∈ as, Q a) (l.mapM f) := by
  induction l with
  | nil => exact .pure ⟨rfl, nofun⟩
  | cons b l ih =>
    rw [List.mapM_cons]
    refine (hf b List.mem_cons_self).bind fun a ha => ?_
    refine (ih fun b' hb' => hf b' (List.mem_cons_of_mem b hb')).bind fun as has => .pure ⟨?_, ?_⟩
    · rw [List.length_cons, List.length_cons, has.1]
    · exact List.forall_mem_cons.mpr ⟨ha, has.2⟩

theorem of_stateless (h : Stateless x) : Upholds P (fun _ => True) x := by
  intro c hc
  rw [h.snd_eq c]
  exact ⟨hc, fun _ _ => trivial⟩

end Upholds

/-- A property of the lists that are kept, and one of candidates, that flattening does not lose. -/
structure Lasting (P : ListKey × List Candidate → Prop) (C : List Candidate → Prop) : Prop where
  none : C []
  own : ∀ {r : Rule} {pattern : Str}, r.start? = some pattern → C [⟨pattern, r⟩]
  opened : ∀ key, P (key, [])
  kept : ∀ {e}, P e → C e.2
  joined : ∀ {g : Grammar} {rules : List Rule} {parts : List (List Candidate)},
    parts.length = rules.length → (∀ part ∈ parts, C part) → P (listKey g rules, parts.flatten)

variable {engine : Engine} {g : Grammar} {r : Rule} {rules : List Rule} {captures : Captures}
  {P : ListKey × List Candidate → Prop} {C : List Candidate → Prop}

theorem setHome_upholds : Upholds P (fun _ => True) (setHome r g) := .modify fun _ => rfl

theorem contribution_upholds (h : Lasting P C) {lists : Grammar → List Rule → Compile (List Candidate)}
    (hlists : ∀ g rules, Upholds P C (lists g rules)) : Upholds P C (contribution lists g r) := by
  have hstarts {pattern : Str} (hr : r.start? = some pattern) :
      Upholds P C (do setHome r g; return [⟨pattern, r⟩]) :=
    setHome_upholds.bind fun _ _ => .pure (h.own hr)
  unfold contribution
  split
  · refine .get fun c hc => ?_
    split
    · exact hlists _ _
    · have hmissing {what : Str} : Upholds P (fun _ => True) (noteMissing what) :=
        .modify fun c => by split <;> rfl
      exact hmissing.bind fun _ _ => .pure h.none
    · exact .throw
  · split
    · rename_i pattern hmatch
      exact hstarts (by rw [Rule.start?, hmatch]; rfl)
    · rename_i pattern hmatch hbegin
      exact hstarts (by rw [Rule.start?, hmatch, hbegin]; rfl)
    · split
      · exact .pure h.none
      · exact hlists g r.patterns

theorem flatten_upholds (h : Lasting P C) {fuel : Nat} : Upholds P C (flatten fuel g rules) := by
  induction fuel generalizing g rules with
  | zero => exact .pure h.none
  | succ fuel ih =>
    refine .get fun c hc => ?_
    split
    · rename_i candidates hkept
      obtain ⟨before, after, he, -⟩ := List.lookup_eq_some_iff.mp hkept
      exact .pure (h.kept (hc _ (he ▸ List.mem_append_right before List.mem_cons_self)))
    · refine (Upholds.store (h.opened _)).bind fun _ _ => ?_
      have hparts : Upholds P (fun parts => parts.length = rules.length ∧ ∀ part ∈ parts, C part)
          (rules.mapM (contribution (flatten fuel) g)) :=
        .mapM fun rule _ => contribution_upholds h fun _ _ => ih
      refine hparts.bind fun parts hparts => ?_
      have hjoined := h.joined (g := g) hparts.1 hparts.2
      exact (Upholds.store hjoined).bind fun _ _ => .pure (h.kept hjoined)

theorem candidatesOf_upholds (h : Lasting P C) : Upholds P C (candidatesOf g rules) :=
  .get fun _ _ => flatten_upholds h

theorem setHomes_upholds : Upholds P (fun _ => True) (setHomes captures g) := by
  induction captures with
  | nil => exact .pure trivial
  | cons x captures ih =>
    change Upholds P _ (setHome x.2 g >>= fun _ => setHomes captures g)
    exact setHome_upholds.bind fun _ _ => ih

theorem compileIn_upholds (h : Lasting P C) : Upholds P (fun _ => True) (compileIn engine g r) := by
  unfold compileIn
  extract_lets finish
  have hfinish (k : Compiled) : Upholds P (fun _ => True) (finish k) :=
    setHomes_upholds.bind fun _ _ => .pure trivial
  have hpure (k : Compiled) : Upholds P (fun _ => True) (pure k : Compile Compiled) := .pure trivial
  split
  · exact (hpure _).bind fun k _ => hfinish k
  · refine (candidatesOf_upholds h).bind fun _ _ => ?_
    exact (Upholds.of_stateless .choiceOf).bind fun _ _ => (hpure _).bind fun k _ => hfinish k

theorem compileRule_upholds (h : Lasting P C) : Upholds P (fun _ => True) (compileRule engine r) := by
  refine .get fun c _ => ?_
  split
  · exact .pure trivial
  · split
    · exact .throw
    · refine (compileIn_upholds h).bind fun _ _ => ?_
      exact (Upholds.modify fun _ => rfl).bind fun _ _ => .pure trivial

theorem compileRoot_upholds (h : Lasting P C) : Upholds P (fun _ => True) (compileRoot engine g) :=
  (candidatesOf_upholds h).bind fun _ _ => (Upholds.of_stateless .choiceOf).bind fun _ _ => .pure trivial

theorem Compiler.Makes.keeps {c d : Compiler} (hd : c.Makes engine d) (h : Lasting P C)
    (hc : ∀ e ∈ c.lists, P e) : ∀ e ∈ d.lists, P e := by
  induction hd with
  | refl => exact hc
  | rule _ _ _ ih => exact (compileRule_upholds h _ ih).1

theorem lasting_offered : Lasting (fun e => Offered e.2) Offered where
  none := nofun
  own h x hx := by
    rw [List.mem_singleton.mp hx]
    exact h
  opened _ := nofun
  kept h := h
  joined _ h := by
    intro x hx
    obtain ⟨part, hpart, hx⟩ := List.mem_flatten.mp hx
    exact h part hpart x hx

theorem Compiler.Makes.starting {c d : Compiler} (h : c.Makes engine d) (hc : c.Starting) : d.Starting :=
  h.keeps lasting_offered hc

/-! ### Rules that are ready -/

/-- The choice offers rules of a library by the patterns they start by, and these are its patterns. -/
structure Choice.Fits (engine : Engine) (l : Library) (choice : Choice) : Prop where
  owned : ∀ x ∈ choice.candidates, l.Owns x.rule
  offered : Offered choice.candidates
  read : List.Forall₂ (fun x r => engine.Reads x.pattern r) choice.candidates choice.regexes

/-- What a rule does when it is ready. -/
inductive Form.Of (engine : Engine) (l : Library) (r : Rule) : Form → Prop
  | single {pattern : Str} : r.matchPattern = some pattern → Of engine l r (.single r.captures)
  | patternsOnly {choice : Choice} : r.matchPattern = none →
      (r.beginPattern = none ∨ r.template? = none) → choice.Fits engine l →
      Of engine l r (.patternsOnly choice)
  | beginEnd {pattern ending : Str} {choice : Choice} : r.matchPattern = none →
      r.beginPattern = some pattern → r.endPattern = some ending → choice.Fits engine l →
      Of engine l r (.beginEnd r.contentName r.beginCaptures r.endCaptures ending choice)
  | beginWhile {pattern condition : Str} {choice : Choice} : r.matchPattern = none →
      r.beginPattern = some pattern → r.endPattern = none → r.whilePattern = some condition →
      choice.Fits engine l →
      Of engine l r (.beginWhile r.contentName r.beginCaptures r.whileCaptures condition choice)

/-- What is kept is right, offers rules by their patterns, and belongs to a library; the rules that are known
were met. -/
structure Compiler.Sane (engine : Engine) (l : Library) (known : Rule → Prop) (c : Compiler) : Prop
    extends c.Knows engine known where
  starting : c.Starting
  library_eq : c.library = l

section
variable {α β : Type} {l : Library} {known known' : Rule → Prop} {c d : Compiler} {k : Compiled}
  {candidates : List Candidate} {choice : Choice}

theorem Compiler.Sane.mono (h : c.Sane engine l known') (hk : ∀ r, known r → known' r) :
    c.Sane engine l known := ⟨h.toKnows.mono hk, h.starting, h.library_eq⟩

theorem Compiler.Sane.owns (h : c.Sane engine l known) (hr : known r) : l.Owns r := by
  obtain ⟨g, hg, -⟩ := h.met r hr
  exact ⟨g, h.library_eq ▸ hg⟩

/-- A step in lockstep keeps what is sane so. -/
theorem Lockstep.sane [Mentions α] {x : Compile α} {a : α} (hx : Lockstep engine known x)
    (hc : c.Sane engine l known) (h : Returns x c a d) :
    d.Sane engine l fun r => known r ∨ mentions a r := by
  have hmoved := hx.moves c hc.toKnows
  rw [show outcome x c = (.ok a, d) from h] at hmoved
  exact ⟨hmoved.knows hc.toKnows, hmoved.makes.starting hc.starting,
    hmoved.makes.grows.library_eq.trans hc.library_eq⟩

theorem readPatterns_read {regexes : List Regex}
    (h : Returns (candidates.mapM fun x => readPattern engine x.pattern) c regexes d) :
    List.Forall₂ (fun x r => engine.Reads x.pattern r) candidates regexes := by
  induction candidates generalizing regexes c d with
  | nil =>
    obtain ⟨rfl, -⟩ := Returns.pure h
    exact .nil
  | cons x candidates ih =>
    rw [List.mapM_cons] at h
    obtain ⟨regex, c₁, hread, h⟩ := Returns.bind h
    obtain ⟨rest, c₂, hrest, h⟩ := Returns.bind h
    obtain ⟨rfl, -⟩ := Returns.pure h
    exact .cons (readPattern_state hread).1 (ih hrest)

theorem choiceOf_read (h : Returns (choiceOf engine candidates) c choice d) :
    List.Forall₂ (fun x r => engine.Reads x.pattern r) choice.candidates choice.regexes := by
  obtain ⟨regexes, c₁, hread, h⟩ := Returns.bind h
  split at h
  · obtain ⟨_, _, h, -⟩ := Returns.bind h
    exact absurd h Returns.throw
  · obtain ⟨rfl, -⟩ := Returns.pure h
    exact readPatterns_read hread

theorem ofChoice_offers (choice : Choice) : (Compiled.ofChoice r choice).form.choice? = some choice := by
  unfold Compiled.ofChoice
  dsimp only
  split <;> rfl

theorem ofChoice_of (hmatch : r.matchPattern = none) (h : choice.Fits engine l) :
    (Compiled.ofChoice r choice).form.Of engine l r := by
  unfold Compiled.ofChoice
  dsimp only
  split
  · rename_i hbegin hend
    exact .beginEnd hmatch hbegin hend h
  · rename_i hbegin hend hwhile
    exact .beginWhile hmatch hbegin hend hwhile h
  · rename_i hends hgoes
    refine .patternsOnly hmatch ?_ h
    cases hbegin : r.beginPattern with
    | none => exact .inl rfl
    | some pattern =>
      right
      cases hend : r.endPattern with
      | some ending => exact absurd hend (hends pattern ending hbegin)
      | none =>
        cases hwhile : r.whilePattern with
        | some condition => exact absurd hwhile (hgoes pattern condition hbegin hend)
        | none => rw [Rule.template?, hend, hwhile]; rfl

/-- What is known to be kept for a rule offers rules by their patterns. -/
theorem Compiler.Starting.kept (hc : c.Starting) (h : c.kept? r = some candidates) : Offered candidates := by
  obtain ⟨n, -, hlookup⟩ := Option.bind_eq_some_iff.mp h
  obtain ⟨before, after, he, -⟩ := List.lookup_eq_some_iff.mp hlookup
  exact hc _ (he ▸ List.mem_append_right before List.mem_cons_self)

/-- A rule that was made ready does what its definition says. -/
theorem compileRule_of (hc : c.Sane engine l known) (hr : c.Met r)
    (h : Returns (compileRule engine r) c k d) : k.form.Of engine l r := by
  obtain ⟨hp, -⟩ := compileRule_prepared hc.faithful hr
  have hkeeps : Upholds _ (fun _ => True) (compileRule engine r) := compileRule_upholds lasting_offered
  have hstarting := (hkeeps c hc.starting).1
  rw [show outcome (compileRule engine r) c = (.ok k, d) from h] at hp hstarting
  have hlibrary : d.library = l := hp.grows.library_eq.trans hc.library_eq
  have hbase : c.library.base? ≠ none := by
    intro hnone
    rw [Returns, compileRule_noBase hc.faithful hnone] at h
    cases h
  have hprepares := hp.prepares hbase
  unfold Compiler.Prepares at hprepares
  split at hprepares
  · rename_i hmatch
    obtain ⟨pattern, hpattern⟩ := Option.isSome_iff_exists.mp hmatch
    cases hprepares
    exact .single hpattern
  · rename_i hmatch
    obtain ⟨candidates, hkept, hresult⟩ := hprepares
    rcases hchoice : outcome (choiceOf engine candidates) d with ⟨e | choice, d'⟩
    · rw [hchoice] at hresult
      cases hresult
    · rw [hchoice] at hresult
      cases hresult
      have hcandidates := choiceOf_candidates hchoice
      refine ofChoice_of (by simpa using hmatch) ⟨fun x hx => ?_, ?_, choiceOf_read hchoice⟩
      · obtain ⟨g, hg, -⟩ := hp.met _ rfl x.rule (.inl ⟨choice, ofChoice_offers choice, x, hx, rfl⟩)
        exact ⟨g, hlibrary ▸ hg⟩
      · rw [hcandidates]
        exact Compiler.Starting.kept hstarting hkept

/-- The patterns of a grammar are offered as those of a rule are. -/
theorem compileRoot_fits {root : Compiled} (hc : c.Faithful engine) (hs : c.Starting)
    (hg : ∀ r ∈ g.patterns, c.library.Has g r) (h : Returns (compileRoot engine g) c root d) :
    ∃ choice, root = ⟨none, [g.scopeName], .patternsOnly choice⟩ ∧ choice.Fits engine c.library ∧
      d.Sane engine c.library (mentions root) := by
  obtain ⟨hknows, hlibrary⟩ := compileRoot_knows hc hg h
  obtain ⟨candidates, c₁, hlist, h⟩ := Returns.bind h
  obtain ⟨choice, c₂, hchoice, h⟩ := Returns.bind h
  obtain ⟨rfl, rfl⟩ := Returns.pure h
  have hkeeps : Upholds _ Offered (candidatesOf g g.patterns) := candidatesOf_upholds lasting_offered
  have hoffers : Upholds (fun e => Offered e.2) (fun _ => True) (choiceOf engine candidates) :=
    .of_stateless .choiceOf
  obtain ⟨hlists, hoffered⟩ := hkeeps c hs
  rw [show outcome (candidatesOf g g.patterns) c = (.ok candidates, c₁) from hlist] at hlists hoffered
  have hstarting := (hoffers c₁ hlists).1
  rw [show outcome (choiceOf engine candidates) c₁ = (.ok choice, c₂) from hchoice] at hstarting
  have hsane : c₂.Sane engine c.library (mentions (⟨none, [g.scopeName], .patternsOnly choice⟩ : Compiled)) :=
    ⟨hknows, hstarting, hlibrary⟩
  refine ⟨choice, rfl, ⟨fun x hx => ?_, ?_, choiceOf_read hchoice⟩, hsane⟩
  · exact hsane.owns (.inl ⟨choice, rfl, x, hx, rfl⟩)
  · rw [choiceOf_candidates hchoice]
    exact hoffered candidates rfl

end

end Grammar

end Highlighter

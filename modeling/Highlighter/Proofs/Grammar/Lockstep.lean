import Highlighter.Proofs.Grammar.Document
import Highlighter.Proofs.Grammar.Script

/-! Two tokenizers side by side. Steps that start from different memories stay together as long as both
memories keep the same lists for the rules that both have met. -/

namespace Highlighter.Grammar

open Highlighter.Pattern (Text)

theorem Compiler.Agrees.of_grows {c c' d d' : Compiler} (h : c'.Agrees d') (hc : c.Grows c')
    (hd : d.Grows d') : c.Agrees d := fun r hrc hrd cs ds hcs hds =>
  h r (hrc.grows hc) (hrd.grows hd) cs ds (hc.kept? hcs) (hd.kept? hds)

/-- What is kept is right, and the rules that are known were met. -/
structure Compiler.Knows (engine : Engine) (known : Rule → Prop) (c : Compiler) : Prop where
  faithful : c.Faithful engine
  met : ∀ r, known r → c.Met r

/-- The second is the first after rules were made ready one by one, as far as that went. -/
inductive Compiler.Makes (engine : Engine) : Compiler → Compiler → Prop
  | refl (c : Compiler) : Makes engine c c
  | rule {c d : Compiler} {r : Rule} (before : Makes engine c d) (faithful : d.Faithful engine)
      (met : d.Met r) : Makes engine c (outcome (compileRule engine r) d).2

theorem Compiler.Makes.trans {engine : Engine} {c d e : Compiler} (h : c.Makes engine d)
    (h' : d.Makes engine e) : c.Makes engine e := by
  induction h' with
  | refl => exact h
  | rule before faithful met ih => exact .rule ih faithful met

theorem Compiler.Makes.grows {engine : Engine} {c d : Compiler} (h : c.Makes engine d) : c.Grows d := by
  induction h with
  | refl => exact .refl _
  | rule before faithful met ih => exact ih.trans (compileRule_prepared faithful met).1.grows

theorem Compiler.Makes.faithful {engine : Engine} {c d : Compiler} (h : c.Makes engine d)
    (hc : c.Faithful engine) : d.Faithful engine := by
  cases h with
  | refl => exact hc
  | rule before faithful met => exact (compileRule_prepared faithful met).2

/-- What a step leads to: all it does is to make rules ready, and the rules in the answer were met. -/
structure Moved {ε α : Type} [Mentions α] (engine : Engine) (c : Compiler)
    (result : Except ε α × Compiler) : Prop where
  makes : c.Makes engine result.2
  met : ∀ a, result.1 = .ok a → ∀ r, mentions a r → result.2.Met r

/-- A step about rules that are known. From memories that know them it leads to such, and to one answer
where the memories agree in the end. -/
structure Lockstep {ε α : Type} [Mentions α] (engine : Engine) (known : Rule → Prop)
    (x : ExceptT ε (StateM Compiler) α) : Prop where
  moves : ∀ c : Compiler, c.Knows engine known → Moved engine c (outcome x c)
  same : ∀ c d : Compiler, c.Knows engine known → d.Knows engine known → c.library = d.library →
    (outcome x c).2.Agrees (outcome x d).2 → (outcome x c).1 = (outcome x d).1

section
variable {ε α β : Type} [Mentions α] [Mentions β] {engine : Engine} {known known' : Rule → Prop}
  {x : ExceptT ε (StateM Compiler) α} {f : α → ExceptT ε (StateM Compiler) β} {c d : Compiler}

theorem Compiler.Knows.mono (h : c.Knows engine known') (hk : ∀ r, known r → known' r) :
    c.Knows engine known := ⟨h.faithful, fun r hr => h.met r (hk r hr)⟩

theorem Moved.knows {a : α} (h : @Moved ε α _ engine c (.ok a, d)) (hc : c.Knows engine known) :
    d.Knows engine fun r => known r ∨ mentions a r := by
  refine ⟨h.makes.faithful hc.faithful, fun r hr => ?_⟩
  rcases hr with hr | hr
  · exact (hc.met r hr).grows h.makes.grows
  · exact h.met a rfl r hr

theorem Moved.bind (hx : Moved engine c (outcome x c))
    (hf : ∀ a d, outcome x c = (.ok a, d) → Moved engine d (outcome (f a) d)) :
    Moved engine c (outcome (x >>= f) c) ∧ (outcome x c).2.Grows (outcome (x >>= f) c).2 := by
  rw [outcome_bind]
  rcases hr : outcome x c with ⟨e | a, d⟩ <;> rw [hr] at hx
  · exact ⟨⟨hx.makes, by rintro _ ⟨⟩⟩, .refl d⟩
  · have h := hf a d hr
    exact ⟨⟨hx.makes.trans h.makes, h.met⟩, h.makes.grows⟩

namespace Lockstep

theorem mono (h : Lockstep engine known x) (hk : ∀ r, known r → known' r) :
    Lockstep engine known' x where
  moves c hc := h.moves c (hc.mono hk)
  same c d hc hd := h.same c d (hc.mono hk) (hd.mono hk)

theorem pure {a : α} (h : ∀ r, mentions a r → known r) :
    Lockstep engine known (Pure.pure a : ExceptT ε (StateM Compiler) α) where
  moves c hc := by
    refine ⟨.refl c, ?_⟩
    rintro _ ⟨⟩ r hr
    exact hc.met r (h r hr)
  same _ _ _ _ _ _ := rfl

theorem throw {e : ε} :
    Lockstep engine known (MonadExcept.throw e : ExceptT ε (StateM Compiler) α) where
  moves c _ := ⟨.refl c, by rintro _ ⟨⟩⟩
  same _ _ _ _ _ _ := rfl

theorem bind (hx : Lockstep engine known x)
    (hf : ∀ a, Lockstep engine (fun r => known r ∨ mentions a r) (f a)) :
    Lockstep engine known (x >>= f) := by
  have hmoves (c : Compiler) (hc : c.Knows engine known) :=
    (hx.moves c hc).bind fun a d ha => (hf a).moves d ((ha ▸ hx.moves c hc).knows hc)
  refine ⟨fun c hc => (hmoves c hc).1, fun c d hc hd hl hagree => ?_⟩
  have hfirst := hx.same c d hc hd hl (hagree.of_grows (hmoves c hc).2 (hmoves d hd).2)
  have hxc := hx.moves c hc
  have hxd := hx.moves d hd
  rcases hrc : outcome x c with ⟨e | a, c₁⟩ <;> rcases hrd : outcome x d with ⟨e' | b, d₁⟩ <;>
    rw [hrc, hrd] at hfirst <;> rw [hrc] at hxc <;> rw [hrd] at hxd <;> cases hfirst
  · rw [outcome_bind_error hrc, outcome_bind_error hrd]
  · rw [outcome_bind_ok hrc, outcome_bind_ok hrd] at hagree ⊢
    have hl₁ : c₁.library = d₁.library := by
      rw [hxc.makes.grows.library_eq, hxd.makes.grows.library_eq, hl]
    exact (hf a).same c₁ d₁ (hxc.knows hc) (hxd.knows hd) hl₁ hagree

/-- What is read off the library is the same for both. -/
theorem get {f : Compiler → ExceptT ε (StateM Compiler) β}
    (hf : ∀ c d : Compiler, c.library = d.library → f c = f d) (h : ∀ c, Lockstep engine known (f c)) :
    Lockstep engine known (MonadState.get >>= f) where
  moves c hc := by
    rw [outcome_bind_ok outcome_get]
    exact (h c).moves c hc
  same c d hc hd hl := by
    rw [outcome_bind_ok outcome_get, outcome_bind_ok outcome_get, hf c d hl]
    exact (h d).same c d hc hd hl

theorem adapt {ε' : Type} {g : ε → ε'} (h : Lockstep engine known x) :
    Lockstep engine known (ExceptT.adapt g x) where
  moves c hc := by
    have hx := h.moves c hc
    rw [outcome_adapt]
    refine ⟨hx.makes, fun a ha => ?_⟩
    cases hr : (outcome x c).1 with
    | error e => rw [hr] at ha; cases ha
    | ok b => rw [hr] at ha; cases ha; exact hx.met _ hr
  same c d hc hd hl hagree := by
    rw [outcome_adapt, outcome_adapt] at hagree ⊢
    rw [h.same c d hc hd hl hagree]

theorem compileRule {r : Rule} (hr : known r) : Lockstep engine known (compileRule engine r) where
  moves c hc := by
    have hp := (compileRule_prepared hc.faithful (hc.met r hr)).1
    exact ⟨.rule (.refl c) hc.faithful (hc.met r hr), hp.met⟩
  same c d hc hd hl hagree := by
    obtain ⟨hp, -⟩ := compileRule_prepared hc.faithful (hc.met r hr)
    obtain ⟨hp', -⟩ := compileRule_prepared hd.faithful (hd.met r hr)
    cases hb : c.library.base? with
    | none => rw [compileRule_noBase hc.faithful hb, compileRule_noBase hd.faithful (hl ▸ hb)]
    | some base =>
      have hbase : c.library.base? ≠ none := by simp [hb]
      exact (hp.prepares hbase).agree (hp'.prepares (hl ▸ hbase)) hagree
        ((hc.met r hr).grows hp.grows) ((hd.met r hr).grows hp'.grows)

end Lockstep

end

variable {engine : Engine} {known : Rule → Prop} {line : Text} {stack : Stack} {divide : Division}

/-- Dividing a text is about the rule it is divided under. -/
def Division.Lockstep (engine : Engine) (divide : Division) : Prop :=
  ∀ text scope rule, Grammar.Lockstep engine (mentions rule) (divide text scope rule)

theorem Script.lockstep {α : Type} [Mentions α] {t : Script α} (hd : divide.Lockstep engine)
    (h : t.About line known) : Lockstep engine known (t.run engine divide) := by
  induction t generalizing known with
  | done a => exact .pure h
  | fail e => exact .throw
  | prepare r next ih => exact (Lockstep.compileRule h.1).bind fun rule => ih rule (h.2 rule)
  | part text scope r next ih =>
    refine (Lockstep.compileRule h.1).bind fun rule => ?_
    refine ((hd text scope rule).mono fun _ => .inr).bind fun regions => ?_
    exact (ih regions (h.2.2 regions)).mono fun s hs => .inl (.inl hs)
  | library next ih =>
    exact .get (fun c d hl => by rw [hl]) fun c => ih c.library (h c.library)

theorem Scripted.lockstep {α : Type} [Mentions α] {x : Division → Compile α}
    (h : Scripted engine line known x) (hd : divide.Lockstep engine) :
    Lockstep engine known (x divide) := by
  obtain ⟨t, ht, hx⟩ := h
  rw [hx]
  exact Script.lockstep hd ht

theorem divideAlone_lockstep {divide : Stack → Text → Compile (Stack × List Region)}
    (hd : ∀ stack line, Lockstep engine (mentions stack) (divide stack line)) :
    (divideAlone divide).Lockstep engine := by
  intro text scope rule
  have halone : Lockstep engine (mentions rule) (divide { top := ⟨scope ++ rule.name, rule, none⟩ } text) :=
    (hd _ text).mono fun _ => mentions_alone
  exact halone.bind fun _ => .pure (by rintro r ⟨_, _, ⟨⟩⟩)

theorem divideLine_lockstep {allowed : Allowance} {depth : Nat} :
    Lockstep engine (mentions stack) (divideLine engine allowed depth stack line) := by
  induction depth generalizing stack line with
  | zero => exact .throw
  | succ depth ih =>
    exact (searchLine_scripted divideMatch_scripted).lockstep (divideAlone_lockstep fun _ _ => ih)

theorem tokenizeLines_lockstep {allowed : Allowance} {depth n : Nat} {lines : List Str} :
    Lockstep engine (mentions stack)
      (tokenizeLines (divideLine engine allowed depth) stack n lines) := by
  induction lines generalizing stack n with
  | nil => exact .pure (by rintro r ⟨_, ⟨⟩, _⟩)
  | cons line lines ih =>
    rw [tokenizeLines]
    split
    · exact .throw
    · refine divideLine_lockstep.adapt.bind fun divided => ?_
      obtain ⟨after, regions⟩ := divided
      refine (ih.mono fun r => .inr).bind fun more => .pure ?_
      rintro r ⟨_, _, ⟨⟩⟩

/-! ### Tokenizers that were just made -/

variable {c : Compiler} {g : Grammar}

/-- A compiler that has done nothing yet. -/
theorem faithful_start {library : Library} (hl : library.WellFormed) :
    Compiler.Faithful engine { library } where
  wellFormed := hl
  homes := by rintro id n ⟨⟩
  lists := by rintro key cs ⟨⟩
  ready := by rintro id k ⟨⟩

/-- The rule that holds the patterns of a grammar offers their flattened list. -/
theorem compileRoot_made {root : Compiled} {d : Compiler} (h : Returns (compileRoot engine g) c root d) :
    ∃ choice, root = ⟨none, [g.scopeName], .patternsOnly choice⟩ ∧
      Returns (candidatesOf g g.patterns) c choice.candidates d := by
  obtain ⟨candidates, c₁, hlist, h⟩ := Returns.bind h
  obtain ⟨choice, c₂, hchoice, h⟩ := Returns.bind h
  obtain ⟨rfl, rfl⟩ := Returns.pure h
  have hstate : (outcome (choiceOf engine candidates) c₁).2 = c₁ := Stateless.choiceOf.snd_eq c₁
  rw [show outcome (choiceOf engine candidates) c₁ = (.ok choice, c₂) from hchoice] at hstate
  obtain rfl : c₂ = c₁ := hstate
  exact ⟨choice, rfl, choiceOf_candidates hchoice ▸ hlist⟩

/-- The rule that holds the patterns of a grammar refers to rules that were met. -/
theorem compileRoot_knows {root : Compiled} {d : Compiler} (hc : c.Faithful engine)
    (hg : ∀ r ∈ g.patterns, c.library.Has g r) (h : Returns (compileRoot engine g) c root d) :
    d.Knows engine (mentions root) ∧ d.library = c.library := by
  obtain ⟨choice, rfl, hlist⟩ := compileRoot_made h
  have hgathered := candidatesOf_gathered hc.toListed hg
  rw [show outcome (candidatesOf g g.patterns) c = (.ok choice.candidates, d) from hlist] at hgathered
  refine ⟨⟨hc.grows hgathered.listed hgathered.grows hgathered.compiled_eq, fun r hr => ?_⟩,
    hgathered.grows.library_eq⟩
  obtain ⟨found, ⟨⟩, hr⟩ | ⟨_, ⟨⟩, _⟩ := hr
  exact hgathered.met choice.candidates rfl r hr

end Highlighter.Grammar

namespace Highlighter.Tokenizer

open Highlighter.Grammar

variable {t : Tokenizer}

/-- What a tokenizer keeps is right, and the rules that it starts with were met. -/
def Knows (t : Tokenizer) : Prop := t.compiler.Knows t.engine (mentions t.root)

theorem ofLibrary_knows {engine : Engine} {scope : String} {library : Library} {c : Compiler}
    (hl : library.WellFormed) (h : ofLibrary engine scope library = (.ok t, c)) : t.Knows := by
  obtain ⟨g, hg, rfl, hroot⟩ := ofLibrary_made h
  have hlists : library.Lists (g, g.patterns) := .grammar (Library.find?_mem hg)
  exact (compileRoot_knows (faithful_start hl) hlists.has hroot).1

theorem Knows.rootStack (h : t.Knows) : t.compiler.Knows t.engine (mentions t.rootStack) :=
  h.mono fun _ => mentions_alone

/-- A tokenizer that was just made knows the rules it starts with. -/
theorem loadWith_knows {engine : Engine} {tree : Files.Tree} {path : Files.Path} {scope : String}
    {extras : List (String × Files.Path)} {notes : List Note}
    (h : loadWith engine tree path scope extras = (.ok t, notes)) : t.engine = engine ∧ t.Knows := by
  obtain ⟨library, c, hl, hmade⟩ := loadWith_made h
  obtain ⟨g, -, he, -⟩ := ofLibrary_made hmade
  exact ⟨he, ofLibrary_knows hl hmade⟩

end Highlighter.Tokenizer

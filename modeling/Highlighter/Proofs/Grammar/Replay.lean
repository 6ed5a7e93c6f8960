import Highlighter.Proofs.Grammar.Lockstep

/-! Steps that are taken again. Once all rules are ready that a step asks for, it goes the same way again
and leaves everything as it was; and where it goes too deep, it does so in one division that it asks for. -/

namespace Highlighter.Grammar

open Highlighter.Pattern (Text)

variable {α β : Type} {engine : Engine} {known : Rule → Prop} {line : Text} {c c' d e : Compiler}

/-! ### Rules that are ready -/

/-- All rules that are ready in the second are ready, and the same, in the first. -/
structure Compiler.Recalls (d c : Compiler) : Prop where
  library_eq : d.library = c.library
  compiled : ∀ id k, c.compiled.lookup id = some k → d.compiled.lookup id = some k

theorem Compiler.Recalls.refl (c : Compiler) : c.Recalls c := ⟨rfl, fun _ _ h => h⟩

theorem Compiler.Recalls.of_grows (he : e.Recalls d) (h : c.Grows d) : e.Recalls c :=
  ⟨he.library_eq.trans h.library_eq, fun id k hk => he.compiled id k (h.compiled id k hk)⟩

theorem compileRule_lookup {r : Rule} {rule : Compiled}
    (h : Returns (compileRule engine r) c rule c') : c'.compiled.lookup r.id = some rule := by
  obtain ⟨_, _, hget, h⟩ := Returns.bind h
  obtain ⟨rfl, rfl⟩ : c = _ ∧ c = _ := by simpa [Returns] using hget
  split at h
  · rename_i hk
    obtain ⟨rfl, rfl⟩ := Returns.pure h
    exact hk
  · split at h
    · exact absurd h Returns.throw
    · obtain ⟨compiled, c₁, -, h⟩ := Returns.bind h
      obtain ⟨_, c₂, hm, h⟩ := Returns.bind h
      obtain ⟨rfl, rfl⟩ := Returns.pure h
      obtain rfl : _ = c₂ := congrArg Prod.snd hm
      exact List.lookup_cons_self

theorem compileRule_ready {r : Rule} {rule : Compiled} (h : c.compiled.lookup r.id = some rule) :
    Returns (compileRule engine r) c rule c := by
  rw [Returns, compileRule, outcome_bind_ok outcome_get, h, outcome_pure]

/-- Making a rule ready asks for no division. -/
theorem compileRule_shallow {r : Rule} (hc : c.Faithful engine) (hr : c.Met r) :
    (outcome (compileRule engine r) c).1 ≠ .error .tooDeep := by
  cases hb : c.library.base? with
  | none => simp [compileRule_noBase hc hb]
  | some base =>
    have hp := (compileRule_prepared hc hr).1.prepares (by simp [hb])
    unfold Compiler.Prepares at hp
    split at hp
    · simp [hp]
    · obtain ⟨candidates, -, hp⟩ := hp
      obtain ⟨result, hne, hresult⟩ : Stateless (choiceOf engine candidates) := .choiceOf
      rw [hp, hresult]
      cases result with
      | ok choice => simp [Except.map]
      | error e => simpa [Except.map] using hne

/-! ### Divisions that go on from others -/

/-- Whatever the first gives, the second gives again once all rules are ready, and keeps all as it was. -/
def Division.Repeats (engine : Engine) (divide divide' : Division) : Prop :=
  ∀ {text scope rule c regions c'}, c.Knows engine (mentions rule) →
    Returns (divide text scope rule) c regions c' →
    ∀ d : Compiler, d.Recalls c' → Returns (divide' text scope rule) d regions d

/-- The step fails for one of some reasons. -/
def FailsBy (bad : Failure → Prop) (x : Compile α) (c : Compiler) : Prop :=
  ∃ e, bad e ∧ (outcome x c).1 = .error e

variable {bad : Failure → Prop} {x : Compile α} {f : α → Compile β}

theorem FailsBy.bind (h : FailsBy bad x c) : FailsBy bad (x >>= f) c := by
  obtain ⟨e, he, hx⟩ := h
  exact ⟨e, he, by rw [outcome_bind_error (Prod.ext hx rfl)]⟩

theorem failsBy_bind_ok {a : α} (h : Returns x c a d) :
    FailsBy bad (x >>= f) c ↔ FailsBy bad (f a) d := by
  rw [FailsBy, FailsBy, outcome_bind_ok h]

theorem failsBy_map {f : α → β} : FailsBy bad (f <$> x) c ↔ FailsBy bad x c := by
  rw [FailsBy, FailsBy, outcome_map]
  rcases outcome x c with ⟨e | a, c'⟩ <;> simp [Except.map]

/-- Captures go too deep within captures. -/
abbrev TooDeep (x : Compile α) (c : Compiler) : Prop := FailsBy (· = .tooDeep) x c

/-- The second does what the first does, unless the first fails for one of some reasons. -/
def Division.Continues (engine : Engine) (bad : Failure → Prop) (divide divide' : Division) : Prop :=
  ∀ {text scope rule c}, c.Knows engine (mentions rule) →
    ¬ FailsBy bad (divide text scope rule) c →
    outcome (divide' text scope rule) c = outcome (divide text scope rule) c

/-- What a step in lockstep returns. -/
theorem Lockstep.returns [Mentions α] {x : Compile α} {a : α} (hx : Lockstep engine known x)
    (hc : c.Knows engine known) (h : Returns x c a d) :
    (d.Knows engine fun r => known r ∨ mentions a r) ∧ c.Grows d := by
  have hm := hx.moves c hc
  rw [show outcome x c = (.ok a, d) from h] at hm
  exact ⟨hm.knows hc, hm.makes.grows⟩

variable [Mentions α] {divide divide' : Division} {t : Script α} {a : α}

theorem Script.repeats (hd : divide.Lockstep engine) (hr : divide.Repeats engine divide')
    (ht : t.About line known) (hc : c.Knows engine known)
    (h : Returns (t.run engine divide) c a c') :
    c.Grows c' ∧ ∀ d : Compiler, d.Recalls c' → Returns (t.run engine divide') d a d := by
  have hgrows := ((Script.lockstep hd ht).returns hc h).2
  refine ⟨hgrows, fun d hrecalls => ?_⟩
  induction t generalizing known c with
  | done a =>
    obtain ⟨rfl, rfl⟩ := Returns.pure h
    rfl
  | fail e => exact absurd h Returns.throw
  | prepare r next ih =>
    obtain ⟨rule, c₁, hrule, rest⟩ := Returns.bind h
    obtain ⟨hc₁, -⟩ := (Lockstep.compileRule ht.1).returns hc hrule
    have hgrows₁ := ((Script.lockstep hd (ht.2 rule)).returns hc₁ rest).2
    have hready := (hrecalls.of_grows hgrows₁).compiled _ _ (compileRule_lookup hrule)
    exact .bind_intro (compileRule_ready hready) (ih rule (ht.2 rule) hc₁ rest hgrows₁)
  | part text scope r next ih =>
    obtain ⟨rule, c₁, hrule, rest⟩ := Returns.bind h
    obtain ⟨regions, c₂, hregions, rest⟩ := Returns.bind rest
    obtain ⟨hc₁, -⟩ := (Lockstep.compileRule ht.1).returns hc hrule
    have hrule₁ : c₁.Knows engine (mentions rule) := hc₁.mono fun _ => .inr
    have hc₂ := ((hd text scope rule).mono fun _ => .inr).returns hc₁ hregions
    have hknown : c₂.Knows engine known := hc₂.1.mono fun _ h => .inl (.inl h)
    have hgrows₂ := ((Script.lockstep hd (ht.2.2 regions)).returns hknown rest).2
    have hready := (hrecalls.of_grows (hc₂.2.trans hgrows₂)).compiled _ _ (compileRule_lookup hrule)
    exact .bind_intro (compileRule_ready hready)
      (.bind_intro (hr hrule₁ hregions d (hrecalls.of_grows hgrows₂))
        (ih regions (ht.2.2 regions) hknown rest hgrows₂))
  | library next ih =>
    obtain ⟨c₁, c₂, hget, rest⟩ := Returns.bind h
    obtain ⟨rfl, rfl⟩ : c = c₁ ∧ c = c₂ := by simpa [Returns] using hget
    have hlibrary : d.library = c.library := hrecalls.library_eq.trans hgrows.library_eq
    have hread : Returns (get : Compile Compiler) d d d := outcome_get
    refine hread.bind_intro ?_
    rw [hlibrary]
    exact ih c.library (ht c.library) hc rest hgrows

theorem Script.continues {bad : Failure → Prop} (hd : divide.Lockstep engine)
    (hk : divide.Continues engine bad divide') (ht : t.About line known)
    (hc : c.Knows engine known) (h : ¬ FailsBy bad (t.run engine divide) c) :
    outcome (t.run engine divide') c = outcome (t.run engine divide) c := by
  induction t generalizing known c with
  | done a => rfl
  | fail e => rfl
  | prepare r next ih =>
    rw [run, run, outcome_bind, outcome_bind]
    rcases hrule : outcome (compileRule engine r) c with ⟨e | rule, c₁⟩
    · rfl
    · have hc₁ := ((Lockstep.compileRule ht.1).returns hc hrule).1
      exact ih rule (ht.2 rule) hc₁ fun hf => h ((failsBy_bind_ok hrule).mpr hf)
  | part text scope r next ih =>
    rw [run, run, outcome_bind, outcome_bind]
    rcases hrule : outcome (compileRule engine r) c with ⟨e | rule, c₁⟩
    · rfl
    · have hc₁ := ((Lockstep.compileRule ht.1).returns hc hrule).1
      have hfine (hf) := h ((failsBy_bind_ok hrule).mpr hf)
      have hsame := hk (hc₁.mono fun _ => .inr) fun hf => hfine hf.bind
      dsimp only
      rw [outcome_bind, outcome_bind, hsame]
      rcases hregions : outcome (divide text scope rule) c₁ with ⟨e | regions, c₂⟩
      · rfl
      · have hc₂ := (((hd text scope rule).mono fun _ => .inr).returns hc₁ hregions).1
        exact ih regions (ht.2.2 regions) (hc₂.mono fun _ h => .inl (.inl h))
          fun hf => hfine ((failsBy_bind_ok hregions).mpr hf)
  | library next ih => exact ih c.library (ht c.library) hc h

/-! ### Divisions that go too deep -/

/-- A division of a text under a rule that is ready. -/
structure Call where
  source : Rule
  text : Text
  scope : Scope
  rule : Compiled
  state : Compiler

/-- A division that a step asks for and that goes too deep. Whatever goes on from the divisions before it
asks for it again, and so does whatever repeats them. -/
structure Descends (engine : Engine) (line : Text) (divide : Division) (x : Division → Compile α)
    (c : Compiler) (call : Call) : Prop where
  ready : call.state.compiled.lookup call.source.id = some call.rule
  met : call.state.Met call.source
  knows : call.state.Knows engine (mentions call.rule)
  within : ∃ start stop, call.text = line.extract start stop
  grows : c.Grows call.state
  deep : TooDeep (divide call.text call.scope call.rule) call.state
  again : ∀ {divide' : Division}, divide.Continues engine (· = .tooDeep) divide' →
    TooDeep (divide' call.text call.scope call.rule) call.state → TooDeep (x divide') c
  later : ∀ {divide' : Division}, divide.Repeats engine divide' → ∀ e : Compiler, e.Recalls call.state →
    TooDeep (divide' call.text call.scope call.rule) e → TooDeep (x divide') e

theorem compileRule_not_deep {r : Rule} {e : Failure} {f : Compiled → Compile β}
    (hc : c.Knows engine known) (hr : known r)
    (h : outcome (compileRule engine r) c = (.error e, d)) : ¬ TooDeep (compileRule engine r >>= f) c := by
  rintro ⟨e', rfl, hdeep⟩
  rw [outcome_bind_error h] at hdeep
  cases hdeep
  exact compileRule_shallow hc.faithful (hc.met r hr) (congrArg Prod.fst h)

theorem Script.descends (hd : divide.Lockstep engine) (ht : t.About line known)
    (hc : c.Knows engine known) (h : TooDeep (t.run engine divide) c) :
    ∃ call, Descends engine line divide (fun divide => t.run engine divide) c call := by
  induction t generalizing known c with
  | done a => obtain ⟨e, rfl, h⟩ := h; cases h
  | fail e =>
    obtain ⟨e', rfl, h⟩ := h
    cases h
    exact absurd rfl ht
  | prepare r next ih =>
    rcases hrule : outcome (compileRule engine r) c with ⟨e | rule, c₁⟩
    · exact absurd h (compileRule_not_deep hc ht.1 hrule)
    · obtain ⟨hc₁, hgrows⟩ := (Lockstep.compileRule ht.1).returns hc hrule
      obtain ⟨call, hcall⟩ := ih rule (ht.2 rule) hc₁ ((failsBy_bind_ok hrule).mp h)
      refine ⟨call, { hcall with grows := hgrows.trans hcall.grows, again := ?_, later := ?_ }⟩
      · intro divide' hk hdeep
        exact (failsBy_bind_ok hrule).mpr (hcall.again hk hdeep)
      · intro divide' hr e he hdeep
        have hready := (he.of_grows hcall.grows).compiled _ _ (compileRule_lookup hrule)
        exact (failsBy_bind_ok (compileRule_ready hready)).mpr (hcall.later hr e he hdeep)
  | part text scope r next ih =>
    rcases hrule : outcome (compileRule engine r) c with ⟨e | rule, c₁⟩
    · exact absurd h (compileRule_not_deep hc ht.1 hrule)
    · obtain ⟨hc₁, hgrows⟩ := (Lockstep.compileRule ht.1).returns hc hrule
      have hrule₁ : c₁.Knows engine (mentions rule) := hc₁.mono fun _ => .inr
      have h := (failsBy_bind_ok hrule).mp h
      rcases hregions : outcome (divide text scope rule) c₁ with ⟨e | regions, c₂⟩
      · refine ⟨⟨r, text, scope, rule, c₁⟩, compileRule_lookup hrule, (hc.met r ht.1).grows hgrows,
          hrule₁, ht.2.1, hgrows, ?_, ?_, ?_⟩
        · obtain ⟨e', rfl, h⟩ := h
          rw [outcome_bind_error hregions] at h
          cases h
          exact ⟨_, rfl, congrArg Prod.fst hregions⟩
        · intro divide' hk hdeep
          exact (failsBy_bind_ok hrule).mpr hdeep.bind
        · intro divide' hr e he hdeep
          have hready := he.compiled _ _ (compileRule_lookup hrule)
          exact (failsBy_bind_ok (compileRule_ready hready)).mpr hdeep.bind
      · obtain ⟨hc₂, hgrows₂⟩ := ((hd text scope rule).mono fun _ => .inr).returns hc₁ hregions
        obtain ⟨call, hcall⟩ := ih regions (ht.2.2 regions) (hc₂.mono fun _ h => .inl (.inl h))
          ((failsBy_bind_ok hregions).mp h)
        refine ⟨call, { hcall with
          grows := (hgrows.trans hgrows₂).trans hcall.grows, again := ?_, later := ?_ }⟩
        · intro divide' hk hdeep
          have hsame : Returns (divide' text scope rule) c₁ regions c₂ := by
            rw [Returns, hk hrule₁, hregions]
            rintro ⟨e, -, he⟩
            rw [hregions] at he
            cases he
          exact (failsBy_bind_ok hrule).mpr ((failsBy_bind_ok hsame).mpr (hcall.again hk hdeep))
        · intro divide' hr e he hdeep
          have he₂ := he.of_grows hcall.grows
          have hready := (he₂.of_grows hgrows₂).compiled _ _ (compileRule_lookup hrule)
          exact (failsBy_bind_ok (compileRule_ready hready)).mpr
            ((failsBy_bind_ok (hr hrule₁ hregions e he₂)).mpr (hcall.later hr e he hdeep))
  | library next ih =>
    obtain ⟨call, hcall⟩ := ih c.library (ht c.library) hc h
    refine ⟨call, { hcall with again := fun hk hdeep => hcall.again hk hdeep, later := ?_ }⟩
    intro divide' hr e he hdeep
    have hlibrary : e.library = c.library := (he.of_grows hcall.grows).library_eq
    change TooDeep ((next e.library).run engine divide') e
    rw [hlibrary]
    exact hcall.later hr e he hdeep

/-! ### Scripted steps -/

section
variable {x : Division → Compile α}

theorem Scripted.repeats (hx : Scripted engine line known x) (hd : divide.Lockstep engine)
    (hr : divide.Repeats engine divide') (hc : c.Knows engine known) (h : Returns (x divide) c a c') :
    c.Grows c' ∧ ∀ d : Compiler, d.Recalls c' → Returns (x divide') d a d := by
  obtain ⟨t, ht, hx⟩ := hx
  rw [hx] at h ⊢
  exact Script.repeats hd hr ht hc h

theorem Scripted.continues {bad : Failure → Prop} (hx : Scripted engine line known x)
    (hd : divide.Lockstep engine) (hk : divide.Continues engine bad divide')
    (hc : c.Knows engine known) (h : ¬ FailsBy bad (x divide) c) :
    outcome (x divide') c = outcome (x divide) c := by
  obtain ⟨t, ht, hx⟩ := hx
  rw [hx] at h
  rw [hx, hx]
  exact Script.continues hd hk ht hc h

theorem Scripted.descends (hx : Scripted engine line known x) (hd : divide.Lockstep engine)
    (hc : c.Knows engine known) (h : TooDeep (x divide) c) :
    ∃ call, Descends engine line divide x c call := by
  obtain ⟨t, ht, hx⟩ := hx
  obtain rfl : x = fun divide => t.run engine divide := funext hx
  exact Script.descends hd ht hc h

end

/-! ### Lines -/

variable {allowed : Allowance} {depth depth' : Nat}

theorem divideAlone_eq {divide : Stack → Text → Compile (Stack × List Region)} {text : Text}
    {scope : Scope} {rule : Compiled} :
    divideAlone divide text scope rule =
      (·.2) <$> divide ⟨⟨scope ++ rule.name, rule, none⟩, [], []⟩ text := by
  rw [map_eq_pure_bind]
  rfl

theorem Compiler.Knows.alone {scope : Scope} {rule : Compiled} (h : c.Knows engine (mentions rule)) :
    c.Knows engine (mentions (⟨⟨scope, rule, none⟩, [], []⟩ : Stack)) :=
  h.mono fun _ => mentions_alone

/-- How captures are divided within a line. -/
abbrev parts (engine : Engine) (allowed : Allowance) (depth : Nat) : Division :=
  divideAlone (divideLine engine allowed depth)

theorem tooDeep_parts {text : Text} {scope : Scope} {rule : Compiled} :
    TooDeep (parts engine allowed depth text scope rule) c ↔
      TooDeep (divideLine engine allowed depth ⟨⟨scope ++ rule.name, rule, none⟩, [], []⟩ text) c := by
  unfold TooDeep parts
  rw [divideAlone_eq, failsBy_map]

theorem parts_lockstep : (parts engine allowed depth).Lockstep engine :=
  divideAlone_lockstep fun _ _ => divideLine_lockstep

theorem parts_repeats (h : depth ≤ depth') :
    (parts engine allowed depth).Repeats engine (parts engine allowed depth') := by
  intro text scope rule c regions c' hc hr d hd
  induction depth generalizing depth' text scope rule c regions c' d with
  | zero =>
    obtain ⟨_, _, hr, -⟩ := Returns.bind hr
    exact absurd hr Returns.throw
  | succ depth ih =>
    obtain ⟨depth', rfl⟩ : ∃ n, depth' = n + 1 := ⟨depth' - 1, by omega⟩
    obtain ⟨⟨after, rs⟩, c₁, hline, rest⟩ := Returns.bind hr
    obtain ⟨rfl, rfl⟩ := Returns.pure rest
    have hagain := (searchLine_scripted divideMatch_scripted).repeats parts_lockstep
      (ih (Nat.le_of_succ_le_succ h)) hc.alone hline
    exact .bind_intro (hagain.2 d hd) rfl

/-- Where captures do not go too deep, more depth makes no difference. -/
theorem divideLine_continues {stack : Stack} (h : depth ≤ depth') (hc : c.Knows engine (mentions stack))
    (hdeep : ¬ TooDeep (divideLine engine allowed depth stack line) c) :
    outcome (divideLine engine allowed depth' stack line) c =
      outcome (divideLine engine allowed depth stack line) c := by
  induction depth generalizing depth' stack line c with
  | zero => exact absurd ⟨_, rfl, rfl⟩ hdeep
  | succ depth ih =>
    obtain ⟨depth', rfl⟩ : ∃ n, depth' = n + 1 := ⟨depth' - 1, by omega⟩
    refine (searchLine_scripted divideMatch_scripted).continues parts_lockstep ?_ hc hdeep
    intro text scope rule c hc hdeep
    rw [divideAlone_eq, failsBy_map] at hdeep
    rw [divideAlone_eq, divideAlone_eq, outcome_map, outcome_map, ih (by omega) hc.alone hdeep]

theorem parts_continues (h : depth ≤ depth') :
    (parts engine allowed depth).Continues engine (· = .tooDeep) (parts engine allowed depth') := by
  intro text scope rule c hc hdeep
  unfold parts at hdeep ⊢
  rw [divideAlone_eq, failsBy_map] at hdeep
  rw [divideAlone_eq, divideAlone_eq, outcome_map, outcome_map,
    divideLine_continues h hc.alone hdeep]

end Highlighter.Grammar

import Highlighter.Grammar.Tokenizer

/-! What a step that may fail leads to: an answer or a failure, and the state afterwards. A step that is
made of smaller ones returns exactly where all of these do. -/

namespace Highlighter.Grammar

section
variable {ε σ α β : Type} {s s' : σ}

/-- The outcome of a step from a state. -/
def outcome (x : ExceptT ε (StateM σ) α) (s : σ) : Except ε α × σ := x.run.run s

@[simp] theorem outcome_pure (a : α) : outcome (pure a : ExceptT ε (StateM σ) α) s = (.ok a, s) := rfl

@[simp] theorem outcome_throw (e : ε) :
    outcome (throw e : ExceptT ε (StateM σ) α) s = (.error e, s) := rfl

@[simp] theorem outcome_get : outcome (get : ExceptT ε (StateM σ) σ) s = (.ok s, s) := rfl

@[simp] theorem outcome_modify (f : σ → σ) :
    outcome (modify f : ExceptT ε (StateM σ) Unit) s = (.ok (), f s) := rfl

theorem outcome_bind (x : ExceptT ε (StateM σ) α) (f : α → ExceptT ε (StateM σ) β) :
    outcome (x >>= f) s = match outcome x s with
      | (.ok a, s') => outcome (f a) s'
      | (.error e, s') => (.error e, s') := by
  change (ExceptT.bindCont f (outcome x s).1).run (outcome x s).2 = _
  rcases outcome x s with ⟨_ | a, s'⟩ <;> rfl

theorem outcome_bind_ok {x : ExceptT ε (StateM σ) α} {f : α → ExceptT ε (StateM σ) β} {a : α}
    (h : outcome x s = (.ok a, s')) : outcome (x >>= f) s = outcome (f a) s' := by
  rw [outcome_bind, h]

theorem outcome_bind_error {x : ExceptT ε (StateM σ) α} {f : α → ExceptT ε (StateM σ) β} {e : ε}
    (h : outcome x s = (.error e, s')) : outcome (x >>= f) s = (.error e, s') := by
  rw [outcome_bind, h]

theorem outcome_map (f : α → β) (x : ExceptT ε (StateM σ) α) :
    outcome (f <$> x) s = ((outcome x s).1.map f, (outcome x s).2) := by
  rw [map_eq_pure_bind, outcome_bind]
  rcases outcome x s with ⟨_ | a, s'⟩ <;> rfl

theorem outcome_adapt {ε' : Type} (f : ε → ε') (x : ExceptT ε (StateM σ) α) :
    outcome (ExceptT.adapt f x) s = ((outcome x s).1.mapError f, (outcome x s).2) := by
  change ((fun r => (r.1.mapError f, r.2)) (outcome x s)) = _
  rfl

end

/-- The step gives the answer and leaves the second state. -/
def Returns {ε σ α : Type} (x : ExceptT ε (StateM σ) α) (s : σ) (a : α) (s' : σ) : Prop :=
  outcome x s = (.ok a, s')

namespace Returns

variable {ε σ α β : Type} {s s' : σ}

theorem pure {a b : α} (h : Returns (pure a : ExceptT ε (StateM σ) α) s b s') : a = b ∧ s = s' := by
  simpa [Returns] using h

theorem throw {e : ε} {a : α} : ¬ Returns (throw e : ExceptT ε (StateM σ) α) s a s' := by
  simp [Returns]

theorem bind {x : ExceptT ε (StateM σ) α} {f : α → ExceptT ε (StateM σ) β} {b : β}
    (h : Returns (x >>= f) s b s') : ∃ a s₁, Returns x s a s₁ ∧ Returns (f a) s₁ b s' := by
  rw [Returns, outcome_bind] at h
  rcases hx : outcome x s with ⟨_ | a, s₁⟩
  · rw [hx] at h; cases h
  · rw [hx] at h; exact ⟨a, s₁, hx, h⟩

theorem bind_intro {x : ExceptT ε (StateM σ) α} {f : α → ExceptT ε (StateM σ) β} {a : α} {b : β}
    {s₁ : σ} (hx : Returns x s a s₁) (hf : Returns (f a) s₁ b s') : Returns (x >>= f) s b s' :=
  (outcome_bind_ok hx).trans hf

theorem unique {x : ExceptT ε (StateM σ) α} {a b : α} {s₁ : σ} (h : Returns x s a s')
    (h₁ : Returns x s b s₁) : a = b ∧ s' = s₁ := by
  simpa using h.symm.trans h₁

theorem adapt {ε' : Type} {f : ε → ε'} {x : ExceptT ε (StateM σ) α} {a : α}
    (h : Returns (ExceptT.adapt f x) s a s') : Returns x s a s' := by
  rw [Returns, outcome_adapt] at h
  rcases hx : outcome x s with ⟨_ | b, s₁⟩ <;> rw [hx] at h
  · cases h
  · obtain ⟨rfl, rfl⟩ : b = a ∧ s₁ = s' := by cases h; exact ⟨rfl, rfl⟩
    exact hx

theorem adapt_intro {ε' : Type} {f : ε → ε'} {x : ExceptT ε (StateM σ) α} {a : α}
    (h : Returns x s a s') : Returns (ExceptT.adapt f x) s a s' := by
  rw [Returns] at h ⊢
  rw [outcome_adapt, h]
  rfl

theorem answer {x : Except Pattern.PatternError α} {a : α} {c c' : Compiler}
    (h : Returns (answer x) c a c') : x = .ok a ∧ c = c' := by
  unfold Grammar.answer at h
  cases x with
  | ok b => obtain ⟨rfl, rfl⟩ := pure h; exact ⟨rfl, rfl⟩
  | error e => exact absurd h throw

end Returns

/-- From the state, an answer of the step has one property and a failure another. -/
def Gives {ε σ α : Type} (Q : α → Prop) (P : ε → Prop) (x : ExceptT ε (StateM σ) α) (s : σ) : Prop :=
  match (outcome x s).1 with
  | .ok a => Q a
  | .error e => P e

namespace Gives

variable {ε σ α β : Type} {P : ε → Prop} {Q : α → Prop} {Q' : β → Prop} {s s' : σ}
  {x : ExceptT ε (StateM σ) α} {f : α → ExceptT ε (StateM σ) β}

theorem pure {a : α} (h : Q a) : Gives Q P (Pure.pure a : ExceptT ε (StateM σ) α) s := h

theorem throw {e : ε} (h : P e) : Gives Q P (MonadExcept.throw e : ExceptT ε (StateM σ) α) s := h

theorem returns {a : α} (h : Gives Q P x s) (ha : Returns x s a s') : Q a := by
  rwa [Gives, show outcome x s = (.ok a, s') from ha] at h

theorem fails {e : ε} (h : Gives Q P x s) (he : (outcome x s).1 = .error e) : P e := by
  rwa [Gives, he] at h

theorem bind (hx : Gives Q P x s) (hf : ∀ a s', Returns x s a s' → Q a → Gives Q' P (f a) s') :
    Gives Q' P (x >>= f) s := by
  rw [Gives, outcome_bind]
  rcases hr : outcome x s with ⟨e | a, s'⟩
  · exact hx.fails (by rw [hr])
  · exact hf a s' hr (hx.returns hr)

/-- Reading or changing the state does not fail. -/
theorem modifyGet {g : σ → α × σ} {f : α → ExceptT ε (StateM σ) β}
    (hf : Gives Q' P (f (g s).1) (g s).2) :
    Gives Q' P ((MonadState.modifyGet g : ExceptT ε (StateM σ) α) >>= f) s := hf

theorem get {f : σ → ExceptT ε (StateM σ) β} (hf : Gives Q' P (f s) s) :
    Gives Q' P ((MonadState.get : ExceptT ε (StateM σ) σ) >>= f) s := hf

theorem of_fails (h : ∀ e, (outcome x s).1 = .error e → P e) : Gives (fun _ => True) P x s := by
  unfold Gives
  split
  · trivial
  · rename_i e he
    exact h e he

theorem adapt {ε' : Type} {P : ε' → Prop} {g : ε → ε'} (h : Gives Q (fun e => P (g e)) x s) :
    Gives Q P (ExceptT.adapt g x) s := by
  unfold Gives at h ⊢
  rw [outcome_adapt]
  rcases hx : (outcome x s).1 with e | a <;> rw [hx] at h <;> exact h

theorem mapM {f : β → ExceptT ε (StateM σ) α} {l : List β} (hf : ∀ b ∈ l, ∀ s, Gives Q P (f b) s) :
    Gives (fun _ => True) P (l.mapM f) s := by
  induction l generalizing s with
  | nil => exact .pure trivial
  | cons b l ih =>
    rw [List.mapM_cons]
    refine (hf b List.mem_cons_self s).bind fun _ s' _ _ => ?_
    exact (ih fun b' hb' => hf b' (List.mem_cons_of_mem b hb')).bind fun _ _ _ _ => .pure trivial

end Gives

end Highlighter.Grammar

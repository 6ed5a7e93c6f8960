import Highlighter.Proofs.Files.Paths
import Mathlib.Data.List.Forall2

/-! Computations that fail otherwise than they should. Of the failures that a computation can have some are
told to the user; it slips if it ends in another. -/

namespace Highlighter

open Highlighter.Files (bind_eq_ok mapError_eq_ok)

/-- The computation fails, and by none of the failures that are told. -/
def Slips {ε α : Type} (told : ε → Prop) (x : Except ε α) : Prop := ∃ f, x = .error f ∧ ¬ told f

section
variable {ε δ α β : Type} {told : ε → Prop}

theorem not_slips_ok {a : α} : ¬ Slips told (.ok a) := by
  rintro ⟨f, h, -⟩
  cases h

theorem slips_error {f : ε} : Slips told (.error f : Except ε α) ↔ ¬ told f := by
  constructor
  · rintro ⟨f', h, hf⟩
    cases h
    exact hf
  · exact fun h => ⟨f, rfl, h⟩

theorem slips_bind {x : Except ε α} {f : α → Except ε β} :
    Slips told (x >>= f) ↔ Slips told x ∨ ∃ a, x = .ok a ∧ Slips told (f a) := by
  cases x with
  | error e =>
    rw [show (.error e >>= f) = (.error e : Except ε β) from rfl, slips_error, slips_error]
    simp
  | ok a =>
    rw [show (.ok a >>= f) = f a from rfl]
    simp [not_slips_ok]

theorem slips_mapError {g : δ → ε} {x : Except δ α} :
    Slips told (x.mapError g) ↔ Slips (fun f => told (g f)) x := by
  cases x with
  | error e => rw [show (Except.error e : Except δ α).mapError g = .error (g e) from rfl, slips_error, slips_error]
  | ok a => exact ⟨fun h => absurd h not_slips_ok, fun h => absurd h not_slips_ok⟩

/-- What does not slip gives a result or fails as it is told. -/
theorem not_slips_iff {x : Except ε α} :
    ¬ Slips told x ↔ (∃ a, x = .ok a) ∨ ∃ f, x = .error f ∧ told f := by
  cases x with
  | error f => simp [slips_error]
  | ok a => simp [not_slips_ok]

theorem mapM_ok_iff {f : α → Except ε β} {xs : List α} :
    (∃ ys, xs.mapM f = .ok ys) ↔ ∀ x ∈ xs, ∃ y, f x = .ok y := by
  induction xs with
  | nil => exact ⟨fun _ => nofun, fun _ => ⟨[], rfl⟩⟩
  | cons x xs ih =>
    rw [List.forall_mem_cons, ← ih, List.mapM_cons]
    constructor
    · rintro ⟨ys, h⟩
      obtain ⟨y, hy, h⟩ := bind_eq_ok.mp h
      obtain ⟨zs, hzs, -⟩ := bind_eq_ok.mp h
      exact ⟨⟨y, hy⟩, zs, hzs⟩
    · rintro ⟨⟨y, hy⟩, zs, hzs⟩
      exact ⟨y :: zs, bind_eq_ok.mpr ⟨y, hy, bind_eq_ok.mpr ⟨zs, hzs, rfl⟩⟩⟩

/-- What a list gives is what its items give, one by one. -/
theorem forall₂_of_mapM {f : α → Except ε β} {xs : List α} {ys : List β} (h : xs.mapM f = .ok ys) :
    List.Forall₂ (fun x y => f x = .ok y) xs ys := by
  induction xs generalizing ys with
  | nil =>
    cases h
    exact .nil
  | cons x xs ih =>
    rw [List.mapM_cons] at h
    obtain ⟨y, hy, h⟩ := bind_eq_ok.mp h
    obtain ⟨rest, hrest, h⟩ := bind_eq_ok.mp h
    cases h
    exact .cons hy (ih hrest)

/-- The first item that fails decides how a list fails. -/
theorem slips_mapM {f : α → Except ε β} {xs : List α} :
    Slips told (xs.mapM f) ↔ ∃ before x after, xs = before ++ x :: after ∧
      (∀ y ∈ before, ∃ b, f y = .ok b) ∧ Slips told (f x) := by
  induction xs with
  | nil => exact ⟨fun h => absurd h not_slips_ok, by simp⟩
  | cons x xs ih =>
    rw [List.mapM_cons, slips_bind]
    constructor
    · rintro (h | ⟨b, hb, h⟩)
      · exact ⟨[], x, xs, rfl, nofun, h⟩
      · rcases slips_bind.mp h with h | ⟨bs, -, h⟩
        · obtain ⟨before, y, after, rfl, hbefore, hy⟩ := ih.mp h
          exact ⟨x :: before, y, after, rfl, List.forall_mem_cons.mpr ⟨⟨b, hb⟩, hbefore⟩, hy⟩
        · exact absurd h not_slips_ok
    · rintro ⟨before, y, after, hsplit, hbefore, hy⟩
      cases before with
      | nil =>
        cases hsplit
        exact .inl hy
      | cons z before =>
        cases hsplit
        obtain ⟨⟨b, hb⟩, hbefore⟩ := List.forall_mem_cons.mp hbefore
        exact .inr ⟨b, hb, slips_bind.mpr (.inl (ih.mpr ⟨before, y, after, rfl, hbefore, hy⟩))⟩

end

end Highlighter

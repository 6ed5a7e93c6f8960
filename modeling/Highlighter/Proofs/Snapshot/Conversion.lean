import Highlighter.Proofs.Files.Paths
import Highlighter.Snapshot.Entry

/-! Entries of ranges. An entry holds what its range holds, and there is one exactly if its texts can be
written in bytes. -/

namespace Highlighter.Validation

open Highlighter.Decimal (Binary64)

variable {α β γ : Type}

/-- A check that gives one value, under a condition. -/
def Checked.Accepts (x : Checked α) (condition : Prop) (value : α) : Prop :=
  ∀ a, x = .ok a ↔ condition ∧ a = value

namespace Checked

theorem accepts_ok (value : α) : Accepts (.ok value) True value := by
  intro a
  constructor
  · intro h
    cases h
    exact ⟨trivial, rfl⟩
  · rintro ⟨-, rfl⟩
    rfl

theorem Accepts.both {f : Checked (α → β)} {x : Checked α} {P Q : Prop} {g : α → β} {a : α}
    (hf : f.Accepts P g) (hx : x.Accepts Q a) : (Checked.both f x).Accepts (P ∧ Q) (g a) := by
  intro b
  constructor
  · intro h
    cases f with
    | error issues => cases x <;> cases h
    | ok g' =>
      cases x with
      | error issues => cases h
      | ok a' =>
        cases h
        obtain ⟨hP, rfl⟩ := (hf g').mp rfl
        obtain ⟨hQ, rfl⟩ := (hx a').mp rfl
        exact ⟨⟨hP, hQ⟩, rfl⟩
  · rintro ⟨⟨hP, hQ⟩, rfl⟩
    rw [(hf g).mpr ⟨hP, rfl⟩, (hx a).mpr ⟨hQ, rfl⟩]
    rfl

/-- A list is accepted if each of its elements is. -/
theorem Accepts.elements {check : Nat → α → Checked β} {seen : γ → α} {kept : γ → Prop} {value : γ → β}
    (hcheck : ∀ i c, (check i (seen c)).Accepts (kept c) (value c)) (cs : List γ) :
    ∀ i, (Checked.elements check i (cs.map seen)).Accepts (∀ c ∈ cs, kept c) (cs.map value) := by
  induction cs with
  | nil =>
    intro i bs
    exact (accepts_ok [] bs).trans (by simp)
  | cons c cs ih =>
    intro i bs
    have hall := (((accepts_ok List.cons).both (hcheck i c)).both (ih (i + 1))) bs
    rw [List.forall_mem_cons, ← true_and (kept c)]
    exact hall

end Checked

/-- What a library promises of its checks. A text is taken as it is if it has a form in bytes and refused if it
has none, and for an integer of 64 bits is taken what equals it. -/
structure Checker.Faithful (checker : Checker) : Prop where
  text : ∀ place (s : String), checker.text place (some s) = .ok s
  unencodable : ∀ place (s : Str), s.isEncodable = false → ∃ issues, checker.text place (some s) = .error issues
  bool : ∀ place b, checker.integer place (.bool b) = .ok b.toInt
  int : ∀ place n, checker.integer place (.int n) = .ok n
  float : ∀ place (x : Binary64) (n : Int), n.natAbs < 0x8000000000000000 → x.equalsInt n = true →
    checker.integer place (.float x) = .ok n

section
variable {checker : Checker}

end

end Highlighter.Validation

/-- The texts of a range can be written in bytes. -/
structure Highlighter.Styling.StyledRange.IsEncodable (r : Styling.StyledRange) : Prop where
  text : r.text.isEncodable = true
  foreground : r.style.foreground.isEncodable = true
  fontStyle : ∀ s ∈ r.style.fontStyle, s.isEncodable = true
  labels : ∀ s ∈ r.style.trace.map (·.label), s.isEncodable = true
  colors : ∀ s ∈ r.style.colors, s.isEncodable = true

namespace Highlighter.Snapshot

open Highlighter.Files (bind_eq_ok)
open Highlighter.Styling (StyledRange)
open Highlighter.Validation

section
variable {checker : Checker}

end

end Highlighter.Snapshot

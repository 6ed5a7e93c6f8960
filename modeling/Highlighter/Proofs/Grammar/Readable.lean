import Highlighter.Proofs.Files.Paths
import Highlighter.Grammar.Loading

/-! Which grammar documents are read. Beside the name only two things count: the keys of captures that are
written in digits must have values, and rules must not be nested too deeply. -/

namespace Highlighter.Grammar

open Highlighter.Files (Path Tree bind_eq_ok bind_eq_error mapError_eq_ok mapError_eq_error)
open Highlighter.Json (Value Members)

section
variable {ε α β : Type} {f : α → Except ε (Option β)} {l : List α} {e : ε}

theorem filterMapM_ok_iff : (∃ bs, l.filterMapM f = .ok bs) ↔ ∀ a ∈ l, ∃ b, f a = .ok b := by
  induction l with
  | nil => exact ⟨fun _ => nofun, fun _ => ⟨[], rfl⟩⟩
  | cons a l ih =>
    rw [List.forall_mem_cons, ← ih, List.filterMapM_cons]
    constructor
    · rintro ⟨bs, h⟩
      obtain ⟨b, hb, h⟩ := bind_eq_ok.mp h
      refine ⟨⟨b, hb⟩, ?_⟩
      cases b with
      | none => exact ⟨bs, h⟩
      | some b =>
        obtain ⟨cs, hcs, -⟩ := bind_eq_ok.mp h
        exact ⟨cs, hcs⟩
    · rintro ⟨⟨b, hb⟩, cs, hcs⟩
      rw [hb]
      cases b with
      | none => exact ⟨cs, bind_eq_ok.mpr ⟨none, rfl, hcs⟩⟩
      | some b =>
        refine ⟨b :: cs, bind_eq_ok.mpr ⟨some b, rfl, ?_⟩⟩
        exact bind_eq_ok.mpr ⟨cs, hcs, rfl⟩

theorem exists_of_filterMapM_error (h : l.filterMapM f = .error e) : ∃ a ∈ l, f a = .error e := by
  induction l with
  | nil => cases h
  | cons a l ih =>
    rw [List.filterMapM_cons] at h
    rcases bind_eq_error.mp h with ha | ⟨b, -, h⟩
    · exact ⟨a, List.mem_cons_self, ha⟩
    · have hrest : l.filterMapM f = .error e := by
        cases b with
        | none => exact h
        | some b =>
          rcases bind_eq_error.mp h with h | ⟨_, _, h⟩
          · exact h
          · cases h
      obtain ⟨x, hx, he⟩ := ih hrest
      exact ⟨x, List.mem_cons_of_mem a hx, he⟩

theorem forall_mem_zipIdx {p : α → Prop} : (∀ x ∈ l.zipIdx, p x.1) ↔ ∀ a ∈ l, p a := by
  rw [← List.forall_mem_map, List.zipIdx_map_fst]

end

/-! ### Documents that can be read -/

/-- Whether an entry of a list can be read, given whether the rules in it can be. What is no rule is passed
over. -/
def entryReadable (inner : Members → Bool) : Value → Bool
  | .object rule => inner rule
  | _ => true

/-- A key written in digits must stand for a number, which some digits do not, nor do too many of them. A
capture under another key is passed over as well. -/
def captureReadable (inner : Members → Bool) (capture : Str × Value) : Bool :=
  match capture.2 with
  | .object rule =>
    !isGroupKey capture.1 || (capture.1.text?.any fun text => (Text.integer? text.toList).isSome) && inner rule
  | _ => true

def capturesReadable (inner : Members → Bool) : Option Value → Bool
  | some (.object members) => members.all (captureReadable inner)
  | _ => true

def patternsReadable (inner : Members → Bool) : Option Value → Bool
  | some (.array items) => items.all (entryReadable inner)
  | _ => true

def repositoryReadable (inner : Members → Bool) : Option Value → Bool
  | some (.object entries) => entries.all fun entry => entryReadable inner entry.2
  | _ => true

/-- Whether a rule can be read that may hold others to a depth. -/
def ruleReadable : Nat → Members → Bool
  | 0, _ => false
  | depth + 1, members =>
    (["captures", "beginCaptures", "endCaptures", "whileCaptures"].all fun kind =>
      capturesReadable (ruleReadable depth) (Json.find? members kind)) &&
    patternsReadable (ruleReadable depth) (Json.find? members "patterns")

/-- Whether the rules of a document can be read. -/
def documentReadable (members : Members) : Bool :=
  patternsReadable (ruleReadable deepestNesting) (Json.find? members "patterns") &&
    repositoryReadable (ruleReadable deepestNesting) (Json.find? members "repository")

section
variable {read : List Nat → Members → Except ReadError Rule} {inner : Members → Bool} {place : List Nat}
  {kind depth number : Nat} {key : Str} {v : Option Value} {members : Members} {e : ReadError}

theorem groupNumber_ok_iff :
    (∃ n, groupNumber key = .ok n) ↔
      (key.text?.any fun text => (Text.integer? text.toList).isSome) = true := by
  unfold groupNumber
  cases key.text? with
  | none => simp
  | some text => cases hnumber : Text.integer? text.toList <;> simp [hnumber]

/-- The reader of rules gives one exactly for what can be read, wherever it stands. -/
def Decides (read : List Nat → Members → Except ReadError Rule) (inner : Members → Bool) : Prop :=
  ∀ place members, (∃ r, read place members = .ok r) ↔ inner members = true

theorem capturesOf_ok_iff (hread : Decides read inner) :
    (∃ captures, capturesOf read place kind v = .ok captures) ↔ capturesReadable inner v = true := by
  have hnone : (∃ captures, (.ok [] : Except ReadError Captures) = .ok captures) ↔ true = true :=
    ⟨fun _ => rfl, fun _ => ⟨[], rfl⟩⟩
  rcases v with _ | v
  · exact hnone
  cases v with
  | object members =>
    unfold capturesOf capturesReadable
    rw [filterMapM_ok_iff, List.all_eq_true,
      ← forall_mem_zipIdx (p := fun capture => captureReadable inner capture = true)]
    refine forall₂_congr fun x _ => ?_
    obtain ⟨⟨key, v⟩, i⟩ := x
    cases v with
    | object rule =>
      dsimp only
      unfold captureReadable
      by_cases hkey : isGroupKey key = true
      · simp only [hkey, if_true, Bool.not_true, Bool.false_or, Bool.and_eq_true]
        rw [← groupNumber_ok_iff, ← hread (place ++ [kind, i])]
        constructor
        · rintro ⟨b, h⟩
          obtain ⟨n, hn, h⟩ := bind_eq_ok.mp h
          obtain ⟨r, hr, -⟩ := bind_eq_ok.mp h
          exact ⟨⟨n, hn⟩, r, hr⟩
        · rintro ⟨⟨n, hn⟩, r, hr⟩
          exact ⟨some (n, r), bind_eq_ok.mpr ⟨n, hn, bind_eq_ok.mpr ⟨r, hr, rfl⟩⟩⟩
      · simp only [hkey, Bool.not_false, Bool.true_or, iff_true]
        exact ⟨none, rfl⟩
    | _ => exact ⟨fun _ => rfl, fun _ => ⟨none, rfl⟩⟩
  | _ => exact hnone

/-- Entries that are read one by one, each at a place of its own. -/
theorem entries_ok_iff {α β : Type} (hread : Decides read inner) {l : List α} (entry : α → Value)
    (spot : Nat → List Nat) (make : α → Rule → β) :
    (∃ bs, (l.zipIdx.filterMapM fun (a, i) =>
        match entry a with
        | .object rule => (return some (make a (← read (spot i) rule)) : Except ReadError (Option β))
        | _ => return none) = .ok bs) ↔
      l.all (fun a => entryReadable inner (entry a)) = true := by
  rw [filterMapM_ok_iff, List.all_eq_true,
    ← forall_mem_zipIdx (p := fun a => entryReadable inner (entry a) = true)]
  refine forall₂_congr fun x _ => ?_
  obtain ⟨a, i⟩ := x
  dsimp only
  unfold entryReadable
  cases entry a with
  | object rule =>
    dsimp only
    rw [← hread (spot i)]
    constructor
    · rintro ⟨b, h⟩
      obtain ⟨r, hr, -⟩ := bind_eq_ok.mp h
      exact ⟨r, hr⟩
    · rintro ⟨r, hr⟩
      exact ⟨some (make a r), bind_eq_ok.mpr ⟨r, hr, rfl⟩⟩
  | _ => exact ⟨fun _ => rfl, fun _ => ⟨none, rfl⟩⟩

theorem patternsOf_ok_iff (place : List Nat) (hread : Decides read inner) :
    (∃ rules, patternsOf read place v = .ok rules) ↔ patternsReadable inner v = true := by
  rcases v with _ | v
  · exact ⟨fun _ => rfl, fun _ => ⟨[], rfl⟩⟩
  cases v with
  | array items =>
    exact entries_ok_iff hread id (fun i => place ++ [0, i]) fun _ r => r
  | _ => exact ⟨fun _ => rfl, fun _ => ⟨[], rfl⟩⟩

theorem repositoryOf_ok_iff (hread : Decides read inner) :
    (∃ entries, repositoryOf read v = .ok entries) ↔ repositoryReadable inner v = true := by
  rcases v with _ | v
  · exact ⟨fun _ => rfl, fun _ => ⟨[], rfl⟩⟩
  cases v with
  | object entries =>
    exact entries_ok_iff hread Prod.snd (fun i => [1, i]) fun entry r => (entry.1, r)
  | _ => exact ⟨fun _ => rfl, fun _ => ⟨[], rfl⟩⟩

theorem readRule_decides : Decides (readRule number depth) (ruleReadable depth) := by
  induction depth with
  | zero =>
    intro place members
    simp [readRule, ruleReadable]
  | succ depth ih =>
    intro place members
    have hall : ruleReadable (depth + 1) members = true ↔
        (∃ c, capturesOf (readRule number depth) place 1 (Json.find? members "captures") = .ok c) ∧
        (∃ c, capturesOf (readRule number depth) place 2 (Json.find? members "beginCaptures") = .ok c) ∧
        (∃ c, capturesOf (readRule number depth) place 3 (Json.find? members "endCaptures") = .ok c) ∧
        (∃ c, capturesOf (readRule number depth) place 4 (Json.find? members "whileCaptures") = .ok c) ∧
        ∃ p, patternsOf (readRule number depth) place (Json.find? members "patterns") = .ok p := by
      simp only [capturesOf_ok_iff ih, patternsOf_ok_iff place ih, ruleReadable, List.all_cons, List.all_nil,
        Bool.and_true, Bool.and_eq_true, and_assoc]
    rw [hall]
    unfold readRule
    simp only [bind_eq_ok]
    constructor
    · rintro ⟨r, c, hc, b, hb, e, he, w, hw, p, hp, -⟩
      exact ⟨⟨c, hc⟩, ⟨b, hb⟩, ⟨e, he⟩, ⟨w, hw⟩, p, hp⟩
    · rintro ⟨⟨c, hc⟩, ⟨b, hb⟩, ⟨e, he⟩, ⟨w, hw⟩, p, hp⟩
      exact ⟨_, c, hc, b, hb, e, he, w, hw, p, hp, rfl⟩

/-! ### What reading a document leads to -/

/-- The reader of rules never finds a scope missing. -/
def Named (read : List Nat → Members → Except ReadError Rule) : Prop :=
  ∀ place members, read place members ≠ .error .noScope

theorem capturesOf_ne_noScope (hread : Named read) : capturesOf read place kind v ≠ .error .noScope := by
  intro h
  rcases v with _ | v
  · cases h
  cases v with
  | object members =>
    obtain ⟨⟨⟨key, v⟩, i⟩, -, h⟩ := exists_of_filterMapM_error h
    cases v with
    | object rule =>
      dsimp only at h
      split at h
      · rcases bind_eq_error.mp h with h | ⟨n, -, h⟩
        · unfold groupNumber at h
          split at h <;> cases h
        · rcases bind_eq_error.mp h with h | ⟨r, -, h⟩
          · exact hread _ _ h
          · cases h
      · cases h
    | _ => cases h
  | _ => cases h

theorem entries_ne_noScope {α β : Type} (hread : Named read) {l : List α} (entry : α → Value)
    (spot : Nat → List Nat) (make : α → Rule → β) :
    (l.zipIdx.filterMapM fun (a, i) =>
      match entry a with
      | .object rule => (return some (make a (← read (spot i) rule)) : Except ReadError (Option β))
      | _ => return none) ≠ .error .noScope := by
  intro h
  obtain ⟨⟨a, i⟩, -, h⟩ := exists_of_filterMapM_error h
  dsimp only at h
  cases hentry : entry a with
  | object rule =>
    rw [hentry] at h
    rcases bind_eq_error.mp h with h | ⟨r, -, h⟩
    · exact hread _ _ h
    · cases h
  | _ =>
    rw [hentry] at h
    cases h

theorem patternsOf_ne_noScope (hread : Named read) : patternsOf read place v ≠ .error .noScope := by
  rcases v with _ | v
  · nofun
  cases v with
  | array items => exact entries_ne_noScope hread id (fun i => place ++ [0, i]) fun _ r => r
  | _ => nofun

theorem repositoryOf_ne_noScope (hread : Named read) : repositoryOf read v ≠ .error .noScope := by
  rcases v with _ | v
  · nofun
  cases v with
  | object entries =>
    exact entries_ne_noScope hread Prod.snd (fun i => [1, i]) fun entry r => (entry.1, r)
  | _ => nofun

theorem readRule_named : Named (readRule number depth) := by
  induction depth with
  | zero =>
    intro place members h
    cases h
  | succ depth ih =>
    intro place members h
    unfold readRule at h
    dsimp only at h
    iterate 4
      rcases bind_eq_error.mp h with h | ⟨_, -, h⟩
      · exact capturesOf_ne_noScope ih h
    rcases bind_eq_error.mp h with h | ⟨_, -, h⟩
    · exact patternsOf_ne_noScope ih h
    · cases h

/-- The scope of a grammar: one from outside, or the document's own. -/
def nameIn (scope : Option String) (members : Members) : Str :=
  nameOf scope ((Json.find? members "scopeName").bind (·.string?))

/-- A document with a name fails to be read only for its rules. -/
theorem ofDocument_error_iff {scope : Option String} :
    (∃ e, ofDocument number scope members = .error e ∧ e ≠ .noScope) ↔
      nameIn scope members ≠ "" ∧ documentReadable members = false := by
  unfold ofDocument nameIn
  dsimp only
  split
  · rename_i hname
    have hname : nameOf scope ((Json.find? members "scopeName").bind (·.string?)) = "" := by
      simpa using hname
    constructor
    · rintro ⟨e, h, hne⟩
      cases h
      exact absurd rfl hne
    · rintro ⟨hne, -⟩
      exact absurd hname hne
  · rename_i hname
    have hname : nameOf scope ((Json.find? members "scopeName").bind (·.string?)) ≠ "" := by
      simpa using hname
    have hread : Decides (readRule number deepestNesting) (ruleReadable deepestNesting) := readRule_decides
    unfold documentReadable
    rw [Bool.and_eq_false_iff, ← Bool.not_eq_true, ← Bool.not_eq_true,
      ← patternsOf_ok_iff [0] hread, ← repositoryOf_ok_iff hread]
    constructor
    · rintro ⟨e, h, -⟩
      refine ⟨hname, ?_⟩
      rcases bind_eq_error.mp h with h | ⟨patterns, -, h⟩
      · left
        rintro ⟨_, hok⟩
        rw [h] at hok
        cases hok
      · rcases bind_eq_error.mp h with h | ⟨_, _, h⟩
        · right
          rintro ⟨_, hok⟩
          rw [h] at hok
          cases hok
        · cases h
    · rintro ⟨-, hbad⟩
      cases hp : patternsOf (readRule number deepestNesting) [0] (Json.find? members "patterns") with
      | error e =>
        refine ⟨e, bind_eq_error.mpr (.inl rfl), ?_⟩
        rintro rfl
        exact patternsOf_ne_noScope readRule_named hp
      | ok patterns =>
        cases hr : repositoryOf (readRule number deepestNesting) (Json.find? members "repository") with
        | error e =>
          refine ⟨e, bind_eq_error.mpr (.inr ⟨patterns, rfl, bind_eq_error.mpr (.inl rfl)⟩), ?_⟩
          rintro rfl
          exact repositoryOf_ne_noScope readRule_named hr
        | ok repository =>
          rcases hbad with hbad | hbad
          · exact absurd ⟨patterns, hp⟩ hbad
          · exact absurd ⟨repository, hr⟩ hbad

end

end Highlighter.Grammar

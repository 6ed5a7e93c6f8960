import Highlighter.Grammar.Loading
import Highlighter.Proofs.Grammar.Outcome

/-! Documents, one after another. A tokenizer goes through a document line by line; what it made ready
for one document is still there for the next, and all else about it stays. -/

namespace Highlighter.Grammar

open Highlighter.Pattern (Text)

@[simp] theorem size_searched (line : String) : (searched line).size = line.length + 1 := by
  simp [searched, String.length_toList]

/-- The tokens of a document's first line come before those of the others. -/
theorem tokenizeLines_cons {divide : Stack → Text → Compile (Stack × List Region)} {stack : Stack}
    {n : Nat} {line : Str} {rest : List Str} {c c' : Compiler} {tokens : List Token}
    (h : Returns (tokenizeLines divide stack n (line :: rest)) c tokens c') :
    ∃ (text : String) (after : Stack) (regions : List Region) (c₁ : Compiler) (more : List Token), line = text ∧
      Returns (divide stack (searched text)) c (after, regions) c₁ ∧
      Returns (tokenizeLines divide after (n + 1) rest) c₁ more c' ∧
      tokens = regions.filterMap (tokenOf n text.length) ++ more := by
  rw [tokenizeLines] at h
  split at h
  · exact absurd h Returns.throw
  · rename_i text htext
    obtain ⟨⟨after, regions⟩, c₁, hd, h⟩ := Returns.bind h
    obtain ⟨more, c₂, hm, h⟩ := Returns.bind h
    obtain ⟨rfl, rfl⟩ := Returns.pure h
    exact ⟨text, after, regions, c₁, more, Str.text?_eq_some.mp htext, hd.adapt, hm, rfl⟩

end Highlighter.Grammar

/-! ### Failures -/

namespace Highlighter

/-- The user is told of the failure as one of a grammar. -/
def LoadFailure.Told : LoadFailure → Prop
  | .grammar _ => True
  | .list _ | .groupNumber | .tooDeep | .path _ | .file _ | .rule _ => False

theorem LoadFailure.told_iff {f : LoadFailure} : f.Told ↔ ∃ e, f = .grammar e := by
  cases f <;> simp [Told]

/-- The failure is one of a pattern about which something can be said. -/
def Grammar.Failure.Told : Grammar.Failure → Prop
  | .pattern e => e.message?.isSome = true
  | _ => False

theorem Tokenizer.failureAt_told {scope : String} {line : Option Nat} {f : Grammar.Failure} :
    (failureAt scope line f).Told ↔ f.Told := by
  unfold failureAt
  cases f with
  | pattern e =>
    cases hmessage : e.message? <;> cases line <;>
      simp [LoadFailure.Told, Grammar.Failure.Told, hmessage]
  | _ => simp [LoadFailure.Told, Grammar.Failure.Told]

theorem Tokenizer.failureAt_untold {scope : String} {line : Option Nat} {f : Grammar.Failure}
    (h : ¬ f.Told) : failureAt scope line f = .rule f := by
  unfold failureAt
  cases f with
  | pattern e =>
    cases hmessage : e.message? with
    | none => simp only [hmessage]
    | some message => exact absurd (show e.message?.isSome = true by rw [hmessage]; rfl) h
  | _ => rfl

end Highlighter

/-! ### Runs -/

namespace Highlighter.Tokenizer

open Highlighter.Grammar

variable {t : Tokenizer} {divide : Stack → Pattern.Text → Compile (Stack × List Region)}
  {content : Str} {tokens : List Token}

/-- A tokenizer that has gone through documents. -/
def after (t : Tokenizer) (documents : List Str) : Tokenizer :=
  documents.foldl (fun t content => (t.tokenize content).2.1) t

theorem tokenizeBy_ok : (t.tokenizeBy divide content).1 = .ok tokens ↔
    ∃ c, Returns (tokenizeLines divide t.rootStack 0 content.lines) t.compiler tokens c := by
  unfold tokenizeBy
  change (Except.mapError _ (outcome (tokenizeLines _ _ _ _) t.compiler).1) = _ ↔ _
  unfold Returns
  rcases outcome (tokenizeLines divide t.rootStack 0 content.lines) t.compiler with
    ⟨_ | a, c⟩
  · exact ⟨nofun, nofun⟩
  · constructor
    · intro h
      cases h
      exact ⟨c, rfl⟩
    · rintro ⟨_, h⟩
      cases h
      rfl

/-- A tokenizer over grammars is made of the main one's patterns. -/
theorem ofLibrary_made {engine : Engine} {scope : String} {library : Library} {c : Compiler}
    (h : ofLibrary engine scope library = (.ok t, c)) :
    ∃ g, library.mainGrammar? = some g ∧ t.engine = engine ∧
      Returns (compileRoot engine g) { library } t.root t.compiler := by
  unfold ofLibrary at h
  dsimp only at h
  split at h
  · cases h
  · rename_i g hg
    split at h
    · rename_i root compiler hr
      cases h
      exact ⟨g, hg, rfl, hr⟩
    · cases h

theorem compileRoot_name {engine : Engine} {g : Grammar} {root : Compiled} {c c' : Compiler}
    (h : Returns (compileRoot engine g) c root c') : root.name = [g.scopeName] := by
  obtain ⟨candidates, c₁, -, h⟩ := Returns.bind h
  obtain ⟨choice, c₂, -, h⟩ := Returns.bind h
  obtain ⟨rfl, -⟩ := Returns.pure h
  rfl

/-- Only what was made ready is different after documents. -/
theorem after_eq (documents : List Str) :
    t.after documents = { t with compiler := (t.after documents).compiler } := by
  induction documents generalizing t with
  | nil => rfl
  | cons content documents ih =>
    have h := ih (t := (t.tokenize content).2.1)
    rwa [after, List.foldl_cons]

/-- What a run of a tokenizer gives, if the tokenizer was made and the run comes to an end. -/
def resultOf {α β : Type} (made : Except LoadFailure Tokenizer × β)
    (run : Tokenizer → Except LoadFailure α) : Option α :=
  match made with
  | (.ok t, _) => (run t).toOption
  | (.error _, _) => none

theorem resultOf_eq {α β : Type} {made : Except LoadFailure Tokenizer × β}
    {run : Tokenizer → Except LoadFailure α} {a : α} (h : resultOf made run = some a) :
    ∃ t b, made = (.ok t, b) ∧ run t = .ok a := by
  unfold resultOf at h
  split at h
  · rename_i t b
    refine ⟨t, b, rfl, ?_⟩
    cases hr : run t with
    | error e => rw [hr] at h; cases h
    | ok a => rw [hr] at h; cases h; rfl
  · cases h

end Highlighter.Tokenizer

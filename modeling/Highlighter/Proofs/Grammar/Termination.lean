import Highlighter.Proofs.Grammar.Looping
import Highlighter.Proofs.Grammar.Nesting

/-! Whether a line comes to an end. No more than a number of searches and a depth of captures, both read off
the library and the line, has to be tried to find that out. -/

namespace Highlighter.Grammar

open Highlighter.Pattern (Text)

variable {α : Type} {engine : Engine} {allowed more : Allowance} {line : Text} {c d : Compiler}
  {stack : Stack} {depth : Nat} {bad : Failure → Prop} {divide : Division}

/-- A search or a nesting of captures was given up. -/
def Failure.Unending (e : Failure) : Prop := e = .endless ∨ e = .tooDeep

/-- The step comes to an end of its own, with an answer or a failure. -/
def Ends (x : Compile α) (c : Compiler) : Prop := ¬ FailsBy Failure.Unending x c

theorem failsBy_congr {x y : Compile α} (h : outcome x c = outcome y c) :
    FailsBy bad x c ↔ FailsBy bad y c := by
  rw [FailsBy, FailsBy, h]

theorem parts_steady : (parts engine searchBound depth).Steady engine :=
  ⟨parts_lockstep, parts_repeats (Nat.le_refl _), divideAlone_onto divideLine_onto⟩

/-! ### More searches -/

/-- The searches that a line may take make no difference if they make none to the loop it comes to. -/
theorem searchLine_turns (hd : divide.Lockstep engine) (hc : c.Knows engine (mentions stack))
    (hturns : ∀ {start position regions d}, d.Knows engine (mentions start) →
      ¬ FailsBy bad (searchLoop engine (cutOf engine divide line) line (allowed d.library start line)
        start position regions) d →
      outcome (searchLoop engine (cutOf engine divide line) line (more d.library start line)
          start position regions) d =
        outcome (searchLoop engine (cutOf engine divide line) line (allowed d.library start line)
          start position regions) d)
    (h : ¬ FailsBy bad (searchLine engine allowed (cutOf engine divide line) stack line) c) :
    outcome (searchLine engine more (cutOf engine divide line) stack line) c =
      outcome (searchLine engine allowed (cutOf engine divide line) stack line) c := by
  unfold searchLine at h ⊢
  have hwhiles : Scripted engine line (mentions stack) fun divide =>
      continueWhiles engine (cutOf engine divide line) line stack stack.whiles [] 0 [] :=
    continueWhiles_scripted divideMatch_scripted (fun _ => id) (fun _ => .inr)
      (by rintro r ⟨_, ⟨⟩, _⟩)
  rw [outcome_bind, outcome_bind]
  rcases hstart : outcome (continueWhiles engine (cutOf engine divide line) line stack stack.whiles []
    0 []) c with ⟨e | start, d⟩
  · rfl
  · have hknows := ((hwhiles.lockstep hd).returns hc hstart).1
    have hfine := fun hf => h ((failsBy_bind_ok hstart).mpr hf)
    have hloop := hturns (hknows.mono fun _ => .inr) fun hf => hfine hf.bind
    dsimp only
    rw [outcome_bind_ok outcome_get, outcome_bind_ok outcome_get, outcome_bind, outcome_bind, hloop]

theorem divideLine_turns (hc : c.Knows engine (mentions stack))
    (hturns : ∀ {depth line start position regions d}, d.Knows engine (mentions start) →
      ¬ FailsBy bad (searchLoop engine (cutOf engine (parts engine more depth) line) line
        (allowed d.library start line) start position regions) d →
      outcome (searchLoop engine (cutOf engine (parts engine more depth) line) line
          (more d.library start line) start position regions) d =
        outcome (searchLoop engine (cutOf engine (parts engine more depth) line) line
          (allowed d.library start line) start position regions) d)
    (h : ¬ FailsBy bad (divideLine engine allowed depth stack line) c) :
    outcome (divideLine engine more depth stack line) c =
      outcome (divideLine engine allowed depth stack line) c := by
  induction depth generalizing stack line c with
  | zero => rfl
  | succ depth ih =>
    have hparts : (parts engine allowed depth).Continues engine bad (parts engine more depth) := by
      intro text scope rule c hc h
      unfold parts at h ⊢
      rw [divideAlone_eq, failsBy_map] at h
      rw [divideAlone_eq, divideAlone_eq, outcome_map, outcome_map, ih hc.alone h]
    have hline : outcome (searchLine engine allowed (cutOf engine (parts engine more depth) line)
        stack line) c = outcome (divideLine engine allowed (depth + 1) stack line) c :=
      (searchLine_scripted divideMatch_scripted).continues parts_lockstep hparts hc h
    rw [← hline]
    exact searchLine_turns parts_lockstep hc hturns fun hf => h ((failsBy_congr hline).mp hf)

/-- More searches make no difference to a line where fewer come to an end. -/
theorem divideLine_more (hc : c.Knows engine (mentions stack))
    (hmore : ∀ l s t, allowed l s t ≤ more l s t)
    (h : ¬ FailsBy (· = .endless) (divideLine engine allowed depth stack line) c) :
    outcome (divideLine engine more depth stack line) c =
      outcome (divideLine engine allowed depth stack line) c := by
  refine divideLine_turns hc (fun _ hloop => ?_) h
  exact searchLoop_mono (hmore _ _ _) fun he => hloop ⟨_, rfl, he⟩

/-- A line that comes to an end with some number of searches does so within the bound. -/
theorem Ends.within_searchBound (hs : engine.Sound) (hc : c.Knows engine (mentions stack))
    (h : Ends (divideLine engine allowed depth stack line) c) :
    outcome (divideLine engine searchBound depth stack line) c =
      outcome (divideLine engine allowed depth stack line) c := by
  refine divideLine_turns hc (fun {depth line start position regions d} hknows hloop => ?_) h
  have hallowed : (outcome (searchLoop engine (cutOf engine (parts engine searchBound depth) line) line
      (allowed d.library start line) start position regions) d).1 ≠ .error .endless :=
    fun he => hloop ⟨_, .inl rfl, he⟩
  have hbound : (outcome (searchLoop engine (cutOf engine (parts engine searchBound depth) line) line
      (searchBound d.library start line) start position regions) d).1 ≠ .error .endless := by
    intro he
    exact hallowed (searchLoop_goesRound hs parts_steady hknows he _ _)
  rcases Nat.le_total (allowed d.library start line) (searchBound d.library start line) with hle | hle
  · exact searchLoop_mono hle hallowed
  · exact (searchLoop_mono hle hbound).symm

/-! ### Lines -/

/-- A line that comes to an end does so within both bounds, and with the same outcome. -/
theorem Ends.within_bounds (hs : engine.Sound) (hc : c.Knows engine (mentions stack))
    (h : Ends (divideLine engine allowed depth stack line) c) :
    outcome (divideLine engine searchBound (nestingBound c.library line) stack line) c =
      outcome (divideLine engine allowed depth stack line) c := by
  have hbound := h.within_searchBound hs hc
  have hdeep : ¬ TooDeep (divideLine engine searchBound depth stack line) c := by
    rintro ⟨e, rfl, he⟩
    exact h ⟨_, .inr rfl, hbound ▸ he⟩
  have hnested : ¬ TooDeep (divideLine engine searchBound (nestingBound c.library line) stack line) c :=
    fun hd => hdeep (divideLine_forever hc hd depth)
  rw [← hbound, ← divideLine_continues (Nat.le_max_left depth (nestingBound c.library line)) hc hdeep]
  exact (divideLine_continues (Nat.le_max_right depth (nestingBound c.library line)) hc hnested).symm

/-- Captures that go deeper than the bound never come to an end, however many searches are allowed. -/
theorem not_ends_of_tooDeep (hc : c.Knows engine (mentions stack))
    (h : TooDeep (divideLine engine searchBound (nestingBound c.library line) stack line) c) :
    ¬ Ends (divideLine engine allowed depth stack line) c := by
  intro hends
  let more : Allowance := fun l s t => max (allowed l s t) (searchBound l s t)
  obtain ⟨e, rfl, hdeep⟩ := divideLine_forever hc h depth
  have hallowed : outcome (divideLine engine more depth stack line) c =
      outcome (divideLine engine allowed depth stack line) c := by
    refine divideLine_more hc (fun _ _ _ => Nat.le_max_left _ _) ?_
    rintro ⟨e, he, hf⟩
    exact hends ⟨e, .inl he, hf⟩
  have hbound : outcome (divideLine engine more depth stack line) c =
      outcome (divideLine engine searchBound depth stack line) c := by
    refine divideLine_more hc (fun _ _ _ => Nat.le_max_right _ _) ?_
    rintro ⟨e, rfl, he⟩
    rw [hdeep] at he
    cases he
  exact hends ⟨_, .inr rfl, by rw [← hallowed, hbound, hdeep]⟩

end Highlighter.Grammar

namespace Highlighter.Tokenizer

open Highlighter.Grammar
open Highlighter.Pattern (Text)

variable {t : Tokenizer} {c : Compiler} {stack : Stack}

/-- What a tokenizer can come to: a line goes on from what the lines before it led to, and a document from
the root, whether the last line of the one before was finished or not. -/
inductive Comes (t : Tokenizer) : Compiler → Stack → Prop
  | start : Comes t t.compiler t.rootStack
  | line {c d : Compiler} {stack after : Stack} {allowed : Allowance} {depth : Nat} {line : Text}
      {regions : List Region} (before : Comes t c stack)
      (divided : Returns (divideLine t.engine allowed depth stack line) c (after, regions) d) :
      Comes t d after
  | document {c : Compiler} {stack : Stack} {allowed : Allowance} {depth : Nat} {line : Text}
      (before : Comes t c stack) :
      Comes t (outcome (divideLine t.engine allowed depth stack line) c).2 t.rootStack

theorem Comes.knows (ht : t.Knows) (h : t.Comes c stack) :
    c.Knows t.engine (mentions stack) ∧ t.compiler.Grows c := by
  induction h with
  | start => exact ⟨ht.rootStack, .refl _⟩
  | line before divided ih =>
    obtain ⟨hknows, hgrows⟩ := ih
    obtain ⟨hnext, hgrows'⟩ := divideLine_lockstep.returns hknows divided
    exact ⟨hnext.mono fun r hr => .inr hr, hgrows.trans hgrows'⟩
  | @document c stack allowed depth line before ih =>
    obtain ⟨hknows, hgrows⟩ := ih
    have hmakes : c.Makes t.engine (outcome (divideLine t.engine allowed depth stack line) c).2 :=
      (divideLine_lockstep.moves c hknows).makes
    have hgrows' := hgrows.trans hmakes.grows
    exact ⟨⟨hmakes.faithful hknows.faithful, fun r hr => (ht.rootStack.met r hr).grows hgrows'⟩, hgrows'⟩

/-- Whatever a tokenizer comes to, a line that comes to an end from there with some number of searches and
some depth of captures does so within the bounds, and comes to the same. -/
theorem divideLine_ends_iff {engine : Engine} {tree : Files.Tree} {path : Files.Path} {scope : String}
    {extras : List (String × Files.Path)} {notes : List Note} (hs : engine.Sound)
    (h : loadWith engine tree path scope extras = (.ok t, notes)) (hcomes : t.Comes c stack)
    (line : Text) :
    ((∃ allowed depth, Ends (divideLine t.engine allowed depth stack line) c) ↔
      Ends (divideLine t.engine searchBound (nestingBound c.library line) stack line) c) ∧
    ∀ allowed depth, Ends (divideLine t.engine allowed depth stack line) c →
      outcome (divideLine t.engine allowed depth stack line) c =
        outcome (divideLine t.engine searchBound (nestingBound c.library line) stack line) c := by
  obtain ⟨rfl, ht⟩ := loadWith_knows h
  obtain ⟨hknows, -⟩ := hcomes.knows ht
  refine ⟨⟨?_, fun hends => ⟨_, _, hends⟩⟩, fun allowed depth hends => ?_⟩
  · rintro ⟨allowed, depth, hends⟩
    have hsame := hends.within_bounds hs hknows
    exact fun hf => hends ((failsBy_congr hsame).mp hf)
  · exact (hends.within_bounds hs hknows).symm

/-- How the first line of a document comes to an end within both bounds, if it does so by a failure. -/
def firstFailure (line : Text) (t : Tokenizer) : Except LoadFailure (Option Failure) :=
  match (outcome (divideLine t.engine searchBound (nestingBound t.compiler.library line) t.rootStack
    line) t.compiler).1 with
  | .ok _ => .ok none
  | .error e => .ok (some e)

theorem firstFailure_eq {line : Text} {e : Failure} (h : t.firstFailure line = .ok (some e)) :
    (outcome (divideLine t.engine searchBound (nestingBound t.compiler.library line) t.rootStack
      line) t.compiler).1 = .error e := by
  unfold firstFailure at h
  split at h
  · cases h
  · rename_i e' he
    cases h
    exact he

/-- A tree with one grammar, whose rule opens where it matches nothing and is closed there. -/
def opensAndCloses : Files.Tree :=
  let grammar := ["\x7b\"scopeName\":\"s\",\"patterns\":[",
    "\x7b\"begin\":\"(?=a)\",\"end\":\"(?=a)\",\"name\":\"x\"\x7d]\x7d"]
  ⟨[(["g.json"], .file (Text.encodeUtf8 (grammar.flatMap String.toList)))]⟩

theorem divideLine_ends_opensAndCloses : ∃ t notes,
    loadWith Engine.standard.watch opensAndCloses (.ofString "g.json") "s" [] = (.ok t, notes) ∧
      ¬ ∃ allowed depth,
        Ends (divideLine t.engine allowed depth t.rootStack #['a', '\n']) t.compiler := by
  have hrun : resultOf (loadWith Engine.standard.watch opensAndCloses (.ofString "g.json") "s" [])
      (firstFailure #['a', '\n']) = some (some .endless) := by decide +kernel
  obtain ⟨t, notes, ht, h⟩ := resultOf_eq hrun
  refine ⟨t, notes, ht, fun hends => ?_⟩
  have hbound := (divideLine_ends_iff Engine.standard.watch_sound ht .start _).1.mp hends
  exact hbound ⟨_, .inl rfl, firstFailure_eq h⟩

/-- A tree with one grammar, whose rule divides what it matches with all rules of the grammar. -/
def capturesItself : Files.Tree :=
  let grammar := ["\x7b\"scopeName\":\"s\",\"patterns\":[\x7b\"match\":\"(a)\",\"name\":\"m\",",
    "\"captures\":\x7b\"1\":\x7b\"patterns\":[\x7b\"include\":\"$self\"\x7d]\x7d\x7d\x7d]\x7d"]
  ⟨[(["g.json"], .file (Text.encodeUtf8 (grammar.flatMap String.toList)))]⟩

/-- A capture that is matched by the rule that captures it is captured again and again. -/
theorem divideLine_capturesItself : ∃ t notes,
    load capturesItself (.ofString "g.json") "s" [] = (.ok t, notes) ∧
      ∃ c stack line, t.Comes c stack ∧
        ¬ ∃ allowed depth, Ends (divideLine t.engine allowed depth stack line) c := by
  have hrun : resultOf (load capturesItself (.ofString "g.json") "s" [])
      (firstFailure #['a', '\n']) = some (some .tooDeep) := by decide +kernel
  obtain ⟨t, notes, ht, h⟩ := resultOf_eq hrun
  refine ⟨t, notes, ht, t.compiler, t.rootStack, #['a', '\n'], .start, ?_⟩
  rintro ⟨allowed, depth, hends⟩
  have hknows := (loadWith_knows ht).2.rootStack
  exact not_ends_of_tooDeep hknows ⟨_, rfl, firstFailure_eq h⟩ hends

end Highlighter.Tokenizer

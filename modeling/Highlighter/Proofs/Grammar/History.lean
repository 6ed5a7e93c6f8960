import Highlighter.Proofs.Grammar.Layers

/-! Documents that came before. They bear on the tokens of a document through the flattened lists that a
tokenizer keeps, and through nothing else. -/

namespace Highlighter.Tokenizer

open Highlighter.Grammar

variable {t u : Tokenizer} {content : Str}

/-- A document is read from the root on. -/
def reading (t : Tokenizer) (content : Str) :
    ExceptT (Failure × Nat) (StateM Compiler) (List Token) :=
  tokenizeLines (divideLine t.engine searchBound captureDepth) t.rootStack 0 content.lines

theorem reading_lockstep : Lockstep t.engine (mentions t.rootStack) (t.reading content) :=
  tokenizeLines_lockstep

theorem Knows.tokenize (h : t.Knows) : (t.tokenize content).2.1.Knows ∧
    t.compiler.Makes t.engine (t.tokenize content).2.1.compiler := by
  have hmakes : t.compiler.Makes t.engine (t.tokenize content).2.1.compiler :=
    (reading_lockstep.moves _ h.rootStack).makes
  exact ⟨⟨hmakes.faithful h.faithful, fun r hr => (h.met r hr).grows hmakes.grows⟩, hmakes⟩

theorem after_append (documents : List Str) :
    t.after (documents ++ [content]) = ((t.after documents).tokenize content).2.1 := by
  rw [after, List.foldl_append]
  rfl

theorem Knows.after (h : t.Knows) (documents : List Str) :
    (t.after documents).Knows ∧ t.compiler.Makes t.engine (t.after documents).compiler := by
  induction documents generalizing t with
  | nil => exact ⟨h, .refl _⟩
  | cons content documents ih =>
    obtain ⟨hnext, hmakes⟩ := h.tokenize
    obtain ⟨hlast, hmakes'⟩ := ih hnext
    exact ⟨hlast, hmakes.trans hmakes'⟩

/-- Two tokenizers that differ only in what they keep give the same where they agree in the end. -/
theorem Knows.tokenize_eq {c d : Compiler} (hc : Knows { t with compiler := c })
    (hd : Knows { t with compiler := d }) (hl : c.library = d.library)
    (hagree : (outcome (t.reading content) c).2.Agrees (outcome (t.reading content) d).2) :
    (Tokenizer.tokenize { t with compiler := c } content).1 =
      (Tokenizer.tokenize { t with compiler := d } content).1 := by
  have hsame := reading_lockstep.same c d hc.rootStack hd.rootStack hl hagree
  exact congrArg (Except.mapError _) hsame

/-- The tokenizer with what another keeps, except that no rule is made ready. -/
def withLists (t : Tokenizer) (c : Compiler) : Tokenizer :=
  { t with compiler := { c with compiled := [] } }

/-- Reading a document again over the lists that were there after it gives the same. -/
theorem Knows.tokenize_withLists (h : t.Knows) :
    ((t.withLists (t.tokenize content).2.1.compiler).tokenize content).1 = (t.tokenize content).1 := by
  obtain ⟨hafter, hmakes⟩ := h.tokenize
  have hlists : (t.withLists (t.tokenize content).2.1.compiler).Knows :=
    ⟨⟨⟨hafter.faithful.wellFormed, hafter.faithful.homes, hafter.faithful.lists⟩, by rintro id k ⟨⟩⟩,
      hafter.met⟩
  obtain ⟨-, hmakes'⟩ := hlists.tokenize
  refine Knows.tokenize_eq (t := t) hlists h hmakes.grows.library_eq ?_
  intro r hr hr' cs ds hcs hds
  have hkept : (t.tokenize content).2.1.compiler.kept? r = some ds := hds
  have hkept' := hmakes'.grows.kept? (show Compiler.kept? _ r = some ds from hkept)
  exact Option.some.inj (hcs.symm.trans hkept')

/-- A document is read after others as it is read alone exactly where it is read alike over the lists
that it leaves after the others and over those that it leaves alone; so it is where these agree for all
rules that were met both times, and always where no two pattern lists lead to each other. -/
theorem tokenize_after_iff {engine : Engine} {tree : Files.Tree} {path : Files.Path} {scope : String}
    {extras : List (String × Files.Path)} {notes : List Note}
    (h : loadWith engine tree path scope extras = (.ok t, notes)) (documents : List Str)
    (content : Str) :
    (((t.after documents).tokenize content).1 = (t.tokenize content).1 ↔
      ((t.withLists (t.after (documents ++ [content])).compiler).tokenize content).1 =
        ((t.withLists (t.after [content]).compiler).tokenize content).1) ∧
    ((t.after (documents ++ [content])).compiler.Agrees (t.after [content]).compiler →
      ((t.after documents).tokenize content).1 = (t.tokenize content).1) ∧
    (Layered t.compiler.library →
      ((t.after documents).tokenize content).1 = (t.tokenize content).1) := by
  obtain ⟨-, ht⟩ := loadWith_knows h
  have hafter := ht.after documents
  have hagreed (hagree : (t.after (documents ++ [content])).compiler.Agrees (t.after [content]).compiler) :
      ((t.after documents).tokenize content).1 = (t.tokenize content).1 := by
    obtain ⟨hknows, hmakes⟩ := hafter
    rw [after_append] at hagree
    rw [after_eq] at hknows hagree ⊢
    exact hknows.tokenize_eq ht hmakes.grows.library_eq hagree
  refine ⟨?_, hagreed, fun hlayers => hagreed ?_⟩
  · have halone : t.after [content] = (t.tokenize content).2.1 := rfl
    have hlists (c : Compiler) : (t.after documents).withLists c = t.withLists c := by
      rw [after_eq]
      rfl
    rw [after_append, halone, ← hafter.1.tokenize_withLists, ← ht.tokenize_withLists, hlists]
  · have hstart := loadWith_flattens h hlayers
    have hwhole := (ht.after (documents ++ [content])).2.flattens hlayers hstart
    have halone := (ht.after [content]).2.flattens hlayers hstart
    exact hwhole.agrees ht.faithful.wellFormed halone

/-- A tree with one grammar, in which a group of rules includes another that may hold more. -/
def groups (more : String) : Files.Tree :=
  let grammar := ["\x7b\"scopeName\":\"s\",\"patterns\":[",
    "\x7b\"begin\":\"X\",\"end\":\"$\",\"name\":\"x\",\"patterns\":[\x7b\"include\":\"#a\"\x7d]\x7d,",
    "\x7b\"begin\":\"Y\",\"end\":\"$\",\"name\":\"y\",\"patterns\":[\x7b\"include\":\"#b\"\x7d]\x7d],",
    "\"repository\":\x7b",
    "\"a\":\x7b\"patterns\":[\x7b\"match\":\"1\",\"name\":\"one\"\x7d,\x7b\"include\":\"#b\"\x7d]\x7d,",
    "\"b\":\x7b\"patterns\":[\x7b\"match\":\"2\",\"name\":\"two\"\x7d", more, "]\x7d\x7d\x7d"]
  ⟨[(["g.json"], .file (Text.encodeUtf8 (grammar.flatMap String.toList)))]⟩

/-- Two groups that include each other. -/
def groupsInCircle : Files.Tree := groups ",\x7b\"include\":\"#a\"\x7d"

/-- The tokens of a document after another and those of the document alone. -/
def afterAndAlone (before content : Str) (t : Tokenizer) :
    Except LoadFailure (List Token × List Token) := do
  return (← ((t.after [before]).tokenize content).1, ← (t.tokenize content).1)

theorem afterAndAlone_ok {before content : Str} {later alone : List Token}
    (h : t.afterAndAlone before content = .ok (later, alone)) :
    ((t.after [before]).tokenize content).1 = .ok later ∧ (t.tokenize content).1 = .ok alone := by
  obtain ⟨later', hlater, h⟩ := ok_of_bind h
  obtain ⟨alone', halone, h⟩ := ok_of_bind h
  cases h
  exact ⟨hlater, halone⟩

/-- The group that the first document met second is kept without the rule that led to it. -/
theorem afterAndAlone_groupsInCircle :
    resultOf (load groupsInCircle (.ofString "g.json") "s" []) (afterAndAlone "X12" "Y12") = some
      ([⟨0, 0, 1, ["s", "y"]⟩, ⟨0, 1, 2, ["s", "y"]⟩, ⟨0, 2, 3, ["s", "y", "two"]⟩],
        [⟨0, 0, 1, ["s", "y"]⟩, ⟨0, 1, 2, ["s", "y", "one"]⟩, ⟨0, 2, 3, ["s", "y", "two"]⟩]) := by
  decide +kernel

theorem tokenize_after_groupsInCircle : ∃ t notes,
    load groupsInCircle (.ofString "g.json") "s" [] = (.ok t, notes) ∧
      ((t.after ["X12"]).tokenize "Y12").1 ≠ (t.tokenize "Y12").1 := by
  obtain ⟨t, notes, ht, h⟩ := resultOf_eq afterAndAlone_groupsInCircle
  obtain ⟨hlater, halone⟩ := afterAndAlone_ok h
  refine ⟨t, notes, ht, ?_⟩
  rw [hlater, halone]
  simp

/-- There the lists alone make the difference; where the second group does not include the first, no
documents do. -/
theorem tokenize_after_groups :
    (∃ t notes, load groupsInCircle (.ofString "g.json") "s" [] = (.ok t, notes) ∧
      ((t.withLists (t.after ["X12", "Y12"]).compiler).tokenize "Y12").1 ≠
        ((t.withLists (t.after ["Y12"]).compiler).tokenize "Y12").1) ∧
    ∃ t notes, load (groups "") (.ofString "g.json") "s" [] = (.ok t, notes) ∧
      ∀ documents content, ((t.after documents).tokenize content).1 = (t.tokenize content).1 := by
  constructor
  · obtain ⟨t, notes, ht, h⟩ := resultOf_eq afterAndAlone_groupsInCircle
    obtain ⟨hlater, halone⟩ := afterAndAlone_ok h
    refine ⟨t, notes, ht, fun hlists => ?_⟩
    have hsame := (tokenize_after_iff ht ["X12"] "Y12").1.mpr hlists
    rw [hlater, halone] at hsame
    simp at hsame
  · have hrun : resultOf (load (groups "") (.ofString "g.json") "s" [])
        (fun t => .ok (inLayers t.compiler.library)) = some true := by decide +kernel
    obtain ⟨t, notes, ht, h⟩ := resultOf_eq hrun
    have hlayers := inLayers_sound (loadWith_knows ht).2.faithful.wellFormed (Except.ok.inj h)
    exact ⟨t, notes, ht, fun documents content => (tokenize_after_iff ht documents content).2.2 hlayers⟩

end Highlighter.Tokenizer

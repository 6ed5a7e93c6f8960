import Highlighter.Proofs.Grammar.Blame
import Highlighter.Proofs.Grammar.History

/-! What can stop a document. A tokenizer that was made gives the tokens of a document or an error of the
grammar, unless the grammars or the document have a flaw of a few kinds; and each of these kinds does stop
some document. -/

namespace Highlighter.Grammar

open Highlighter.Pattern (Text)

variable {engine : Engine} {allowed : Allowance} {depth limit : Nat} {stack : Stack} {line : Text}
  {c d : Compiler} {f : Failure}

/-- A line that is given up within the bound of searches does not come to an end with more of them, unless
captures may go deeper. -/
theorem not_ends_of_unending (hs : engine.Sound) (hc : c.Knows engine (mentions stack))
    (hf : f.Unending) (h : (outcome (divideLine engine searchBound limit stack line) c).1 = .error f)
    (hdepth : depth ≤ limit) : ¬ Ends (divideLine engine allowed depth stack line) c := by
  intro hends
  have hbound := hends.within_searchBound hs hc
  have hdeep : ¬ TooDeep (divideLine engine searchBound depth stack line) c := by
    rintro ⟨e, rfl, he⟩
    exact hends ⟨_, .inr rfl, hbound ▸ he⟩
  have hsame := (divideLine_continues hdepth hc hdeep).trans hbound
  exact hends ⟨f, hf, hsame ▸ h⟩

end Highlighter.Grammar

namespace Highlighter.Tokenizer

open Highlighter.Grammar

/-- What has to be wrong for a document to end the program by a failure. -/
inductive Flaw (t : Tokenizer) (content : Str) : Failure → Prop
  /-- The grammars are to blame. -/
  | grammar {f : Failure} : Blame t.engine t.compiler.library f → Flaw t content f
  /-- A line cannot be written in bytes. -/
  | line {line : Str} : line ∈ content.lines → line.isEncodable = false → Flaw t content .unencodable
  /-- A line is never finished, however many searches it may take. -/
  | unending {f : Failure} {c : Compiler} {stack : Stack} {line : String} : f.Unending →
      t.Comes c stack → (line : Str) ∈ content.lines →
      (∀ allowed depth, depth ≤ captureDepth →
        ¬ Ends (divideLine t.engine allowed depth stack (searched line)) c) →
      Flaw t content f

variable {t : Tokenizer} {c : Compiler} {stack : Stack} {content : Str}

/-- A tokenizer whose lists offer rules by their patterns, and whose documents start with a stack that
stands. -/
structure Ready (t : Tokenizer) : Prop where
  knows : t.Knows
  starting : t.compiler.Starting
  sturdy : t.rootStack.Sturdy t.engine t.compiler.library

theorem loadWith_ready {engine : Engine} {tree : Files.Tree} {path : Files.Path} {scope : String}
    {extras : List (String × Files.Path)} {notes : List Note}
    (h : loadWith engine tree path scope extras = (.ok t, notes)) : t.engine = engine ∧ t.Ready := by
  obtain ⟨library, c, hl, hmade⟩ := loadWith_made h
  obtain ⟨g, hg, rfl, hroot⟩ := ofLibrary_made hmade
  have hlists : library.Lists (g, g.patterns) := .grammar (Library.find?_mem hg)
  have hstart : Compiler.Starting { library } := nofun
  obtain ⟨choice, hchoice, hfits, hsane⟩ := compileRoot_fits (faithful_start hl) hstart hlists.has hroot
  have hlibrary : t.compiler.library = library := hsane.library_eq
  rw [← hlibrary] at hfits
  refine ⟨rfl, ofLibrary_knows hl hmade, hsane.starting, ⟨t.rootStack.top, [], rfl, ⟨rfl, .inl ?_⟩, nofun⟩,
    nofun, .nil⟩
  exact ⟨choice, congrArg Compiled.form hchoice, hfits⟩

/-- Whatever a tokenizer comes to stands. -/
theorem Comes.stands (hs : t.engine.Sound) (ht : t.Ready) (h : t.Comes c stack) :
    c.Sane t.engine t.compiler.library (mentions stack) ∧ stack.Sturdy t.engine t.compiler.library := by
  obtain ⟨hknows, hgrows⟩ := h.knows ht.knows
  induction h with
  | start => exact ⟨⟨hknows, ht.starting, rfl⟩, ht.sturdy⟩
  | line before divided ih =>
    obtain ⟨hsane, hsturdy⟩ := (before.knows ht.knows).elim ih
    refine ⟨(divideLine_lockstep.sane hsane divided).mono fun _ => .inr, ?_⟩
    exact (divideLine_excused hs hsturdy hsane).returns divided
  | document before ih =>
    obtain ⟨hsane, -⟩ := (before.knows ht.knows).elim ih
    refine ⟨⟨hknows, ?_, hgrows.library_eq⟩, ht.sturdy⟩
    exact Compiler.Makes.starting (divideLine_lockstep.moves _ hsane.toKnows).makes hsane.starting

theorem Ready.after (h : t.Ready) (documents : List Str) : (t.after documents).Ready := by
  obtain ⟨hknows, hmakes⟩ := h.knows.after documents
  refine ⟨hknows, hmakes.starting h.starting, ?_⟩
  rw [hmakes.grows.library_eq, after_eq documents]
  exact h.sturdy

/-- A line of a document is divided, or the failure is told or comes of a flaw. -/
theorem divideLine_flawed (hs : t.engine.Sound) (ht : t.Ready) (h : t.Comes c stack) {line : String}
    (hline : (line : Str) ∈ content.lines) :
    Gives (fun _ => True) (fun f => f.Told ∨ Flaw t content f)
      (divideLine t.engine searchBound captureDepth stack (searched line)) c := by
  obtain ⟨hsane, hsturdy⟩ := h.stands hs ht
  refine .of_fails fun f hf => ?_
  rcases (divideLine_excused hs hsturdy hsane).fails hf with htold | hunending | hblame
  · exact .inl htold
  · exact .inr (.unending hunending h hline fun _ _ => not_ends_of_unending hs hsane.toKnows hunending hf)
  · exact .inr (.grammar hblame)

theorem tokenizeLines_flawed (hs : t.engine.Sound) (ht : t.Ready) (h : t.Comes c stack) {n : Nat}
    {lines : List Str} (hlines : lines ⊆ content.lines) :
    Gives (fun _ => True) (fun e => e.1.Told ∨ Flaw t content e.1)
      (tokenizeLines (divideLine t.engine searchBound captureDepth) stack n lines) c := by
  induction lines generalizing c stack n with
  | nil => exact .pure trivial
  | cons line lines ih =>
    have hline : line ∈ content.lines := hlines List.mem_cons_self
    rw [tokenizeLines]
    split
    · rename_i hnone
      exact .throw (.inr (.line hline (Str.text?_eq_none.mp hnone)))
    · rename_i text htext
      obtain rfl := Str.text?_eq_some.mp htext
      refine (Gives.adapt (divideLine_flawed hs ht h hline)).bind fun after d hafter _ => ?_
      have hrest := ih (n := n + 1) (h.line hafter.adapt) fun x hx => hlines (List.mem_cons_of_mem _ hx)
      exact hrest.bind fun _ _ _ _ => .pure trivial

theorem Ready.tokenize (hs : t.engine.Sound) (ht : t.Ready) :
    (∃ tokens, (t.tokenize content).1 = .ok tokens) ∨
      (∃ e, (t.tokenize content).1 = .error (.grammar e)) ∨
      ∃ f, (t.tokenize content).1 = .error (.rule f) ∧ Flaw t content f := by
  have hlines := tokenizeLines_flawed hs ht .start (n := 0) (List.Subset.refl content.lines)
  have hresult : (t.tokenize content).1 =
      (outcome (t.reading content) t.compiler).1.mapError fun e => failureAt t.scope (some e.2) e.1 := rfl
  rw [hresult]
  rcases hout : (outcome (t.reading content) t.compiler).1 with e | tokens
  · right
    by_cases htold : e.1.Told
    · obtain ⟨fault, hfault⟩ := LoadFailure.told_iff.mp (failureAt_told.mpr htold)
      exact .inl ⟨fault, congrArg Except.error hfault⟩
    · have hflaw := (hlines.fails hout).resolve_left htold
      exact .inr ⟨e.1, congrArg Except.error (failureAt_untold htold), hflaw⟩
  · exact .inl ⟨tokens, rfl⟩

/-- Whatever documents came before, a document gives its tokens or an error of the grammar, or it ends the
program by a failure for which the grammars or the document have a flaw. -/
theorem tokenize_told {engine : Engine} {tree : Files.Tree} {path : Files.Path} {scope : String}
    {extras : List (String × Files.Path)} {notes : List Note} (hs : engine.Sound)
    (h : loadWith engine tree path scope extras = (.ok t, notes)) (documents : List Str)
    (content : Str) :
    (∃ tokens, ((t.after documents).tokenize content).1 = .ok tokens) ∨
      (∃ e, ((t.after documents).tokenize content).1 = .error (.grammar e)) ∨
      ∃ f, ((t.after documents).tokenize content).1 = .error (.rule f) ∧
        Flaw (t.after documents) content f := by
  obtain ⟨rfl, ht⟩ := loadWith_ready h
  have hengine : (t.after documents).engine = t.engine := by rw [after_eq]
  exact (ht.after documents).tokenize (hengine ▸ hs)

/-- The failure by which a document ends the program. -/
def untold (content : Str) (t : Tokenizer) : Except LoadFailure (Option Failure) :=
  match (t.tokenize content).1 with
  | .error (.rule f) => .ok (some f)
  | _ => .ok none

theorem untold_eq {f : Failure} (h : t.untold content = .ok (some f)) :
    (t.tokenize content).1 = .error (.rule f) := by
  unfold untold at h
  split at h
  · rename_i f' hf
    cases h
    exact hf
  · cases h

/-- A tree with a grammar of one rule, of which the members are given. -/
def oneRule (members : String) : Files.Tree :=
  let text := "\x7b\"scopeName\":\"s\",\"patterns\":[\x7b" ++ members ++ "\x7d]\x7d"
  ⟨[(["g.json"], .file (Text.encodeUtf8 text.toList))]⟩

/-- A rule that begins with a match and has neither an end nor a condition is at fault where it is found. -/
theorem tokenize_told_begins : ∃ t notes,
    loadWith Engine.standard.watch (oneRule "\"begin\":\"a\"") (.ofString "g.json") "s" [] =
        (.ok t, notes) ∧
      ∃ r pattern text m, t.compiler.library.Owns r ∧ r.beginPattern = some pattern ∧
        r.template? = none ∧ t.engine.Finds pattern text m := by
  let tree := oneRule "\"begin\":\"a\""
  have hrun : resultOf (loadWith Engine.standard.watch tree (.ofString "g.json") "s" []) (untold "a") =
      some (some .startedPatterns) := by decide +kernel
  obtain ⟨t, notes, ht, h⟩ := resultOf_eq hrun
  have hstops := untold_eq h
  refine ⟨t, notes, ht, ?_⟩
  rcases tokenize_told Engine.standard.watch_sound ht [] "a" with
    ⟨tokens, htokens⟩ | ⟨e, he⟩ | ⟨f, hf, hflaw⟩
  · cases hstops.symm.trans htokens
  · cases hstops.symm.trans he
  · cases hstops.symm.trans hf
    cases hflaw with
    | grammar hblame =>
      cases hblame with
      | startedPatterns hr _ hbegin htemplate hfinds =>
        exact ⟨_, _, _, _, hr, hbegin, htemplate, hfinds⟩
    | unending hunending => rcases hunending with hf | hf <;> cases hf

/-- A grammar of one rule, the scope that it is asked for by, and a document with the failure by which it
ends the program. -/
structure Stop where
  members : String
  scope : String
  content : Str
  failure : Failure

/-- The grammar is loaded, and the document ends the program. -/
def Stop.Happens (x : Stop) : Prop :=
  ∃ t notes, load (oneRule x.members) (.ofString "g.json") x.scope [] = (.ok t, notes) ∧
    (t.tokenize x.content).1 = .error (.rule x.failure)

/-- A document for each kind of failure except those of lines that are never finished. -/
def stops : List Stop :=
  let capturing (pattern rule : String) : String :=
    "\"match\":\"" ++ pattern ++ "\",\"captures\":\x7b\"1\":\x7b" ++ rule ++ "\x7d\x7d"
  [⟨"\"begin\":\"a\"", "s", "a", .startedPatterns⟩,
   ⟨capturing "(a)" "\"match\":\"a\"", "s", "a", .searchedSingle⟩,
   ⟨capturing "(a)" "\"begin\":\"a\",\"end\":\"b\"", "s", "a", .noEnding⟩,
   ⟨capturing "(?<=(a))b" "\"name\":\"c\"", "s", "ab", .noRegion⟩,
   ⟨"\"begin\":\"a\",\"end\":\"\\\\5\"", "s", "a", .noGroup⟩,
   ⟨"\"match\":\"a\"", "", "a", .noBase⟩,
   ⟨"\"begin\":\"a\",\"end\":\"\\ud800\"", "s", "a", .unencodable⟩,
   ⟨"\"match\":\"a\"", "s", .ofList [.lone 0], .unencodable⟩]

/-- Grammars that are loaded without a fault end the program in all these ways. -/
theorem tokenize_stops :
    stops.map Stop.failure = [.startedPatterns, .searchedSingle, .noEnding, .noRegion, .noGroup, .noBase,
      .unencodable, .unencodable] ∧ ∀ x ∈ stops, x.Happens := by
  refine ⟨rfl, fun x hx => ?_⟩
  have hrun : ∀ x ∈ stops, resultOf (load (oneRule x.members) (.ofString "g.json") x.scope [])
      (untold x.content) = some (some x.failure) := by decide +kernel
  obtain ⟨t, notes, ht, h⟩ := resultOf_eq (hrun x hx)
  exact ⟨t, notes, ht, untold_eq h⟩

end Highlighter.Tokenizer

import Highlighter.Proofs.Grammar.Document
import Highlighter.Proofs.Grammar.Readable
import Highlighter.Proofs.Grammar.Readiness
import Highlighter.Proofs.Slips

/-! What can stop the making of a tokenizer, other than an error of a grammar: a grammar file that cannot be
read as one, or the patterns that the main grammar begins by. -/

namespace Highlighter

open Highlighter.Files (Path PathFault Tree mapError_eq_ok)

/-! ### Grammar files -/

namespace Grammar

/-- What ends the program while a grammar file is loaded: its path cannot be that of a file, it is no
property list in a way that its reader has no error for, or its rules cannot be read. -/
inductive Trips (tree : Tree) (path : Files.Path) (scope : Option String) : Prop
  | path {f : PathFault} : path.fault? = some f → Trips tree path scope
  | list {bytes : Text.Bytes} {f : PropertyList.Failure} : path.fault? = none →
      tree.read path = .ok bytes → (path.suffix == ".tmLanguage" || path.suffix == ".plist") = true →
      PropertyList.read bytes = .error f → (∀ e, f ≠ .error e) → Trips tree path scope
  | rules {bytes : Text.Bytes} {members : Json.Members} : path.fault? = none →
      tree.read path = .ok bytes → readDocument path scope bytes = .ok (.object members) →
      nameIn scope members ≠ "" → documentReadable members = false → Trips tree path scope

variable {tree : Tree} {path : Files.Path} {scope : Option String} {number : Nat} {bytes : Text.Bytes}

theorem readDocument_slips : Slips LoadFailure.Told (readDocument path scope bytes) ↔
    (path.suffix == ".tmLanguage" || path.suffix == ".plist") = true ∧
      ∃ f, PropertyList.read bytes = .error f ∧ ∀ e, f ≠ .error e := by
  unfold readDocument
  split
  · rename_i hsuffix
    rw [slips_mapError]
    simp only [hsuffix, true_and, Slips]
    refine exists_congr fun f => and_congr_right fun _ => ?_
    cases f <;> simp [LoadFailure.Told]
  · rename_i hsuffix
    refine iff_of_false ?_ fun h => hsuffix h.1
    split
    · simp [slips_error, LoadFailure.Told]
    · rw [slips_mapError]
      rintro ⟨e, -, he⟩
      exact he trivial

theorem load_eq (hpath : path.fault? = none) : load tree number path scope =
    ((tree.read path).mapError fun e => .grammar (.unreadable path e scope)) >>= fun bytes =>
      readDocument path scope bytes >>= fun v =>
        match v with
        | .object members =>
          (ofDocument number scope members).mapError fun e =>
            match e with
            | .noScope => .grammar .noScopeName
            | .groupNumber _ => .groupNumber
            | .tooDeep => .tooDeep
        | _ => .error (.grammar (.notObject path scope)) := by
  unfold load
  rw [hpath]
  rfl

theorem load_slips : Slips LoadFailure.Told (load tree number path scope) ↔ Trips tree path scope := by
  cases hpath : path.fault? with
  | some f =>
    have hload : load tree number path scope = .error (.path f) := by
      unfold load
      rw [hpath]
      rfl
    rw [hload, slips_error]
    exact ⟨fun _ => .path hpath, fun _ => id⟩
  | none =>
    rw [load_eq hpath, slips_bind, slips_mapError]
    constructor
    · rintro (⟨e, -, he⟩ | ⟨bytes, hread, h⟩)
      · exact absurd trivial he
      have hread := mapError_eq_ok.mp hread
      rcases slips_bind.mp h with h | ⟨v, hv, h⟩
      · obtain ⟨hsuffix, f, hf, hne⟩ := readDocument_slips.mp h
        exact .list hpath hread hsuffix hf hne
      cases v with
      | object members =>
        obtain ⟨e, he, htold⟩ := slips_mapError.mp h
        have hne : e ≠ .noScope := by
          rintro rfl
          exact htold trivial
        obtain ⟨hname, hrules⟩ := ofDocument_error_iff.mp ⟨e, he, hne⟩
        exact .rules hpath hread hv hname hrules
      | _ => exact absurd trivial (slips_error.mp h)
    · rintro (hf | ⟨-, hread, hsuffix, hf, hne⟩ | ⟨-, hread, hv, hname, hrules⟩)
      · rw [hpath] at hf
        cases hf
      · refine .inr ⟨_, mapError_eq_ok.mpr hread, slips_bind.mpr (.inl ?_)⟩
        exact readDocument_slips.mpr ⟨hsuffix, _, hf, hne⟩
      · rename_i bytes members
        refine .inr ⟨_, mapError_eq_ok.mpr hread, slips_bind.mpr (.inr ⟨_, hv, slips_mapError.mpr ?_⟩)⟩
        have hfails : ∃ e, ofDocument number scope members = .error e ∧ e ≠ .noScope :=
          ofDocument_error_iff.mpr ⟨hname, hrules⟩
        obtain ⟨e, he, hne⟩ := hfails
        refine ⟨e, he, ?_⟩
        cases e with
        | noScope => exact absurd rfl hne
        | groupNumber key => exact id
        | tooDeep => exact id

end Grammar

/-! ### Tokenizers -/

namespace Grammar

/-- What a pattern's text is read as. -/
def patternOf (engine : Engine) (source : Str) : Except Failure Pattern.Regex :=
  match source.text? with
  | some text => (engine.read text).mapError .pattern
  | none => .error .unencodable

/-- What ends the program while the patterns of the main grammar are made ready: the base is included and
there is none, or the first pattern that cannot be read has no form in bytes, or a fault about which nothing
can be said. -/
inductive RootTrips (engine : Engine) (library : Library) (g : Grammar) : Prop
  | base {c : Compiler} : outcome (candidatesOf g g.patterns) { library } = (.error .noBase, c) →
      RootTrips engine library g
  | pattern {candidates before after : List Candidate} {x : Candidate} {c : Compiler} :
      Returns (candidatesOf g g.patterns) { library } candidates c →
      candidates = before ++ x :: after →
      (∀ y ∈ before, ∃ r, patternOf engine y.pattern = .ok r) →
      (x.pattern.isEncodable = false ∨
        ∃ text : String, x.pattern = text ∧ ∃ e, engine.read text = .error e ∧ e.message? = none) →
      RootTrips engine library g

variable {engine : Engine} {library : Library} {g : Grammar} {c : Compiler} {candidates : List Candidate}

theorem outcome_readPattern {source : Str} :
    outcome (readPattern engine source) c = (patternOf engine source, c) := by
  unfold readPattern patternOf answer
  cases source.text? with
  | none => rfl
  | some text => cases hread : engine.read text <;> simp only [hread] <;> rfl

theorem outcome_readPatterns : outcome (candidates.mapM fun x => readPattern engine x.pattern) c =
    (candidates.mapM fun x => patternOf engine x.pattern, c) := by
  induction candidates with
  | nil => rfl
  | cons x candidates ih =>
    rw [List.mapM_cons, List.mapM_cons, outcome_bind, outcome_readPattern]
    cases patternOf engine x.pattern with
    | error f => rfl
    | ok r =>
      dsimp only
      rw [outcome_bind, ih]
      cases candidates.mapM fun x => patternOf engine x.pattern with
      | error f => rfl
      | ok rs => rfl

theorem patternOf_slips {source : Str} : Slips Failure.Told (patternOf engine source) ↔
    source.isEncodable = false ∨
      ∃ text : String, source = text ∧ ∃ e, engine.read text = .error e ∧ e.message? = none := by
  unfold patternOf
  split
  · rename_i text htext
    rw [slips_mapError, Str.text?_eq_some.mp htext]
    simp [Slips, Failure.Told]
  · rename_i hnone
    simp [slips_error, Failure.Told, Str.text?_eq_none.mp hnone]

theorem choiceOf_slips : Slips Failure.Told (outcome (choiceOf engine candidates) c).1 ↔
    Slips Failure.Told (candidates.mapM fun x => patternOf engine x.pattern) := by
  unfold choiceOf
  rw [outcome_bind, outcome_readPatterns]
  cases candidates.mapM fun x => patternOf engine x.pattern with
  | error f =>
    dsimp only
    rw [slips_error, slips_error]
  | ok rs =>
    dsimp only
    refine iff_of_false ?_ not_slips_ok
    split
    · rw [outcome_bind, outcome_throw, slips_error]
      simp [Failure.Told, Pattern.PatternError.message?]
    · exact not_slips_ok

/-- A step that fails only where the base is included that is not there. -/
abbrev NeedsBase {α : Type} (x : Compile α) (c : Compiler) : Prop := Gives (fun _ => True) (· = .noBase) x c

theorem contribution_needsBase {lists : Grammar → List Rule → Compile (List Candidate)} {rule : Rule}
    (hlists : ∀ g rules c, NeedsBase (lists g rules) c) : NeedsBase (contribution lists g rule) c := by
  unfold contribution
  split
  · refine .get ?_
    split
    · exact hlists _ _ c
    · exact .modifyGet (.pure trivial)
    · exact .throw rfl
  · split
    · exact .modifyGet (.pure trivial)
    · exact .modifyGet (.pure trivial)
    · split
      · exact .pure trivial
      · exact hlists _ _ c

theorem flatten_needsBase {fuel : Nat} {rules : List Rule} : NeedsBase (flatten fuel g rules) c := by
  induction fuel generalizing g rules c with
  | zero => exact .pure trivial
  | succ fuel ih =>
    refine .get ?_
    split
    · exact .pure trivial
    · refine .modifyGet ?_
      have hcontribution (rule : Rule) (c : Compiler) : NeedsBase (contribution (flatten fuel) g rule) c :=
        contribution_needsBase fun _ _ _ => ih
      exact (Gives.mapM fun rule _ => hcontribution rule).bind fun parts _ _ _ => .modifyGet (.pure trivial)

theorem candidatesOf_needsBase {rules : List Rule} : NeedsBase (candidatesOf g rules) c :=
  .get flatten_needsBase

theorem compileRoot_slips :
    Slips Failure.Told (outcome (compileRoot engine g) { library }).1 ↔ RootTrips engine library g := by
  unfold compileRoot
  rcases hlist : outcome (candidatesOf g g.patterns) { library } with ⟨f | candidates, c⟩
  · have hneeds : NeedsBase (candidatesOf g g.patterns) { library } := candidatesOf_needsBase
    obtain rfl := hneeds.fails (congrArg Prod.fst hlist)
    rw [outcome_bind_error hlist, slips_error]
    refine iff_of_true id (.base hlist)
  · have hchoice : Slips Failure.Told (outcome (choiceOf engine candidates >>= fun choice =>
        pure ⟨none, [g.scopeName], .patternsOnly choice⟩ : Compile Compiled) c).1 ↔
          Slips Failure.Told (candidates.mapM fun x => patternOf engine x.pattern) := by
      rw [← choiceOf_slips (c := c), outcome_bind]
      rcases outcome (choiceOf engine candidates) c with ⟨f | choice, d⟩
      · exact slips_error.trans slips_error.symm
      · exact iff_of_false not_slips_ok not_slips_ok
    rw [outcome_bind_ok hlist, hchoice, slips_mapM]
    constructor
    · rintro ⟨before, x, after, hsplit, hbefore, hx⟩
      exact .pattern hlist hsplit hbefore (patternOf_slips.mp hx)
    · rintro (hbase | ⟨hlist', hsplit, hbefore, hx⟩)
      · rw [hlist] at hbase
        cases hbase
      · rw [Returns, hlist] at hlist'
        cases hlist'
        exact ⟨_, _, _, hsplit, hbefore, patternOf_slips.mpr hx⟩

end Grammar

namespace Tokenizer

open Highlighter.Grammar

/-- What ends the program while an extra grammar is loaded: its file cannot be looked for, or it is there and
trips it. -/
def ExtraTrips (tree : Tree) (extra : String × Path) : Prop :=
  (∃ e, tree.has extra.2 = .error e) ∨
    tree.has extra.2 = .ok true ∧ Grammar.Trips tree extra.2 (some extra.1)

/-- What ends the program while a tokenizer is made: the main grammar, an extra one after others that were
loaded, or the patterns of the main grammar once all are loaded. -/
inductive Trips (engine : Engine) (tree : Tree) (path : Path) (scope : String)
    (extras : List (String × Path)) : Prop
  | main : Grammar.Trips tree path (some scope) → Trips engine tree path scope extras
  | extra {main : Grammar} {before after : List (String × Path)} {extra : String × Path}
      {loaded : List (Str × Grammar)} {absent : List (String × Path)} :
      Grammar.load tree 0 path (some scope) = .ok main → extras = before ++ extra :: after →
      loadExtras tree 1 before [(scope, main)] [] = (.ok loaded, absent) → ExtraTrips tree extra →
      Trips engine tree path scope extras
  | root {main g : Grammar} {loaded : List (Str × Grammar)} {absent : List (String × Path)} :
      Grammar.load tree 0 path (some scope) = .ok main →
      loadExtras tree 1 extras [(scope, main)] [] = (.ok loaded, absent) →
      Library.mainGrammar? ⟨scope, loaded⟩ = some g → RootTrips engine ⟨scope, loaded⟩ g →
      Trips engine tree path scope extras

variable {engine : Engine} {tree : Tree} {path : Path} {scope : String} {extras : List (String × Path)}

/-- The loading of extra grammars is tripped by the first that trips it, where all before it are loaded. -/
theorem loadExtras_slips {number : Nat} {grammars : List (Str × Grammar)}
    {absent : List (String × Path)} :
    Slips LoadFailure.Told (loadExtras tree number extras grammars absent).1 ↔
      ∃ before extra after loaded skipped, extras = before ++ extra :: after ∧
        loadExtras tree number before grammars absent = (.ok loaded, skipped) ∧
        ExtraTrips tree extra := by
  induction extras generalizing number grammars absent with
  | nil => exact iff_of_false not_slips_ok (by simp)
  | cons extra extras ih =>
    obtain ⟨own, place⟩ := extra
    have hgoes {grammars' : List (Str × Grammar)} {absent' : List (String × Path)}
        (hstep : ∀ rest, loadExtras tree number ((own, place) :: rest) grammars absent =
          loadExtras tree (number + 1) rest grammars' absent')
        (hfine : ¬ ExtraTrips tree (own, place)) :
        Slips LoadFailure.Told (loadExtras tree number ((own, place) :: extras) grammars absent).1 ↔
          ∃ before extra after loaded skipped, (own, place) :: extras = before ++ extra :: after ∧
            loadExtras tree number before grammars absent = (.ok loaded, skipped) ∧
            ExtraTrips tree extra := by
      rw [hstep, ih]
      constructor
      · rintro ⟨before, extra, after, loaded, skipped, rfl, hbefore, htrips⟩
        exact ⟨(own, place) :: before, extra, after, loaded, skipped, rfl, (hstep before).trans hbefore, htrips⟩
      · rintro ⟨before, extra, after, loaded, skipped, hsplit, hbefore, htrips⟩
        cases before with
        | nil =>
          cases hsplit
          exact absurd htrips hfine
        | cons first before =>
          cases hsplit
          exact ⟨before, extra, after, loaded, skipped, rfl, (hstep before).symm.trans hbefore, htrips⟩
    have hstops {f : LoadFailure}
        (hstep : ∀ rest, loadExtras tree number ((own, place) :: rest) grammars absent = (.error f, absent))
        (htrips : ¬ f.Told ↔ ExtraTrips tree (own, place)) :
        Slips LoadFailure.Told (loadExtras tree number ((own, place) :: extras) grammars absent).1 ↔
          ∃ before extra after loaded skipped, (own, place) :: extras = before ++ extra :: after ∧
            loadExtras tree number before grammars absent = (.ok loaded, skipped) ∧
            ExtraTrips tree extra := by
      rw [hstep, slips_error, htrips]
      constructor
      · intro h
        exact ⟨[], (own, place), extras, grammars, absent, rfl, rfl, h⟩
      · rintro ⟨before, extra, after, loaded, skipped, hsplit, hbefore, h⟩
        cases before with
        | nil =>
          cases hsplit
          exact h
        | cons first before =>
          cases hsplit
          rw [hstep] at hbefore
          cases hbefore
    cases hhas : tree.has place with
    | error e =>
      refine hstops (f := .file e) (fun rest => by rw [loadExtras, hhas]) ?_
      exact iff_of_true id (.inl ⟨e, hhas⟩)
    | ok there =>
      cases there with
      | false =>
        refine hgoes (fun rest => by rw [loadExtras, hhas]) ?_
        rintro (⟨e, he⟩ | ⟨htrue, -⟩)
        · rw [hhas] at he
          cases he
        · rw [hhas] at htrue
          cases htrue
      | true =>
        have hslips : Slips LoadFailure.Told (Grammar.load tree number place (some own)) ↔
            Grammar.Trips tree place (some own) := Grammar.load_slips
        have htrips : ExtraTrips tree (own, place) ↔ Grammar.Trips tree place (some own) := by
          simp [ExtraTrips, hhas]
        cases hload : Grammar.load tree number place (some own) with
        | error f =>
          refine hstops (f := f) (fun rest => by rw [loadExtras, hhas]; simp only [hload]) ?_
          rw [htrips, ← hslips, hload, slips_error]
        | ok g =>
          refine hgoes (fun rest => by rw [loadExtras, hhas]; simp only [hload]; rfl) ?_
          rw [htrips, ← hslips, hload]
          exact not_slips_ok

/-- No scope is lost while grammars are added. -/
theorem loadExtras_keeps {number : Nat} {grammars loaded : List (Str × Grammar)}
    {absent skipped : List (String × Path)}
    (h : loadExtras tree number extras grammars absent = (.ok loaded, skipped))
    (hscope : ∃ e ∈ grammars, e.1 = scope) : ∃ e ∈ loaded, e.1 = scope := by
  induction extras generalizing number grammars absent with
  | nil =>
    cases h
    exact hscope
  | cons extra extras ih =>
    rw [loadExtras] at h
    split at h
    · cases h
    · exact ih h hscope
    · split at h
      · cases h
      · refine ih h ?_
        obtain ⟨e, he, hown⟩ := hscope
        split
        · refine ⟨_, List.mem_map.mpr ⟨e, he, rfl⟩, ?_⟩
          split
          · rename_i hsame
            rw [← hown, beq_iff_eq.mp hsame]
          · exact hown
        · exact ⟨e, List.mem_append_left _ he, hown⟩

theorem ofLibrary_slips {library : Library} {g : Grammar} (hmain : library.mainGrammar? = some g) :
    Slips LoadFailure.Told (ofLibrary engine scope library).1 ↔ RootTrips engine library g := by
  rw [← compileRoot_slips]
  unfold ofLibrary
  rw [hmain]
  dsimp only
  change Slips LoadFailure.Told (match outcome (compileRoot engine g) { library } with
    | (.ok root, compiler) => (Except.ok _, compiler)
    | (.error f, compiler) => (Except.error (failureAt scope none f), compiler)).1 ↔ _
  rcases outcome (compileRoot engine g) { library } with ⟨f | root, c⟩
  · exact slips_error.trans ((not_congr failureAt_told).trans slips_error.symm)
  · exact iff_of_false not_slips_ok not_slips_ok

theorem loadWith_fst : (loadWith engine tree path scope extras).1 =
    Grammar.load tree 0 path (some scope) >>= fun main =>
      (loadExtras tree 1 extras [(scope, main)] []).1 >>= fun grammars =>
        (ofLibrary engine scope ⟨scope, grammars⟩).1 := by
  unfold loadWith
  cases Grammar.load tree 0 path (some scope) with
  | error f => rfl
  | ok main =>
    dsimp only
    rw [show (Except.ok main >>= _) = (loadExtras tree 1 extras [(scope, main)] []).1 >>= _ from rfl]
    rcases loadExtras tree 1 extras [(scope, main)] [] with ⟨f | loaded, absent⟩ <;> rfl

/-- The making of a tokenizer ends otherwise than by a tokenizer or an error of a grammar exactly if
something trips it. -/
theorem loadWith_slips :
    Slips LoadFailure.Told (loadWith engine tree path scope extras).1 ↔ Trips engine tree path scope extras := by
  have hmain {main : Grammar} {loaded : List (Str × Grammar)} {absent : List (String × Path)}
      (h : loadExtras tree 1 extras [(scope, main)] [] = (.ok loaded, absent)) :
      ∃ g, Library.mainGrammar? ⟨scope, loaded⟩ = some g := by
    change ∃ g, loaded.lookup (scope : Str) = some g
    rw [← Option.ne_none_iff_exists', Ne, List.lookup_eq_none_iff]
    intro hnone
    obtain ⟨e, he, hown⟩ := loadExtras_keeps h ⟨_, List.mem_singleton_self _, rfl⟩
    simpa [hown] using hnone e he
  rw [loadWith_fst, slips_bind, Grammar.load_slips]
  constructor
  · rintro (h | ⟨main, hload, h⟩)
    · exact .main h
    rcases slips_bind.mp h with h | ⟨loaded, hloaded, h⟩
    · obtain ⟨before, extra, after, loaded, skipped, hsplit, hbefore, htrips⟩ := loadExtras_slips.mp h
      exact .extra hload hsplit hbefore htrips
    · have hall : loadExtras tree 1 extras [(scope, main)] [] = (.ok loaded, _) := Prod.ext hloaded rfl
      obtain ⟨g, hg⟩ := hmain hall
      exact .root hload hall hg ((ofLibrary_slips hg).mp h)
  · rintro (h | ⟨hload, hsplit, hbefore, htrips⟩ | ⟨hload, hall, hg, htrips⟩)
    · exact .inl h
    · refine .inr ⟨_, hload, slips_bind.mpr (.inl ?_)⟩
      exact loadExtras_slips.mpr ⟨_, _, _, _, _, hsplit, hbefore, htrips⟩
    · refine .inr ⟨_, hload, slips_bind.mpr (.inr ⟨_, by rw [hall], ?_⟩)⟩
      exact (ofLibrary_slips hg).mpr htrips

end Tokenizer

end Highlighter

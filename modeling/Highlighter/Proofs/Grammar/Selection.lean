import Highlighter.Proofs.Grammar.Reachability
import Highlighter.Proofs.Grammar.Standing

/-! What a compiler builds. Its lists offer the rules that are reached, each by the pattern that it starts by;
a search of several patterns answers with the place of one of them, and the rule at that place is the one
whose pattern has the match. -/

namespace Highlighter.Pattern

variable {text : Text} {start attempt position index i fuel : Nat} {m : Match} {book book' : CounterBook}

/-- A match of a pattern, found by trying the pattern at some place of the text. -/
def Regex.Yields (r : Regex) (text : Text) (start : Nat) (m : Match) : Prop :=
  ∃ attempt place counters finding, r.runAt text start attempt place counters = .ok finding ∧
    finding.match? = some m

theorem matchAnyAt_yields {rs : List (Regex × Course)}
    (h : matchAnyAt text start attempt position rs index book = .ok (some (i, m), book')) :
    ∃ k r, i = index + k ∧ (rs.map (·.1))[k]? = some r ∧ r.Yields text start m := by
  induction rs generalizing index book with
  | nil => cases h
  | cons pair rs ih =>
    obtain ⟨r, course⟩ := pair
    have hlater {book : CounterBook}
        (h : matchAnyAt text start attempt position rs (index + 1) book = .ok (some (i, m), book')) :
        ∃ k r', i = index + k ∧ (((r, course) :: rs).map (·.1))[k]? = some r' ∧ r'.Yields text start m := by
      obtain ⟨k, r', hi, hr', hyields⟩ := ih h
      exact ⟨k + 1, r', by omega, hr', hyields⟩
    rw [matchAnyAt] at h
    split at h
    · exact hlater h
    · dsimp only at h
      split at h
      · cases h
      · rename_i finding hrun
        split at h
        · rename_i hmatch
          cases h
          exact ⟨0, r, rfl, rfl, _, _, _, finding, hrun, hmatch⟩
        · exact hlater h

theorem searchAnyFrom_yields {rs : List (Regex × Course)}
    (h : searchAnyFrom rs text start fuel attempt position book = .ok (some (i, m))) :
    ∃ r, (rs.map (·.1))[i]? = some r ∧ r.Yields text start m := by
  induction fuel generalizing attempt position book with
  | zero => cases h
  | succ fuel ih =>
    rw [searchAnyFrom] at h
    split at h
    · cases h
    · rename_i found book' hmatch
      cases h
      obtain ⟨k, r, hi, hr, hyields⟩ := matchAnyAt_yields hmatch
      rw [Nat.zero_add] at hi
      exact ⟨r, hi ▸ hr, hyields⟩
    · exact ih h

/-- A search of several patterns answers with the place of a pattern that has the match. -/
theorem searchAny_yields {rs : List Regex} (h : searchAny rs text start = .ok (some (i, m))) :
    ∃ r, rs[i]? = some r ∧ r.Yields text start m := by
  unfold searchAny at h
  split at h
  · cases h
  · obtain ⟨r, hr, hyields⟩ := searchAnyFrom_yields h
    refine ⟨r, ?_, hyields⟩
    rw [List.getElem?_map, Option.map_eq_some_iff] at hr
    obtain ⟨pair, hpair, rfl⟩ := hr
    exact (List.getElem?_zip_eq_some.mp hpair).1

end Highlighter.Pattern

namespace Highlighter.Grammar

open Highlighter.Pattern (Match Regex Text)

/-! ### Choices -/

/-- When a pattern has a match in a text that is searched from a position on. -/
abbrev Having := Regex → Text → Nat → Match → Prop

/-- Of several patterns an engine answers with the place of one that has the match. -/
def Engine.Places (engine : Engine) (has : Having) : Prop :=
  ∀ {regexes text position i m}, engine.searchAny regexes text position = .ok (some (i, m)) →
    ∃ regex, regexes[i]? = some regex ∧ has regex text position m

theorem Engine.standard_places : Engine.standard.Places Regex.Yields := Pattern.searchAny_yields

/-- The patterns of a choice are those that its rules start by, one for one, and a search of them selects the
rule whose pattern has the match. -/
structure Choice.Selects (engine : Engine) (has : Having) (choice : Choice) : Prop where
  length_eq : choice.regexes.length = choice.candidates.length
  reads : ∀ (i : Nat) (x : Candidate), choice.candidates[i]? = some x →
    ∃ pattern regex, x.rule.start? = some pattern ∧ engine.Reads pattern regex ∧
      choice.regexes[i]? = some regex
  selects : ∀ line position i m, engine.searchAny choice.regexes line position = .ok (some (i, m)) →
    ∃ (x : Candidate) (regex : Regex), choice.candidates[i]? = some x ∧
      choice.regexes[i]? = some regex ∧ has regex line position m ∧
      ∀ c, outcome (findChoice engine choice line position) c = (.ok (some (x.rule, m)), c)

variable {engine : Engine} {has : Having} {l : Library} {g : Grammar} {r : Rule} {c d : Compiler}
  {choice : Choice} {k root : Compiled}

theorem findChoice_eq {line : Text} {position i : Nat} {m : Match} {x : Candidate}
    (hit : engine.searchAny choice.regexes line position = .ok (some (i, m)))
    (hx : choice.candidates[i]? = some x) :
    outcome (findChoice engine choice line position) c = (.ok (some (x.rule, m)), c) := by
  have hanswer : outcome (answer (engine.searchAny choice.regexes line position)) c =
      (.ok (some (i, m)), c) := by
    rw [hit]
    rfl
  unfold findChoice
  rw [outcome_bind_ok hanswer]
  dsimp only
  rw [hx, outcome_pure]
  rfl

theorem Choice.Fits.selects (hplaces : engine.Places has) (h : choice.Fits engine l) :
    choice.Selects engine has := by
  have hlength := h.read.length_eq.symm
  refine ⟨hlength, fun i x hx => ?_, fun line position i m hit => ?_⟩
  · obtain ⟨regex, hregex, hread⟩ := h.regex hx
    exact ⟨x.pattern, regex, h.offered x (List.mem_of_getElem? hx), hread, hregex⟩
  · obtain ⟨regex, hregex, hhas⟩ := hplaces hit
    have hi : i < choice.candidates.length := by
      rw [← hlength]
      exact (List.getElem?_eq_some_iff.mp hregex).1
    have hx : choice.candidates[i]? = some choice.candidates[i] := List.getElem?_eq_getElem hi
    exact ⟨_, regex, hx, hregex, hhas, fun c => findChoice_eq hit hx⟩

/-! ### Compilers -/

/-- A rule that is kept ready is what making it ready gives again. -/
theorem Compiler.Faithful.compileRule_kept {id : RuleId} (hc : c.Faithful engine)
    (h : c.compiled.lookup id = some k) : ∃ r, c.Met r ∧ Returns (compileRule engine r) c k c := by
  obtain ⟨-, -, r, rfl, hr, -⟩ := hc.ready id k h
  refine ⟨r, hr, ?_⟩
  rw [Returns, compileRule, outcome_bind_ok outcome_get, h, outcome_pure]

/-- What a rule that is kept ready offers, it offers by the patterns that the rules start by. -/
theorem Compiler.Sane.fits {known : Rule → Prop} {id : RuleId} (hc : c.Sane engine l known)
    (h : c.compiled.lookup id = some k) (hchoice : k.form.choice? = some choice) : choice.Fits engine l := by
  obtain ⟨r, hr, hreturns⟩ := hc.faithful.compileRule_kept h
  exact (compileRule_of hc hr hreturns).fits hchoice

/-- Flattening the patterns of a grammar fails exactly if a rule is reached that asks for the base where there
is none. -/
theorem candidatesOf_fails_iff (hw : l.WellFormed) (hg : l.Lists (g, g.patterns)) :
    (outcome (candidatesOf g g.patterns) { library := l }).1 = .error .noBase ↔
      ∃ h r, Reached l g h r ∧ Asks l r := by
  have hreached := candidatesOf_reached hw hg
  rcases hresult : outcome (candidatesOf g g.patterns) { library := l } with ⟨f | cs, d⟩ <;>
    rw [hresult] at hreached
  · obtain ⟨rfl, hasks⟩ := hreached
    exact iff_of_true rfl hasks
  · exact iff_of_false nofun hreached.1

/-- Else the rules that start in the list are those that are reached. -/
theorem candidatesOf_returns (hw : l.WellFormed) (hg : l.Lists (g, g.patterns))
    (hbased : ¬ ∃ h r, Reached l g h r ∧ Asks l r) :
    ∃ cs d, Returns (candidatesOf g g.patterns) { library := l } cs d ∧
      ∀ r, (∃ x ∈ cs, x.rule = r) ↔ r.include = none ∧
        (r.matchPattern.isSome ∨ r.beginPattern.isSome) ∧ ∃ h, Reached l g h r := by
  have hreached := candidatesOf_reached hw hg
  rcases hresult : outcome (candidatesOf g g.patterns) { library := l } with ⟨f | cs, d⟩ <;>
    rw [hresult] at hreached
  · exact absurd hreached.2 hbased
  · refine ⟨cs, d, hresult, fun r => ?_⟩
    rw [hreached.2 r, own_ne_nil, and_assoc]

/-- The lists of a compiler, and the choices of the rules that it has made ready, offer rules by the patterns
that these start by. -/
theorem compileRoot_selects {library : Library} (hw : library.WellFormed)
    (hg : library.Lists (g, g.patterns)) (hplaces : engine.Places has)
    (hroot : Returns (compileRoot engine g) { library } root c) (hmakes : c.Makes engine d) :
    (∀ e ∈ d.lists, ∀ x ∈ e.2, x.rule.start? = some x.pattern) ∧
      ∀ k, (k = root ∨ ∃ id, d.compiled.lookup id = some k) →
        ∀ choice : Choice, k.form.choice? = some choice → choice.Selects engine has := by
  have hfresh : Compiler.Faithful engine { library } := faithful_start hw
  obtain ⟨choice, hmade, hfits, hsane⟩ := compileRoot_fits hfresh nofun hg.has hroot
  have hlater : d.Sane engine library (fun _ => False) :=
    ⟨⟨hmakes.faithful hsane.faithful, nofun⟩, hmakes.starting hsane.starting,
      hmakes.grows.library_eq.trans hsane.library_eq⟩
  refine ⟨hlater.starting, ?_⟩
  rintro k (rfl | ⟨id, hk⟩) choice hchoice
  · rw [hmade] at hchoice
    cases hchoice
    exact hfits.selects hplaces
  · exact (hlater.fits hk hchoice).selects hplaces

/-- What a compiler builds from the patterns of the main grammar on, and whatever rules it makes ready later;
a tokenizer that reads documents does no more with its compiler. Flattening those patterns never gets as
deep as its fuel, whatever would be done there. It fails exactly if a rule is reached that asks for the base
where there is none; else the rules that start in the list are those that are reached. All lists offer rules
by the patterns that these start by, so a search selects the rule whose pattern has the match, over any engine
that answers a search of several patterns with the place of such a pattern. -/
theorem compiler_lists (hw : l.WellFormed) (hg : l.mainGrammar? = some g) :
    (∀ deeper, outcome (flattenTo deeper (Library.listBound l) g g.patterns) { library := l } =
      outcome (candidatesOf g g.patterns) { library := l }) ∧
    ((outcome (candidatesOf g g.patterns) { library := l }).1 = .error .noBase ↔
      ∃ h r, Reached l g h r ∧ Asks l r) ∧
    ((¬ ∃ h r, Reached l g h r ∧ Asks l r) →
      ∃ cs d, Returns (candidatesOf g g.patterns) { library := l } cs d ∧
        ∀ r, (∃ x ∈ cs, x.rule = r) ↔ r.include = none ∧
          (r.matchPattern.isSome ∨ r.beginPattern.isSome) ∧ ∃ h, Reached l g h r) ∧
    ∀ (engine : Engine) (has : Having), engine.Places has →
      ∀ root c d, Returns (compileRoot engine g) { library := l } root c → c.Makes engine d →
        (∀ e ∈ d.lists, ∀ x ∈ e.2, x.rule.start? = some x.pattern) ∧
        ∀ k, (k = root ∨ ∃ id, d.compiled.lookup id = some k) →
          ∀ choice : Choice, k.form.choice? = some choice → choice.Selects engine has := by
  have hlists : l.Lists (g, g.patterns) := .grammar (Library.find?_mem hg)
  exact ⟨flattenTo_candidatesOf hw hlists, candidatesOf_fails_iff hw hlists,
    candidatesOf_returns hw hlists, fun engine has hplaces root c d => compileRoot_selects hw hlists hplaces⟩

/-- A tree with one grammar, whose groups include each other and the whole. -/
def circle : Files.Tree :=
  let grammar := ["\x7b\"scopeName\":\"s\",\"patterns\":[",
    "\x7b\"include\":\"#a\"\x7d,\x7b\"include\":\"$base\"\x7d],\"repository\":\x7b",
    "\"a\":\x7b\"patterns\":[\x7b\"match\":\"1\"\x7d,\x7b\"include\":\"#b\"\x7d]\x7d,",
    "\"b\":\x7b\"patterns\":[\x7b\"include\":\"#a\"\x7d,\x7b\"begin\":\"2\",\"end\":\"3\"\x7d,",
    "\x7b\"include\":\"$self\"\x7d]\x7d\x7d\x7d"]
  ⟨[(["g.json"], .file (Text.encodeUtf8 (grammar.flatMap String.toList)))]⟩

theorem compiler_lists_circle : ∃ t notes l g choice,
    Tokenizer.load circle (.ofString "g.json") "s" [] = (.ok t, notes) ∧ Library.WellFormed l ∧
      l.mainGrammar? = some g ∧ t.root.form.choice? = some choice ∧
      choice.candidates.map (·.pattern) = (["1", "2"] : List Str) ∧
      (∀ r, (∃ x ∈ choice.candidates, x.rule = r) ↔ r.include = none ∧
        (r.matchPattern.isSome ∨ r.beginPattern.isSome) ∧ ∃ h, Reached l g h r) ∧
      choice.Selects .standard Regex.Yields := by
  have hrun : Tokenizer.resultOf (Tokenizer.load circle (.ofString "g.json") "s" [])
      (fun t => .ok (t.root.form.choice?.map fun choice => choice.candidates.map (·.pattern))) =
        some (some (["1", "2"] : List Str)) := by decide +kernel
  obtain ⟨t, notes, ht, hpatterns⟩ := Tokenizer.resultOf_eq hrun
  obtain ⟨choice, hchoice, hpatterns⟩ := Option.map_eq_some_iff.mp (Except.ok.inj hpatterns)
  obtain ⟨library, c, hw, hmade⟩ := Tokenizer.loadWith_made ht
  obtain ⟨g, hg, -, hroot⟩ := Tokenizer.ofLibrary_made hmade
  obtain ⟨-, hstops, hlist, hselects⟩ := compiler_lists hw hg
  obtain ⟨made, hmade, hreturns⟩ := compileRoot_made hroot
  obtain rfl : made = choice := by
    rw [hmade] at hchoice
    exact Option.some.inj hchoice
  have hbased : ¬ ∃ h r, Reached library g h r ∧ Asks library r := by
    rw [← hstops, show outcome (candidatesOf g g.patterns) { library } = _ from hreturns]
    exact nofun
  obtain ⟨cs, d, hcs, hiff⟩ := hlist hbased
  obtain ⟨rfl, -⟩ := hcs.unique hreturns
  exact ⟨t, notes, library, g, made, ht, hw, hg, hchoice, hpatterns, hiff,
    (hselects _ _ Engine.standard_places _ _ _ hroot (.refl _)).2 _ (.inl rfl) made hchoice⟩

/-- A tree with one grammar, which includes the base beside a rule of its own. -/
def baseless : Files.Tree :=
  let grammar := ["\x7b\"scopeName\":\"s\",\"patterns\":[",
    "\x7b\"include\":\"$base\"\x7d,\x7b\"match\":\"a\",\"name\":\"m\"\x7d]\x7d"]
  ⟨[(["g.json"], .file (Text.encodeUtf8 (grammar.flatMap String.toList)))]⟩

/-- Loaded under no scope, the grammar is not found under the scope it gives itself, and there is no list
though one of its own rules starts by a match. -/
theorem candidatesOf_baseless : ∃ g r,
    Grammar.load baseless 0 (.ofString "g.json") (some "") = .ok g ∧
      Library.WellFormed ⟨"", [("", g)]⟩ ∧ Library.mainGrammar? ⟨"", [("", g)]⟩ = some g ∧
      Reached ⟨"", [("", g)]⟩ g g r ∧ r.include = none ∧ r.matchPattern = some ("a" : Str) ∧
      (outcome (candidatesOf g g.patterns) { library := ⟨"", [("", g)]⟩ }).1 = .error .noBase := by
  have hrun : (Grammar.load baseless 0 (.ofString "g.json") (some "")).toOption.map (fun g =>
      (g.scopeName, g.patterns.map fun r => (r.include, r.matchPattern))) =
        some (("s" : Str), [(some ("$base" : Str), none), (none, some ("a" : Str))]) := by decide +kernel
  cases hload : Grammar.load baseless 0 (.ofString "g.json") (some "") with
  | error e =>
    rw [hload] at hrun
    cases hrun
  | ok g =>
  rw [hload, Except.toOption, Option.map_some, Option.some.injEq, Prod.mk.injEq] at hrun
  obtain ⟨hname, hrules⟩ := hrun
  obtain ⟨s, rest, hpatterns, hbase, hrest⟩ := List.map_eq_cons_iff.mp hrules
  obtain ⟨r, last, rfl, hown, -⟩ := List.map_eq_cons_iff.mp hrest
  have hw : Library.WellFormed ⟨"", [("", g)]⟩ := .single (Grammar.load_identified hload).2
  have hmain : Library.mainGrammar? ⟨"", [("", g)]⟩ = some g := rfl
  have hnone : Library.base? ⟨"", [("", g)]⟩ = none := by
    rw [Library.base?, hmain]
    simp [Library.find?, hname]
  have hs : Reached ⟨"", [("", g)]⟩ g g s := .pattern (by simp [hpatterns])
  have hr : Reached ⟨"", [("", g)]⟩ g g r := .pattern (by simp [hpatterns])
  refine ⟨g, r, rfl, hw, hmain, hr, (Prod.mk.inj hown).1, (Prod.mk.inj hown).2, ?_⟩
  rw [candidatesOf_fails_iff hw (.grammar (Library.find?_mem hmain))]
  exact ⟨g, s, hs, (Prod.mk.inj hbase).1, hnone⟩

end Highlighter.Grammar

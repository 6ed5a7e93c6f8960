import Highlighter.Proofs.Grammar.Coverage
import Highlighter.Proofs.Grammar.Standing
import Highlighter.Proofs.Grammar.Termination

/-! What can stop the division of a line. The user is told of a pattern's fault; a line may never be
finished; every other failure is the fault of some rule, and it says which kind of rule. -/

namespace Highlighter.Grammar

open Highlighter.Pattern (Match PatternError Regex Span Text expandFrom)

/-- The engine gives a pattern or a text up with a fault. -/
inductive Engine.Faults (engine : Engine) (e : PatternError) : Prop
  | read {source : String} : engine.read source = .error e → Faults engine e
  | search {regex : Regex} {text : Text} {position : Nat} :
      engine.search regex text position = .error e → Faults engine e
  | matchAt {regex : Regex} {text : Text} {position : Nat} :
      engine.matchAt regex text position = .error e → Faults engine e
  | searchAny {regexes : List Regex} {text : Text} {position : Nat} :
      engine.searchAny regexes text position = .error e → Faults engine e

/-- The texts of a rule's patterns. -/
def Rule.texts (r : Rule) : List Str :=
  [r.matchPattern, r.beginPattern, r.endPattern, r.whilePattern].flatMap Option.toList

/-- What the grammars have to contain for a failure. -/
inductive Blame (engine : Engine) (l : Library) : Failure → Prop
  /-- The engine has a fault about which nothing can be said. -/
  | pattern {e : PatternError} : engine.Faults e → e.message? = none → Blame engine l (.pattern e)
  /-- A pattern contains a surrogate that stands alone. -/
  | unencodable {r : Rule} {source : Str} : l.Owns r → source ∈ r.texts → source.isEncodable = false →
    Blame engine l .unencodable
  /-- A rule begins by a match and has neither an end nor a condition. -/
  | startedPatterns {r : Rule} {pattern : Str} {text : Text} {m : Match} : l.Owns r →
      r.matchPattern = none → r.beginPattern = some pattern → r.template? = none →
      engine.Finds pattern text m → Blame engine l .startedPatterns
  /-- The rule of a capture covers a match of its own. -/
  | searchedSingle {r : Rule} {x : Nat × Rule} {pattern : Str} : l.Owns r → x ∈ r.captured →
      x.2.matchPattern = some pattern → Blame engine l .searchedSingle
  /-- The rule of a capture lies between two matches of its own. -/
  | noEnding {r : Rule} {x : Nat × Rule} {pattern ending : Str} : l.Owns r → x ∈ r.captured →
      x.2.matchPattern = none → x.2.beginPattern = some pattern → x.2.endPattern = some ending →
      Blame engine l .noEnding
  /-- A group of a match begins before the match does. -/
  | noRegion {r : Rule} {text : Text} {m : Match} {captures : Captures} {x : Nat × Rule} {span : Span} :
      l.Owns r → Matches engine r text m captures → x ∈ captures →
      m.group? x.1 = some (some span) → span.start < span.stop → span.start < m.start →
      Blame engine l .noRegion
  /-- The end or the condition of a rule refers to a group that its beginning lacks. -/
  | noGroup {r : Rule} {text : Text} {m : Match} {template : Str} : l.Owns r →
      Begins engine r text m template → m.expand? text template = none → Blame engine l .noGroup
  /-- The main grammar calls itself otherwise than it is called. -/
  | noBase : l.base? = none → Blame engine l .noBase

/-- The user is told of the failure, a line was never finished, or the grammars are to blame. -/
def Excused (engine : Engine) (l : Library) (f : Failure) : Prop :=
  f.Told ∨ f.Unending ∨ Blame engine l f

/-- The step fails only where that is excused. -/
abbrev FailsExcused {α : Type} (engine : Engine) (l : Library) (x : Compile α) (c : Compiler) : Prop :=
  Gives (fun _ => True) (Excused engine l) x c

/-! ### Texts that can be written in bytes -/

theorem isEncodable_slashes {n : Nat} : (List.replicate n (CodePoint.char '\\')).all (·.char?.isSome) = true := by
  refine List.all_eq_true.mpr fun c hc => ?_
  rw [List.eq_of_mem_replicate hc]
  rfl

theorem isEncodable_expandFrom {group? : Nat → Option (List CodePoint)}
    (hg : ∀ n s, group? n = some s → s.all (·.char?.isSome) = true) {slashes : Nat} {number : Option Nat}
    {template filled : List CodePoint} (ht : template.all (·.char?.isSome) = true)
    (h : expandFrom group? slashes number template = some filled) :
    filled.all (·.char?.isSome) = true := by
  induction template generalizing slashes number filled with
  | nil =>
    cases number with
    | none =>
      cases h
      exact isEncodable_slashes
    | some n => exact hg n filled h
  | cons c rest ih =>
    rw [List.all_cons, Bool.and_eq_true] at ht
    obtain ⟨hc, hrest⟩ := ht
    cases number with
    | none =>
      rw [expandFrom] at h
      split at h
      · exact ih hrest h
      · split at h
        · obtain ⟨s, hs, rfl⟩ := Option.map_eq_some_iff.mp h
          rw [List.all_append, isEncodable_slashes, ih hrest hs]
          rfl
        · obtain ⟨s, hs, rfl⟩ := Option.map_eq_some_iff.mp h
          rw [List.all_append, isEncodable_slashes, List.all_cons, hc, ih hrest hs]
          rfl
    | some n =>
      rw [expandFrom] at h
      split at h
      · exact ih hrest h
      · obtain ⟨inserted, hinserted, h⟩ := Option.bind_eq_some_iff.mp h
        split at h
        · obtain ⟨s, hs, h⟩ := Option.bind_eq_some_iff.mp h
          cases h
          rw [List.all_append, hg n inserted hinserted, ih hrest hs]
          rfl
        · obtain ⟨s, hs, h⟩ := Option.bind_eq_some_iff.mp h
          cases h
          rw [List.all_append, hg n inserted hinserted, List.all_cons, hc, ih hrest hs]
          rfl

/-- What a template is filled with are characters, so a filled template that cannot be written in bytes has
it from the template. -/
theorem isEncodable_expand {m : Match} {text : Text} {template source : Str}
    (ht : template.isEncodable = true) (h : m.expand? text template = some source) :
    source.isEncodable = true := by
  obtain ⟨filled, hfilled, rfl⟩ := Option.map_eq_some_iff.mp h
  refine isEncodable_expandFrom (fun n s hs => ?_) ht hfilled
  obtain ⟨cs, -, rfl⟩ := Option.map_eq_some_iff.mp hs
  rw [List.all_map]
  exact List.all_eq_true.mpr fun _ _ => rfl

/-! ### Rules -/

section
variable {α : Type} {engine : Engine} {l : Library} {c d : Compiler} {r : Rule} {known : Rule → Prop}
  {line : Text} {m : Match} {position : Nat} {f : Frame}

theorem Rule.start_mem {pattern : Str} (h : r.start? = some pattern) : pattern ∈ r.texts := by
  rw [Rule.start?, Option.or_eq_some_iff] at h
  rcases h with h | ⟨-, h⟩ <;> simp [Rule.texts, h]

theorem Rule.template_mem {template : Str} (h : r.template? = some template) : template ∈ r.texts := by
  rw [Rule.template?, Option.or_eq_some_iff] at h
  rcases h with h | ⟨-, h⟩ <;> simp [Rule.texts, h]

theorem answer_excused {x : Except PatternError α} (h : ∀ e, x = .error e → engine.Faults e) :
    FailsExcused engine l (answer x) c := by
  unfold answer
  cases x with
  | ok a => exact .pure trivial
  | error e =>
    refine .throw ?_
    cases hmessage : e.message? with
    | none => exact .inr (.inr (.pattern (h e rfl) hmessage))
    | some message => exact .inl (show e.message?.isSome = true by rw [hmessage]; rfl)

theorem readPattern_excused {source : Str}
    (h : source.isEncodable = false → Blame engine l .unencodable) :
    FailsExcused engine l (readPattern engine source) c := by
  unfold readPattern
  split
  · exact answer_excused fun e => .read
  · rename_i hsource
    exact .throw (.inr (.inr (h (Str.text?_eq_none.mp hsource))))

/-- A list of rules by the patterns they start by has the faults of its patterns. -/
theorem choiceOf_excused {candidates : List Candidate} (howned : ∀ x ∈ candidates, l.Owns x.rule)
    (hoffered : Offered candidates) : FailsExcused engine l (choiceOf engine candidates) c := by
  have hread : FailsExcused engine l (candidates.mapM fun x => readPattern engine x.pattern) c :=
    .mapM fun x hx _ => readPattern_excused fun hsource =>
      .unencodable (howned x hx) (Rule.start_mem (hoffered x hx)) hsource
  unfold choiceOf
  refine hread.bind fun regexes _ _ _ => ?_
  split
  · change Excused engine l (.pattern .invalidArgument)
    exact .inl rfl
  · exact .pure trivial

/-- A rule that was met is made ready, or one of the patterns that it offers is at fault. -/
theorem compileRule_excused (hc : c.Sane engine l known) (hr : c.Met r) :
    FailsExcused engine l (compileRule engine r) c := by
  by_cases hbase : c.library.base? = none
  · unfold FailsExcused Gives
    rw [compileRule_noBase hc.faithful hbase]
    exact .inr (.inr (.noBase (hc.library_eq ▸ hbase)))
  · obtain ⟨hp, hfaithful⟩ := compileRule_prepared hc.faithful hr
    have hprepares := hp.prepares hbase
    have hkeeps : Upholds _ (fun _ => True) (compileRule engine r) := compileRule_upholds lasting_offered
    have hstarting := (hkeeps c hc.starting).1
    unfold FailsExcused Gives
    unfold Compiler.Prepares at hprepares
    split at hprepares
    · rw [hprepares]
      trivial
    · obtain ⟨candidates, hkept, hresult⟩ := hprepares
      have howned (x : Candidate) (hx : x ∈ candidates) : l.Owns x.rule := by
        obtain ⟨n, -, hlookup⟩ := Option.bind_eq_some_iff.mp hkept
        obtain ⟨g, hg, -⟩ := hfaithful.lists _ _ hlookup x.rule ⟨x, hx, rfl⟩
        exact ⟨g, (hp.grows.library_eq.trans hc.library_eq) ▸ hg⟩
      have hchoice : FailsExcused engine l (choiceOf engine candidates) (outcome (compileRule engine r) c).2 :=
        choiceOf_excused howned (Compiler.Starting.kept hstarting hkept)
      rw [hresult]
      rcases hanswer : (outcome (choiceOf engine candidates) (outcome (compileRule engine r) c).2).1
        with e | choice
      · exact hchoice.fails hanswer
      · trivial

/-- The template of a rule is filled and read, or the rule is at fault. -/
theorem endingFor_excused {template : Str} (hr : l.Owns r) (hbegins : Begins engine r line m template) :
    FailsExcused engine l (endingFor engine m line template) c := by
  unfold endingFor
  split
  · rename_i source hsource
    refine readPattern_excused fun hbad => .unencodable hr (Rule.template_mem hbegins.template) ?_
    cases htemplate : template.isEncodable with
    | false => rfl
    | true =>
      rw [isEncodable_expand htemplate hsource] at hbad
      cases hbad
  · rename_i hnone
    exact .throw (.inr (.inr (.noGroup hr hbegins hnone)))

/-- A rule that is started at a match of its own pattern starts, or is at fault. -/
theorem startRule_excused {target : Compiled} {pattern : Str} (hr : l.Owns r)
    (hof : target.form.Of engine l r) (hstart : r.start? = some pattern)
    (hfinds : engine.Finds pattern line m) : FailsExcused engine l (startRule engine line m target) c := by
  have hbegin {pattern' : Str} (hmatch : r.matchPattern = none)
      (hbegin : r.beginPattern = some pattern') : engine.Finds pattern' line m := by
    rw [Rule.start?, hmatch, hbegin] at hstart
    cases hstart
    exact hfinds
  have hending {template : Str} (h : Begins engine r line m template) :
      FailsExcused engine l (endingFor engine m line template) c := endingFor_excused hr h
  unfold startRule
  split <;> rename_i heq <;> rw [heq] at hof
  · refine .throw (.inr (.inr ?_))
    cases hof with
    | patternsOnly hmatch hnone =>
      rw [Rule.start?, hmatch, Option.none_or] at hstart
      rcases hnone with hnone | hnone
      · rw [hnone] at hstart
        cases hstart
      · exact .startedPatterns hr hmatch hstart hnone (hbegin hmatch hstart)
  · exact .pure trivial
  · cases hof with
    | beginEnd hmatch hpattern hend =>
      refine (hending ⟨hmatch, ⟨_, hpattern, hbegin hmatch hpattern⟩, ?_⟩).bind fun _ _ _ _ => .pure trivial
      rw [Rule.template?, hend]
      rfl
  · cases hof with
    | beginWhile hmatch hpattern hend hwhile =>
      refine (hending ⟨hmatch, ⟨_, hpattern, hbegin hmatch hpattern⟩, ?_⟩).bind fun _ _ _ _ => .pure trivial
      rw [Rule.template?, hend, hwhile]
      rfl

/-! ### Searches -/

theorem findChoice_excused {choice : Choice} :
    FailsExcused engine l (findChoice engine choice line position) c := by
  refine (answer_excused fun e => .searchAny).bind fun answered _ _ _ => ?_
  split
  · exact .pure trivial
  · exact .pure trivial

/-- What a choice has found is started, or is at fault. -/
theorem takeChoice_excused {choice : Choice} {found : Option (Rule × Match)}
    (hfits : choice.Fits engine l) (hc : c.Sane engine l (mentions choice))
    (hfound : Returns (findChoice engine choice line position) c found d) :
    FailsExcused engine l (takeChoice engine line found) d := by
  obtain ⟨rfl, hhit⟩ := findChoice_found hfound
  unfold takeChoice
  split
  · exact .pure trivial
  · rename_i rule m
    obtain ⟨index, candidate, hit, htaken, rfl⟩ := hhit rule m rfl
    obtain ⟨hr, hstart, hfinds⟩ := hfits.finds htaken hit
    have hmet : d.Met candidate.rule := hc.met _ ⟨candidate, List.mem_of_getElem? htaken, rfl⟩
    refine (compileRule_excused hc hmet).bind fun target d₁ htarget _ => ?_
    exact (startRule_excused hr (compileRule_of hc hmet htarget) hstart hfinds).bind
      fun event d₂ _ _ => .pure trivial

theorem choose_excused {choice : Choice} (hfits : choice.Fits engine l)
    (hc : c.Sane engine l (mentions choice)) :
    FailsExcused engine l
      (findChoice engine choice line position >>= fun found => takeChoice engine line found) c :=
  findChoice_excused.bind fun _ _ hfound _ => takeChoice_excused hfits hc hfound

/-- A search of a frame that stands on a stack comes to something, or a rule is at fault. -/
theorem seek_excused (hc : c.Sane engine l (mentions f.rule))
    (hf : f.Ground engine l ∨ f.Opened engine l) :
    FailsExcused engine l (seek engine line f.rule f.ending position) c := by
  have hfits {choice : Choice} (h : f.rule.form.choice? = some choice) : choice.Fits engine l :=
    hf.elim (·.fits h) (·.fits h)
  have hknows {choice : Choice} (h : f.rule.form.choice? = some choice) :
      c.Sane engine l (mentions choice) := hc.mono fun r hr => .inl ⟨choice, h, hr⟩
  unfold seek
  split <;> rename_i heq
  · refine .throw (.inr (.inr ?_))
    rcases hf with ⟨-, ⟨choice, hform, -⟩ | ⟨r, x, hr, hx, hof⟩⟩ | ⟨r, regex, -, hof, -, hclosing⟩
    · rw [heq] at hform
      cases hform
    · rw [heq] at hof
      cases hof with
      | single hmatch => exact .searchedSingle hr hx hmatch
    · rw [heq] at hof
      obtain ⟨_, _, _, _, hbegins, -⟩ := hclosing
      cases hof with
      | single hmatch =>
        rw [hbegins.unmatched] at hmatch
        cases hmatch
  · have hoffers : f.rule.form.choice? = some _ := congrArg Form.choice? heq
    exact choose_excused (hfits hoffers) (hknows hoffers)
  · have hoffers : f.rule.form.choice? = some _ := congrArg Form.choice? heq
    exact choose_excused (hfits hoffers) (hknows hoffers)
  · have hoffers : f.rule.form.choice? = some _ := congrArg Form.choice? heq
    split
    · rename_i hending
      refine .throw (.inr (.inr ?_))
      rcases hf with ⟨-, ⟨choice, hform, -⟩ | ⟨r, x, hr, hx, hof⟩⟩ | ⟨r, regex, -, -, hopened, -⟩
      · rw [heq] at hform
        cases hform
      · rw [heq] at hof
        cases hof with
        | beginEnd hmatch hbegin hend => exact .noEnding hr hx hmatch hbegin hend
      · rw [hending] at hopened
        cases hopened
    · refine (answer_excused fun e => .search).bind fun answered d hanswer _ => ?_
      obtain ⟨-, rfl⟩ := Returns.answer hanswer
      split
      · exact choose_excused (hfits hoffers) (hknows hoffers)
      · split
        · exact .pure trivial
        · refine findChoice_excused.bind fun found d hfound _ => ?_
          have htake := takeChoice_excused (hfits hoffers) (hknows hoffers) hfound
          split
          · exact .pure trivial
          · split
            · exact .pure trivial
            · exact htake

/-! ### Captures -/

/-- A division under the rule of a capture leaves nothing out and fails only where that is excused. -/
structure Division.Excused (engine : Engine) (l : Library) (divide : Division) : Prop where
  lockstep : divide.Lockstep engine
  covers : divide.Covers
  fails : ∀ {text scope rule c r x}, c.Sane engine l (mentions rule) → l.Owns r → x ∈ r.captured →
    rule.form.Of engine l x.2 → FailsExcused engine l (divide text scope rule) c

variable {divide : Division} {scope : Scope} {captures : Captures} {s : Stack} {regions : List Region}

theorem addSpan_excused (hd : divide.Excused engine l) {span : Span} {x : Nat × Rule} {p : Progress}
    (hr : l.Owns r) (hx : x ∈ r.captured) (hc : c.Sane engine l (mentions x.2))
    (hp : p.regions = [] → span.start < p.covered → Blame engine l .noRegion) :
    FailsExcused engine l (addSpan engine divide line scope span x.2 p) c := by
  have hknown : mentions x.2 x.2 := rfl
  unfold addSpan
  refine (compileRule_excused hc (hc.met _ hknown)).bind fun rule d hrule _ => ?_
  have hsane : d.Sane engine l (mentions rule) :=
    ((Lockstep.compileRule hknown).sane hc hrule).mono fun _ => .inr
  have hdivide {scope : Scope} :
      FailsExcused engine l (divide (line.extract span.start span.stop) scope rule) d :=
    hd.fails hsane hr hx (compileRule_of hc (hc.met _ hknown) hrule)
  split
  · rename_i hlt
    split
    · rename_i hnone
      refine .throw (.inr (.inr (hp ?_ hlt)))
      by_contra hne
      exact holder?_ne_none (fun h => hne (List.reverse_eq_nil_iff.mp h)) hnone
    · exact hdivide.bind fun _ _ _ _ => .pure trivial
  · exact hdivide.bind fun _ _ _ _ => .pure trivial

/-- As long as a match has no regions, nothing of it is covered. -/
def Progress.Begun (m : Match) (p : Progress) : Prop := p.regions = [] → p.covered = m.start

theorem addCapture_begun (hd : divide.Covers) (hm : m.Lies position line.size) {x : Nat × Rule}
    {p q : Progress} (hp : p.Begun m)
    (h : Returns (addCapture engine divide line scope m x p) c q d) : q.Begun m := by
  obtain ⟨rfl, -⟩ | ⟨span, hgroup, hne, h⟩ := addCapture_cases h
  · exact hp
  · obtain ⟨hle, hsize⟩ := hm.group hgroup
    have hinner {scope : Scope} {rule : Compiled} {inner : List Region} {c₁ : Compiler}
        (h : Returns (divide (line.extract span.start span.stop) scope rule) c₁ inner d) : inner ≠ [] := by
      rintro rfl
      have hover := covers_span hd hsize h span.start (Nat.le_refl _) (by omega)
      simp at hover
    intro hnil
    exfalso
    obtain ⟨rule, c₁, inner, -, ⟨-, before, old, after, -, hdivide, rfl⟩ | ⟨-, hdivide, rfl⟩⟩ :=
      addSpan_cases h
    · simp [splice, hinner hdivide] at hnil
    · simp [hinner hdivide] at hnil

/-- A capture is added, or its rule or its group is at fault. -/
theorem addCapture_excused (hd : divide.Excused engine l) {x : Nat × Rule} {p : Progress}
    (hr : l.Owns r) (hmatches : Matches engine r line m captures) (hm : m.Lies position line.size)
    (hx : x ∈ captures) (hc : c.Sane engine l (mentions captures)) (hp : p.Begun m) :
    FailsExcused engine l (addCapture engine divide line scope m x p) c := by
  unfold addCapture
  split
  · rename_i span hgroup
    split
    · exact .pure trivial
    · rename_i hne
      have hspan : span.start < span.stop :=
        Nat.lt_of_le_of_ne (hm.group hgroup).1 (by simpa using hne)
      have hknown : c.Sane engine l (mentions x.2) := hc.mono fun s hs => ⟨x, hx, hs⟩
      refine addSpan_excused hd hr (hmatches.captured hx) hknown fun hnil hlt => ?_
      exact .noRegion hr hmatches hx hgroup hspan (hp hnil ▸ hlt)
  · exact .pure trivial

theorem addCaptures_excused (hd : divide.Excused engine l) {rest : Captures} {p : Progress}
    (hr : l.Owns r) (hmatches : Matches engine r line m captures) (hm : m.Lies position line.size)
    (hrest : rest ⊆ captures) (hc : c.Sane engine l (mentions captures)) (hp : p.Begun m) :
    FailsExcused engine l
      (rest.foldlM (fun p x => addCapture engine divide line scope m x p) p) c := by
  induction rest generalizing p c with
  | nil => exact .pure trivial
  | cons x rest ih =>
    rw [List.foldlM_cons]
    have hx : x ∈ captures := hrest List.mem_cons_self
    refine (addCapture_excused hd hr hmatches hm hx hc hp).bind fun q d hq _ => ?_
    have hknown (s : Rule) (hs : mentions x.2 s) : mentions captures s := ⟨x, hx, hs⟩
    have hstep : Lockstep engine (mentions captures) (addCapture engine divide line scope m x p) :=
      (addCapture_scripted (hknown x.2 rfl)).lockstep hd.lockstep
    exact ih (fun y hy => hrest (List.mem_cons_of_mem x hy)) ((hstep.sane hc hq).mono fun _ => .inl)
      (addCapture_begun hd.covers hm hp hq)

theorem divideMatch_excused (hd : divide.Excused engine l) (hr : l.Owns r)
    (hmatches : Matches engine r line m captures) (hm : m.Lies position line.size)
    (hc : c.Sane engine l (mentions captures)) :
    FailsExcused engine l (cutOf engine divide line scope m captures) c :=
  (addCaptures_excused hd hr hmatches hm (fun _ => id) hc fun _ => rfl).bind
    fun _ _ _ _ => .pure trivial

/-! ### Lines -/

/-- A turn leaves a stack that stands, or is excused. -/
theorem advance_excused (hs : engine.Sound) (hd : divide.Excused engine l) (hstack : s.Sturdy engine l)
    (hc : c.Sane engine l (mentions s)) :
    Gives (fun next => ∀ a, next = some a → a.stack.Sturdy engine l) (Excused engine l)
      (advance engine (cutOf engine divide line) line s position) c := by
  have htop : c.Sane engine l (mentions s.top.rule) := hc.mono fun r hr => mentions_top hr
  have hstands := hstack.top.imp_right (·.1)
  unfold advance
  refine (seek_excused htop hstands).bind fun found d hseek _ => ?_
  split
  · exact .pure (by rintro _ ⟨⟩)
  · rename_i event
    have hsought := seek_sought hseek
    obtain ⟨hnext, r, hr, hmatches⟩ := (hsought.proper htop hstands).follow hstack
    have hevent := (seek_scripted.lockstep hd.lockstep).sane htop hseek
    have hcaptures : d.Sane engine l (mentions (s.follow event).captures) :=
      hevent.mono fun r hr => .inr ⟨event, rfl, mentions_captures (follow_captures s ▸ hr)⟩
    dsimp only
    rw [follow_hit]
    refine (divideMatch_excused hd hr hmatches (hsought.lies hs) hcaptures).bind fun _ _ _ _ => ?_
    refine .pure ?_
    rintro _ ⟨⟩
    exact hnext

/-- The rules that a line must continue are continued or closed, and the stack still stands. -/
theorem continueWhiles_excused (hs : engine.Sound) (hd : divide.Excused engine l)
    (hstack : s.Sturdy engine l) (hc : c.Sane engine l (mentions s)) {rest done : List (Compiled × Nat)}
    (hsplit : s.whiles = done ++ rest) :
    Gives (fun a => a.stack.Sturdy engine l) (Excused engine l)
      (continueWhiles engine (cutOf engine divide line) line s rest done position regions) c := by
  induction rest generalizing done position regions c with
  | nil => exact .pure hstack
  | cons w rest ih =>
    obtain ⟨rule, height⟩ := w
    have hmem : (rule, height) ∈ s.whiles := hsplit ▸ List.mem_append_right done List.mem_cons_self
    obtain ⟨⟨r, regex, hr, hof, hending, hclosing⟩, hrule, hwhile⟩ := hstack.lowest hmem
    dsimp only at hof hending hrule hwhile
    rw [hrule] at hof
    rw [continueWhiles]
    split
    · rename_i condition _ _ captures _ _ hcondition hform
      rw [hending] at hcondition
      cases hcondition
      refine (answer_excused fun e => .matchAt).bind fun answered d hanswer _ => ?_
      obtain ⟨hit, rfl⟩ := Returns.answer hanswer
      split
      · exact .pure (hstack.cut hsplit)
      · rename_i m
        rw [hform] at hof
        cases hof with
        | beginWhile =>
          have hknown (x : Rule) (hx : mentions r.whileCaptures x) : mentions s x := by
            obtain ⟨y, hy, hx⟩ := hx
            refine .inr ⟨_, hmem, .inr ⟨y, ?_, hx⟩⟩
            rw [hform]
            exact List.mem_append_right _ hy
          have hcut (scope : Scope) : Lockstep engine (mentions s)
              (cutOf engine divide line scope m r.whileCaptures) :=
            ((divideMatch_scripted scope m _).lockstep hd.lockstep).mono hknown
          refine (divideMatch_excused hd hr (.condition hclosing hit) (hs.matchAt hit).1
            (hc.mono hknown)).bind fun found e hfound _ => ?_
          exact ih (((hcut _).sane hc hfound).mono fun _ => .inl) (by simpa using hsplit)
    · rename_i hnot
      exfalso
      cases hform : rule.form with
      | beginWhile => exact hnot _ _ _ _ _ _ hending hform
      | _ =>
        rw [hform] at hwhile
        exact hwhile

theorem searchLoop_excused (hs : engine.Sound) (hd : divide.Excused engine l) {fuel : Nat}
    (hstack : s.Sturdy engine l) (hc : c.Sane engine l (mentions s)) :
    Gives (fun a => a.stack.Sturdy engine l) (Excused engine l)
      (searchLoop engine (cutOf engine divide line) line fuel s position regions) c := by
  induction fuel generalizing s position regions c with
  | zero => exact .throw (.inr (.inl (.inl rfl)))
  | succ fuel ih =>
    rw [searchLoop]
    refine (advance_excused hs hd hstack hc).bind fun found d hfound hnext => ?_
    have hsane := ((advance_scripted divideMatch_scripted).lockstep hd.lockstep).sane hc hfound
    split
    · exact .pure hstack
    · rename_i next
      dsimp only
      split
      · exact .pure hstack
      · exact ih (hnext next rfl) (hsane.mono fun r hr => .inr ⟨next, rfl, hr⟩)

theorem searchLine_excused (hs : engine.Sound) (hd : divide.Excused engine l) {allowed : Allowance}
    (hstack : s.Sturdy engine l) (hc : c.Sane engine l (mentions s)) :
    Gives (fun a => a.1.Sturdy engine l) (Excused engine l)
      (searchLine engine allowed (cutOf engine divide line) s line) c := by
  unfold searchLine
  refine (continueWhiles_excused hs hd hstack hc (List.nil_append _).symm).bind
    fun start d hstart hstands => ?_
  have hwhiles : Scripted engine line (mentions s) fun divide =>
      continueWhiles engine (cutOf engine divide line) line s s.whiles [] 0 [] :=
    continueWhiles_scripted divideMatch_scripted (fun _ => id) (fun _ => .inr) (by rintro r ⟨_, ⟨⟩, _⟩)
  have hsane := ((hwhiles.lockstep hd.lockstep).sane hc hstart).mono fun _ => .inr
  refine .get ?_
  exact (searchLoop_excused hs hd hstands hsane).bind fun final _ _ hfinal => .pure hfinal

/-- Whatever stops the division of a line from a stack that stands is excused, and where nothing stops it,
it leaves a stack that stands. -/
theorem divideLine_excused (hs : engine.Sound) {allowed : Allowance} {depth : Nat}
    (hstack : s.Sturdy engine l) (hc : c.Sane engine l (mentions s)) :
    Gives (fun a => a.1.Sturdy engine l) (Excused engine l) (divideLine engine allowed depth s line) c := by
  induction depth generalizing s line c with
  | zero => exact .throw (.inr (.inl (.inr rfl)))
  | succ depth ih =>
    have hfills : (divideAlone (divideLine engine allowed depth)).Fills :=
      divideAlone_fills fun hu h => (divideLine_fills hs hu h).2
    refine searchLine_excused hs ⟨divideAlone_lockstep fun _ _ => divideLine_lockstep, hfills.covers, ?_⟩
      hstack hc
    intro text scope rule c r x hc hr hx hof
    let alone : Stack := { top := ⟨scope ++ rule.name, rule, none⟩ }
    have hground : alone.Sturdy engine l :=
      ⟨⟨alone.top, [], rfl, ⟨rfl, .inr ⟨r, x, hr, hx, hof⟩⟩, nofun⟩, nofun, .nil⟩
    exact (ih hground (hc.mono fun _ => mentions_alone)).bind fun _ _ _ _ => .pure trivial

end

end Highlighter.Grammar

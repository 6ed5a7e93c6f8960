import Highlighter.Proofs.Grammar.Readiness
import Highlighter.Proofs.Grammar.Seek
import Mathlib.Tactic.Choose

/-! What the search of a line asks for. Whatever it does, it asks for rules to be made ready and for texts
to be divided, and goes on by the answers alone; so it is a script that others run for it. -/

namespace Highlighter.Grammar

open Highlighter.Pattern (Match Regex Span Text)

instance : Mentions Rule := ⟨fun r s => r = s⟩
instance : Mentions (Rule × Match) := ⟨fun x r => x.1 = r⟩
instance : Mentions (Compiled × Nat) := ⟨fun w r => mentions w.1 r⟩
instance : Mentions Frame := ⟨fun f r => mentions f.rule r⟩
instance : Mentions Stack := ⟨fun s r => mentions s.frames r ∨ mentions s.whiles r⟩
instance : Mentions Found := ⟨fun f r => mentions f.stack r ∨ mentions f.captures r⟩
instance : Mentions Advance := ⟨fun a r => mentions a.stack r⟩
instance : Mentions Region := ⟨fun _ _ => False⟩
instance : Mentions Token := ⟨fun _ _ => False⟩
instance : Mentions Match := ⟨fun _ _ => False⟩
instance : Mentions Regex := ⟨fun _ _ => False⟩
instance : Mentions Progress := ⟨fun _ _ => False⟩
instance : Mentions (Stack × List Region) := ⟨fun x r => mentions x.1 r⟩
instance {α : Type} [Mentions α] : Mentions (Option α) := ⟨fun o r => ∃ a, o = some a ∧ mentions a r⟩
instance : Mentions Event where
  mentions
    | .ends _ captures, r => mentions captures r
    | .starts _ target _, r => mentions target r

/-- A step together with the way on for each answer to what it asks. -/
inductive Script (α : Type) where
  | done (a : α)
  | fail (e : Failure)
  /-- Asks for a rule that is ready. -/
  | prepare (r : Rule) (next : Compiled → Script α)
  /-- Asks for a text to be divided under a rule that is made ready for it. -/
  | part (text : Text) (scope : Scope) (r : Rule) (next : List Region → Script α)
  /-- Asks for the grammars. -/
  | library (next : Library → Script α)

namespace Script

variable {α β : Type}

def run (engine : Engine) (divide : Division) : Script α → Compile α
  | .done a => pure a
  | .fail e => throw e
  | .prepare r next => do (next (← compileRule engine r)).run engine divide
  | .part text scope r next => do
    let rule ← compileRule engine r
    (next (← divide text scope rule)).run engine divide
  | .library next => do (next (← get).library).run engine divide

def bind (f : α → Script β) : Script α → Script β
  | .done a => f a
  | .fail e => .fail e
  | .prepare r next => .prepare r fun rule => (next rule).bind f
  | .part text scope r next => .part text scope r fun regions => (next regions).bind f
  | .library next => .library fun l => (next l).bind f

theorem run_bind {engine : Engine} {divide : Division} (t : Script α) (f : α → Script β) :
    (t.bind f).run engine divide = t.run engine divide >>= fun a => (f a).run engine divide := by
  induction t with
  | done a => rfl
  | fail e => rfl
  | prepare r next ih => simp only [bind, run, ih, bind_assoc]
  | part text scope r next ih => simp only [bind, run, ih, bind_assoc]
  | library next ih => simp only [bind, run, ih, bind_assoc]

/-- A script about a line asks for rules that are known, and for parts of the line to be divided under
them. It never goes too deep by itself. -/
def About [Mentions α] (line : Text) : (Rule → Prop) → Script α → Prop
  | known, .done a => ∀ r, mentions a r → known r
  | _, .fail e => e ≠ .tooDeep
  | known, .prepare r next => known r ∧ ∀ rule, (next rule).About line fun s => known s ∨ mentions rule s
  | known, .part text _ r next =>
    known r ∧ (∃ start stop, text = line.extract start stop) ∧ ∀ regions, (next regions).About line known
  | known, .library next => ∀ l, (next l).About line known

variable [Mentions α] [Mentions β] {line : Text} {known known' : Rule → Prop}

theorem About.mono {t : Script α} (h : t.About line known) (hk : ∀ r, known r → known' r) :
    t.About line known' := by
  induction t generalizing known known' with
  | done a => exact fun r hr => hk r (h r hr)
  | fail e => exact h
  | prepare r next ih =>
    exact ⟨hk r h.1, fun rule => ih rule (h.2 rule) fun s hs => hs.imp_left (hk s)⟩
  | part text scope r next ih =>
    exact ⟨hk r h.1, h.2.1, fun regions => ih regions (h.2.2 regions) hk⟩
  | library next ih => exact fun l => ih l (h l) hk

theorem About.bind {t : Script α} {f : α → Script β} (h : t.About line known)
    (hf : ∀ a, (f a).About line fun r => known r ∨ mentions a r) : (t.bind f).About line known := by
  induction t generalizing known with
  | done a => exact (hf a).mono fun r hr => hr.elim id (h r)
  | fail e => exact h
  | prepare r next ih =>
    exact ⟨h.1, fun rule => ih rule (h.2 rule) fun a => (hf a).mono fun s hs => hs.imp_left .inl⟩
  | part text scope r next ih =>
    exact ⟨h.1, h.2.1, fun regions => ih regions (h.2.2 regions) hf⟩
  | library next ih => exact fun l => ih l (h l) hf

end Script

/-- A step that is a script about a line, however the texts are divided that it asks for. -/
def Scripted {α : Type} [Mentions α] (engine : Engine) (line : Text) (known : Rule → Prop)
    (x : Division → Compile α) : Prop :=
  ∃ t : Script α, t.About line known ∧ ∀ divide, x divide = t.run engine divide

namespace Scripted

variable {α β : Type} [Mentions α] [Mentions β] {engine : Engine} {line : Text}
  {known known' : Rule → Prop} {x : Division → Compile α} {f : α → Division → Compile β}

theorem mono (h : Scripted engine line known x) (hk : ∀ r, known r → known' r) :
    Scripted engine line known' x := by
  obtain ⟨t, ht, hx⟩ := h
  exact ⟨t, ht.mono hk, hx⟩

theorem pure {a : α} (h : ∀ r, mentions a r → known r) :
    Scripted engine line known fun _ => Pure.pure a :=
  ⟨.done a, h, fun _ => rfl⟩

theorem throw {e : Failure} (h : e ≠ .tooDeep) :
    Scripted (α := α) engine line known fun _ => MonadExcept.throw e :=
  ⟨.fail e, h, fun _ => rfl⟩

theorem bind (hx : Scripted engine line known x)
    (hf : ∀ a, Scripted engine line (fun r => known r ∨ mentions a r) (f a)) :
    Scripted engine line known fun divide => x divide >>= fun a => f a divide := by
  obtain ⟨t, ht, hx⟩ := hx
  choose u hu hf using hf
  refine ⟨t.bind u, ht.bind hu, fun divide => ?_⟩
  simp only [Script.run_bind, hx, hf]

theorem prepare {r : Rule} (hr : known r) :
    Scripted engine line known fun _ => compileRule engine r :=
  ⟨.prepare r .done, ⟨hr, fun _ _ => .inr⟩, fun _ => (bind_pure _).symm⟩

/-- Making a rule ready and dividing a part of the line under it. -/
theorem part {start stop : Nat} {scope : Scope} {r : Rule} {f : List Region → Division → Compile β}
    (hr : known r) (hf : ∀ regions, Scripted engine line known (f regions)) :
    Scripted engine line known fun divide =>
      compileRule engine r >>= fun rule =>
        divide (line.extract start stop) scope rule >>= fun regions => f regions divide := by
  choose u hu hf using hf
  refine ⟨.part _ scope r u, ⟨hr, ⟨start, stop, rfl⟩, hu⟩, fun divide => ?_⟩
  simp only [Script.run, hf]

/-- What is read off the grammars. -/
theorem get {f : Compiler → Division → Compile β}
    (hf : ∀ c d : Compiler, c.library = d.library → f c = f d)
    (h : ∀ c, Scripted engine line known (f c)) :
    Scripted engine line known fun divide => MonadState.get >>= fun c => f c divide := by
  choose u hu h using h
  refine ⟨.library fun l => u { library := l }, fun l => hu _, fun divide => ?_⟩
  refine congrArg _ (funext fun c => ?_)
  rw [hf c { library := c.library } rfl]
  exact h _ divide

/-- A step that neither reads nor changes what is kept. -/
theorem of_stateless {x : Compile α} (h : Stateless x)
    (hm : ∀ c a d, Returns x c a d → ∀ r, mentions a r → known r) :
    Scripted engine line known fun _ => x := by
  obtain ⟨e | a, he, hx⟩ := h
  · refine ⟨.fail e, fun h => he (congrArg _ h), fun _ => ?_⟩
    exact funext fun c => hx c
  · refine ⟨.done a, hm default a default (hx default), fun _ => ?_⟩
    exact funext fun c => hx c

end Scripted

variable {engine : Engine} {known : Rule → Prop} {line : Text} {stack : Stack} {position : Nat}

/-! ### One search -/

theorem Stateless.endingFor {m : Match} {template : Str} :
    Stateless (endingFor engine m line template) := by
  unfold Grammar.endingFor
  split
  · exact readPattern
  · exact throw (by simp)

theorem Stateless.startRule {m : Match} {target : Compiled} :
    Stateless (startRule engine line m target) := by
  unfold Grammar.startRule
  split
  · exact throw (by simp)
  · exact pure
  · exact endingFor.bind fun _ => pure
  · exact endingFor.bind fun _ => pure

theorem Stateless.findChoice {choice : Choice} :
    Stateless (findChoice engine choice line position) := by
  refine answer.bind fun found => ?_
  split
  · exact pure
  · exact pure

theorem mentions_push {f : Frame} {r : Rule} (h : mentions (stack.push f) r) :
    mentions stack r ∨ mentions f r := by
  rcases h with h | h
  · rcases mentions_cons.mp h with h | h
    · exact .inr h
    · exact .inl (.inl h)
  · exact .inl (.inr h)

theorem mentions_pushWhile {f : Frame} {r : Rule} (h : mentions (stack.pushWhile f) r) :
    mentions stack r ∨ mentions f r := by
  rcases h with h | ⟨w, hw, h⟩
  · exact mentions_push (.inl h)
  · rcases List.mem_append.mp hw with hw | hw
    · exact .inl (.inr ⟨w, hw, h⟩)
    · rw [List.mem_singleton.mp hw] at h
      exact .inr h

theorem mentions_top {r : Rule} (h : mentions stack.top r) : mentions stack r :=
  .inl ⟨stack.top, List.mem_cons_self, h⟩

theorem mentions_alone {f : Frame} {r : Rule} (h : mentions (⟨f, [], []⟩ : Stack) r) :
    mentions f r := by
  rcases h with ⟨g, hg, hr⟩ | ⟨_, ⟨⟩, _⟩
  rwa [List.mem_singleton.mp hg] at hr

theorem mentions_pop {r : Rule} (h : mentions stack.pop r) : mentions stack r := by
  unfold Stack.pop at h
  split at h
  · exact h
  · rename_i f rest hb
    rcases h with ⟨g, hg, h⟩ | h
    · refine .inl ⟨g, List.mem_cons_of_mem _ ?_, h⟩
      rw [hb]
      exact hg
    · exact .inr h

theorem mentions_lowest {n : Nat} {r : Rule} (h : mentions (stack.lowest n) r) : mentions stack r := by
  unfold Stack.lowest at h
  split at h
  · exact h
  · rename_i f rest hb
    rcases h with ⟨g, hg, h⟩ | h
    · refine .inl ⟨g, List.mem_of_mem_drop (i := stack.height - n) ?_, h⟩
      rw [hb]
      exact hg
    · exact .inr h

theorem findChoice_scripted {choice : Choice} :
    Scripted engine line (mentions choice) fun _ => findChoice engine choice line position := by
  refine .of_stateless .findChoice fun c found d h r => ?_
  rintro ⟨⟨rule, m⟩, rfl, rfl⟩
  obtain ⟨index, candidate, -, hc, he⟩ := (findChoice_found h).2 rule m rfl
  exact ⟨candidate, List.mem_of_getElem? hc, he⟩

theorem startRule_scripted {m : Match} {target : Compiled} :
    Scripted engine line (mentions target) fun _ => startRule engine line m target := by
  refine .of_stateless .startRule fun c event d h r hr => ?_
  obtain ⟨-, closing, rfl⟩ := startRule_starts h
  exact hr

theorem takeChoice_scripted {found : Option (Rule × Match)} :
    Scripted engine line (mentions found) fun _ => takeChoice engine line found := by
  unfold takeChoice
  split
  · exact .pure (by rintro r ⟨_, ⟨⟩, _⟩)
  · rename_i rule m
    refine (Scripted.prepare ⟨_, rfl, rfl⟩).bind fun target => ?_
    refine (startRule_scripted.mono fun _ => .inr).bind fun event => .pure ?_
    rintro r ⟨_, ⟨⟩, hr⟩
    exact .inr hr

theorem answer_scripted {a : Except Pattern.PatternError (Option Match)} :
    Scripted engine line known fun _ => answer a :=
  .of_stateless .answer (by rintro c _ d - r ⟨_, _, ⟨⟩⟩)

/-- One search is about the rule that is searched. -/
theorem seek_scripted {rule : Compiled} {ending : Option Regex} :
    Scripted engine line (mentions rule) fun _ => seek engine line rule ending position := by
  have hfind {choice : Choice} {known : Rule → Prop} (hk : ∀ r, mentions rule r → known r)
      (h : rule.form.choice? = some choice) :
      Scripted engine line known fun _ => findChoice engine choice line position :=
    findChoice_scripted.mono fun r hr => hk r (.inl ⟨choice, h, hr⟩)
  have htake {choice : Choice} {known : Rule → Prop} (hk : ∀ r, mentions rule r → known r)
      (h : rule.form.choice? = some choice) : Scripted engine line known fun _ =>
        findChoice engine choice line position >>= takeChoice engine line :=
    (hfind hk h).bind fun found => takeChoice_scripted.mono fun r => .inr
  unfold seek
  split
  · exact .throw (by simp)
  · rename_i choice hf
    exact htake (fun _ h => h) (by rw [hf]; rfl)
  · rename_i choice hf
    exact htake (fun _ h => h) (by rw [hf]; rfl)
  · rename_i endCaptures _ choice hf
    have hoffers : rule.form.choice? = some choice := by rw [hf]; rfl
    have hend {known : Rule → Prop} {m : Match} (hk : ∀ r, mentions rule r → known r) :
        Scripted engine line known fun _ => pure (some (Event.ends m endCaptures)) := by
      refine .pure ?_
      rintro r ⟨_, ⟨⟩, x, hx, hr⟩
      refine hk r (.inr ⟨x, ?_, hr⟩)
      rw [hf]
      exact List.mem_append_right _ hx
    split
    · exact .throw (by simp)
    · refine answer_scripted.bind fun answered => ?_
      split
      · exact htake (fun _ => .inl) hoffers
      · split
        · exact hend fun _ => .inl
        · refine (hfind (fun _ => .inl) hoffers).bind fun found => ?_
          split
          · exact hend fun _ h => .inl (.inl h)
          · split
            · exact hend fun _ h => .inl (.inl h)
            · exact takeChoice_scripted.mono fun r => .inr

/-- Following an event leads to rules that were on the stack or that the event is about. -/
theorem mentions_follow {event : Event} {r : Rule} (h : mentions (stack.follow event) r) :
    mentions stack r ∨ mentions event r := by
  cases event with
  | ends m captures => exact h.imp mentions_pop id
  | starts m target ending =>
    have hcaptured (h : mentions target.form.captures r) : mentions target r := .inr h
    unfold Stack.follow at h
    dsimp only at h
    split at h
    · exact h.imp id (by rintro ⟨_, ⟨⟩, _⟩)
    · rename_i hf
      rw [hf] at hcaptured
      exact h.imp id hcaptured
    · rename_i hf
      rw [hf] at hcaptured
      rcases h with h | ⟨x, hx, h⟩
      · exact mentions_push h
      · exact .inr (hcaptured ⟨x, List.mem_append_left _ hx, h⟩)
    · rename_i hf
      rw [hf] at hcaptured
      rcases h with h | ⟨x, hx, h⟩
      · exact mentions_pushWhile h
      · exact .inr (hcaptured ⟨x, List.mem_append_left _ hx, h⟩)

/-! ### Lines -/

theorem addSpan_scripted {scope : Scope} {span : Span} {rule : Rule} {p : Progress}
    (hr : known rule) :
    Scripted engine line known fun divide => addSpan engine divide line scope span rule p := by
  have hpure (q : Progress) : Scripted engine line known fun _ => pure q := .pure (by rintro r ⟨⟩)
  unfold addSpan
  by_cases hs : span.start < p.covered
  · simp only [if_pos hs]
    cases holder? span.start p.regions.reverse [] with
    | none => exact (Scripted.prepare hr).bind fun _ => .throw (by simp)
    | some found => exact .part hr fun inner => hpure _
  · simp only [if_neg hs]
    exact .part hr fun inner => hpure _

theorem addCapture_scripted {scope : Scope} {m : Match} {capture : Nat × Rule} {p : Progress}
    (hr : known capture.2) :
    Scripted engine line known fun divide => addCapture engine divide line scope m capture p := by
  unfold addCapture
  split
  · split
    · exact .pure (by rintro r ⟨⟩)
    · exact addSpan_scripted hr
  · exact .pure (by rintro r ⟨⟩)

theorem addCaptures_scripted {scope : Scope} {m : Match} {captures : Captures} {p : Progress}
    (hr : ∀ x ∈ captures, known x.2) :
    Scripted engine line known fun divide => captures.foldlM
      (fun p capture => addCapture engine divide line scope m capture p) p := by
  induction captures generalizing p known with
  | nil => exact .pure (by rintro r ⟨⟩)
  | cons capture captures ih =>
    simp only [List.foldlM_cons]
    refine (addCapture_scripted (hr capture List.mem_cons_self)).bind fun q => ?_
    exact ih fun x hx => .inl (hr x (List.mem_cons_of_mem capture hx))

/-- Dividing a match is a script about its captures. -/
def Cut.Scripted (engine : Engine) (line : Text) (cut : Division → Cut) : Prop :=
  ∀ scope m captures,
    Grammar.Scripted engine line (mentions captures) fun divide => cut divide scope m captures

theorem divideMatch_scripted :
    Cut.Scripted engine line fun divide => divideMatch (addCapture engine divide line) := by
  intro scope m captures
  refine (addCaptures_scripted fun x hx => ⟨x, hx, rfl⟩).bind fun p => .pure ?_
  rintro r ⟨_, _, ⟨⟩⟩

variable {cut : Division → Cut}

theorem advance_scripted (hc : Cut.Scripted engine line cut) :
    Scripted engine line (mentions stack) fun divide =>
      advance engine (cut divide) line stack position := by
  refine (seek_scripted.mono fun r => mentions_top).bind fun answered => ?_
  split
  · exact .pure (by rintro r ⟨_, ⟨⟩, _⟩)
  · rename_i event
    have hfollow {r : Rule} (h : mentions (stack.follow event) r) :
        mentions stack r ∨ mentions (some event) r :=
      (mentions_follow h).imp id fun h => ⟨event, rfl, h⟩
    refine ((hc _ _ _).mono fun r hr => hfollow (.inr hr)).bind fun regions => .pure ?_
    rintro r ⟨_, ⟨⟩, hr⟩
    exact .inl (hfollow (.inl hr))

theorem searchLoop_scripted (hc : Cut.Scripted engine line cut) {fuel : Nat} {regions : List Region} :
    Scripted engine line (mentions stack) fun divide =>
      searchLoop engine (cut divide) line fuel stack position regions := by
  induction fuel generalizing stack position regions with
  | zero => exact .throw (by simp)
  | succ fuel ih =>
    simp only [searchLoop]
    refine (advance_scripted hc).bind fun answered => ?_
    split
    · exact .pure fun r => .inl
    · rename_i next
      split
      · exact .pure fun r => .inl
      · exact ih.mono fun r hr => .inr ⟨next, rfl, hr⟩

theorem continueWhiles_scripted (hc : Cut.Scripted engine line cut)
    {whiles done : List (Compiled × Nat)} {regions : List Region}
    (hs : ∀ r, mentions stack r → known r) (hw : ∀ r, mentions whiles r → known r)
    (hd : ∀ r, mentions done r → known r) :
    Scripted engine line known fun divide =>
      continueWhiles engine (cut divide) line stack whiles done position regions := by
  induction whiles generalizing done position regions known with
  | nil => exact .pure hs
  | cons w whiles ih =>
    obtain ⟨rule, height⟩ := w
    have hrule (r : Rule) (hr : mentions rule r) : known r := hw r ⟨_, List.mem_cons_self, hr⟩
    simp only [continueWhiles]
    split
    · rename_i whileCaptures _ _ _ hform
      refine answer_scripted.bind fun answered => ?_
      split
      · refine .pure fun r hr => .inl ?_
        rcases hr with hr | hr
        · exact hs r (mentions_lowest (mentions_pop (.inl hr)))
        · exact hd r hr
      · refine ((hc _ _ _).mono ?_).bind fun found => ?_
        · rintro r ⟨x, hx, hr⟩
          refine .inl (hrule r (.inr ⟨x, ?_, hr⟩))
          rw [hform]
          exact List.mem_append_right _ hx
        · refine ih (fun r hr => .inl (.inl (hs r hr))) (fun r hr => .inl (.inl ?_))
            fun r hr => .inl (.inl ?_)
          · exact hw r (mentions_cons.mpr (.inr hr))
          · obtain ⟨w, hw', hr⟩ := hr
            rcases List.mem_append.mp hw' with hw' | hw'
            · exact hd r ⟨w, hw', hr⟩
            · rw [List.mem_singleton.mp hw'] at hr
              exact hrule r hr
    · exact .throw (by simp)

theorem searchLine_scripted (hc : Cut.Scripted engine line cut) {allowed : Allowance} :
    Scripted engine line (mentions stack) fun divide =>
      searchLine engine allowed (cut divide) stack line := by
  unfold searchLine
  refine (continueWhiles_scripted hc (fun _ => id) (fun _ => .inr) ?_).bind fun start => ?_
  · rintro r ⟨_, ⟨⟩, _⟩
  refine .get (fun c d hl => ?_) fun c => ?_
  · rw [hl]
  · exact ((searchLoop_scripted hc).mono fun r => .inr).bind fun final => .pure fun r => .inr

end Highlighter.Grammar

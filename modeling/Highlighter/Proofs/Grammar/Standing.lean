import Highlighter.Proofs.Grammar.Starting

/-! What stands on a stack. The lowest frame has no ending; each frame above it was opened by a match of the
pattern that its rule starts by, and its ending is the rule's template filled from that match. -/

namespace Highlighter.Grammar

open Highlighter.Pattern (Match Regex Text)

/-- The engine finds a match of a pattern in a text, perhaps as one of several patterns. -/
def Engine.Finds (engine : Engine) (pattern : Str) (text : Text) (m : Match) : Prop :=
  ∃ regexes position index regex, engine.searchAny regexes text position = .ok (some (index, m)) ∧
    regexes[index]? = some regex ∧ engine.Reads pattern regex

/-- A match opens a rule that has a template. -/
structure Begins (engine : Engine) (r : Rule) (text : Text) (m : Match) (template : Str) : Prop where
  unmatched : r.matchPattern = none
  found : ∃ pattern, r.beginPattern = some pattern ∧ engine.Finds pattern text m
  template : r.template? = some template

/-- The pattern is the template of the rule, filled from a match that opens the rule. -/
def Closing (engine : Engine) (r : Rule) (regex : Regex) : Prop :=
  ∃ text m template source, Begins engine r text m template ∧ m.expand? text template = some source ∧
    engine.Reads source regex

/-- The match is one of the rule's own, and these are the rule's captures for it. -/
inductive Matches (engine : Engine) (r : Rule) (text : Text) : Match → Captures → Prop
  | single {pattern : Str} {m : Match} : r.matchPattern = some pattern → engine.Finds pattern text m →
      Matches engine r text m r.captures
  | opening {template : Str} {m : Match} : Begins engine r text m template →
      Matches engine r text m r.beginCaptures
  | ending {regex : Regex} {position : Nat} {m : Match} : Closing engine r regex →
      engine.search regex text position = .ok (some m) → Matches engine r text m r.endCaptures
  | condition {regex : Regex} {position : Nat} {m : Match} : Closing engine r regex →
      engine.matchAt regex text position = .ok (some m) → Matches engine r text m r.whileCaptures

/-- The rules for the groups of a rule's matches. -/
def Rule.captured (r : Rule) : Captures :=
  r.captures ++ r.beginCaptures ++ r.endCaptures ++ r.whileCaptures

/-- A frame that was opened by a match. -/
def Frame.Opened (engine : Engine) (l : Library) (f : Frame) : Prop :=
  ∃ r regex, l.Owns r ∧ f.rule.form.Of engine l r ∧ f.ending = some regex ∧ Closing engine r regex

/-- A frame that a text starts with: the patterns of a grammar, or the rule of a capture. -/
structure Frame.Ground (engine : Engine) (l : Library) (f : Frame) : Prop where
  ending : f.ending = none
  rule : (∃ choice, f.rule.form = .patternsOnly choice ∧ choice.Fits engine l) ∨
    ∃ r x, l.Owns r ∧ x ∈ r.captured ∧ f.rule.form.Of engine l x.2

/-- A rule that goes on from line to line. -/
def Form.IsWhile : Form → Prop
  | .beginWhile _ _ _ _ _ => True
  | _ => False

/-- The frames of a stack from the bottom up. -/
def Stack.rising (s : Stack) : List Frame := s.frames.reverse

/-- All frames but the lowest were opened, and the rules that a line must continue stand at their heights. -/
structure Stack.Sturdy (engine : Engine) (l : Library) (s : Stack) : Prop where
  frames : ∃ f rest, s.rising = f :: rest ∧ f.Ground engine l ∧ ∀ g ∈ rest, g.Opened engine l
  whiles : ∀ w ∈ s.whiles, ∃ i f, w.2 = i + 2 ∧ s.rising[i + 1]? = some f ∧ f.rule = w.1 ∧ w.1.form.IsWhile
  heights : s.whiles.Pairwise (·.2 < ·.2)

section
variable {engine : Engine} {l : Library} {r : Rule} {s : Stack} {f : Frame} {text line : Text} {m : Match}
  {captures : Captures} {known : Rule → Prop} {c c' : Compiler} {position : Nat} {choice : Choice}

theorem Matches.captured (h : Matches engine r text m captures) {x : Nat × Rule} (hx : x ∈ captures) :
    x ∈ r.captured := by
  unfold Rule.captured
  cases h <;> simp [hx]

theorem Form.Of.fits {form : Form} (h : form.Of engine l r) (hc : form.choice? = some choice) :
    choice.Fits engine l := by
  cases h with
  | single => cases hc
  | patternsOnly _ _ hfits => cases hc; exact hfits
  | beginEnd _ _ _ hfits => cases hc; exact hfits
  | beginWhile _ _ _ _ hfits => cases hc; exact hfits

theorem Frame.Ground.fits (h : f.Ground engine l) (hc : f.rule.form.choice? = some choice) :
    choice.Fits engine l := by
  rcases h.rule with ⟨own, hform, hfits⟩ | ⟨r, x, -, -, hof⟩
  · rw [hform] at hc
    cases hc
    exact hfits
  · exact hof.fits hc

theorem Frame.Opened.fits (h : f.Opened engine l) (hc : f.rule.form.choice? = some choice) :
    choice.Fits engine l := by
  obtain ⟨r, regex, -, hof, -⟩ := h
  exact hof.fits hc

/-! ### Stacks -/

namespace Stack

theorem length_rising : s.rising.length = s.height := by
  simp [rising, frames, height]

theorem rising_top : s.rising = s.below.reverse ++ [s.top] := by
  simp [rising, frames]

theorem rising_push : (s.push f).rising = s.rising ++ [f] := by
  simp [rising, frames, push]

theorem rising_pop (h : s.below ≠ []) : s.pop.rising = s.below.reverse := by
  unfold pop
  cases hbelow : s.below with
  | nil => exact absurd hbelow h
  | cons g below => simp [rising, frames]

theorem whiles_pop : s.pop.whiles = s.whiles := by
  unfold pop
  split <;> rfl

theorem rising_lowest {n : Nat} (h : 0 < n) (hn : n ≤ s.height) :
    (s.lowest n).rising = s.rising.take n := by
  unfold lowest
  have hlength : s.frames.length = s.height := rfl
  split
  · rename_i hdrop
    have := List.drop_eq_nil_iff.mp hdrop
    omega
  · rename_i g rest hdrop
    rw [rising, rising, List.take_reverse, hlength, hdrop]
    rfl

theorem top_lowest {i : Nat} (h : s.rising[i]? = some f) : (s.lowest (i + 1)).top = f := by
  have hlt := (List.getElem?_eq_some_iff.mp h).1
  have hlast : (s.lowest (i + 1)).rising.getLast? = some f := by
    rw [rising_lowest i.zero_lt_succ (length_rising ▸ hlt), List.getLast?_eq_getElem?,
      List.length_take, Nat.min_eq_left hlt, Nat.succ_sub_one,
      List.getElem?_take_of_lt i.lt_succ_self]
    exact h
  rw [rising_top, List.getLast?_concat] at hlast
  exact Option.some.inj hlast

theorem rising_pop_lowest {n : Nat} (h : 0 < n) (hn : n < s.height) :
    (s.lowest (n + 1)).pop.rising = s.rising.take n := by
  have hlowest : (s.lowest (n + 1)).rising = s.rising.take (n + 1) := rising_lowest n.zero_lt_succ hn
  have hlength : (s.lowest (n + 1)).below.length = n := by
    have hall := congrArg List.length hlowest
    rw [length_rising, List.length_take, length_rising] at hall
    unfold height at hall hn
    omega
  rw [rising_pop (List.ne_nil_of_length_pos (by omega))]
  rw [rising_top] at hlowest
  have htake := congrArg (List.take n) hlowest
  rwa [List.take_left' (by simp [hlength]), List.take_take, Nat.min_eq_left (by omega)] at htake

namespace Sturdy

theorem top (h : s.Sturdy engine l) :
    s.top.Ground engine l ∨ s.top.Opened engine l ∧ s.below ≠ [] := by
  obtain ⟨f, rest, hrising, hground, hopened⟩ := h.frames
  rw [rising_top] at hrising
  cases hbelow : s.below.reverse with
  | nil =>
    rw [hbelow] at hrising
    cases hrising
    exact .inl hground
  | cons g below =>
    rw [hbelow] at hrising
    cases hrising
    refine .inr ⟨hopened _ (List.mem_append_right below (List.mem_singleton_self _)), ?_⟩
    rintro hnil
    rw [hnil] at hbelow
    cases hbelow

theorem push (h : s.Sturdy engine l) (hf : f.Opened engine l) : (s.push f).Sturdy engine l where
  frames := by
    obtain ⟨g, rest, hrising, hground, hopened⟩ := h.frames
    refine ⟨g, rest ++ [f], by rw [rising_push, hrising]; rfl, hground, fun x hx => ?_⟩
    rcases List.mem_append.mp hx with hx | hx
    · exact hopened x hx
    · rw [List.mem_singleton.mp hx]
      exact hf
  whiles w hw := by
    obtain ⟨i, g, hheight, hg, hrule, hwhile⟩ := h.whiles w hw
    refine ⟨i, g, hheight, ?_, hrule, hwhile⟩
    rw [rising_push, List.getElem?_append_left (List.getElem?_eq_some_iff.mp hg).1]
    exact hg
  heights := h.heights

/-- The heights at which a line must be continued are heights of the stack. -/
theorem height_le (h : s.Sturdy engine l) {w : Compiled × Nat} (hw : w ∈ s.whiles) :
    2 ≤ w.2 ∧ w.2 ≤ s.height := by
  obtain ⟨i, f, hheight, hf, -⟩ := h.whiles w hw
  have := (List.getElem?_eq_some_iff.mp hf).1
  rw [length_rising] at this
  omega

theorem pushWhile (h : s.Sturdy engine l) (hf : f.Opened engine l) (hwhile : f.rule.form.IsWhile) :
    (s.pushWhile f).Sturdy engine l where
  frames := (h.push hf).frames
  whiles w hw := by
    rcases List.mem_append.mp hw with hw | hw
    · exact (h.push hf).whiles w hw
    · obtain rfl := List.mem_singleton.mp hw
      refine ⟨s.below.length, f, rfl, ?_, rfl, hwhile⟩
      change (s.push f).rising[s.height]? = some f
      rw [rising_push, List.getElem?_append_right (Nat.le_of_eq length_rising)]
      simp [length_rising]
  heights := by
    refine List.pairwise_append.mpr ⟨h.heights, List.pairwise_singleton _ _, fun w hw v hv => ?_⟩
    obtain rfl := List.mem_singleton.mp hv
    have := (h.height_le hw).2
    exact Nat.lt_succ_of_le this

/-- A frame that is closed by its end is none that a line must continue. -/
theorem pop (h : s.Sturdy engine l) (hbelow : s.below ≠ []) (hends : ¬ s.top.rule.form.IsWhile) :
    s.pop.Sturdy engine l where
  frames := by
    obtain ⟨f, rest, hrising, hground, hall⟩ := h.frames
    rw [rising_top] at hrising
    cases hb : s.below.reverse with
    | nil => exact absurd (List.reverse_eq_nil_iff.mp hb) hbelow
    | cons g below =>
      rw [hb] at hrising
      cases hrising
      exact ⟨f, below, (rising_pop hbelow).trans hb, hground, fun x hx => hall x (List.mem_append_left _ hx)⟩
  whiles w hw := by
    rw [whiles_pop] at hw
    obtain ⟨i, f, hheight, hf, hrule, hwhile⟩ := h.whiles w hw
    refine ⟨i, f, hheight, ?_, hrule, hwhile⟩
    rw [rising_top] at hf
    rw [rising_pop hbelow]
    by_cases hlt : i + 1 < s.below.reverse.length
    · rwa [List.getElem?_append_left hlt] at hf
    · rw [List.getElem?_append_right (by omega), List.getElem?_singleton] at hf
      split at hf
      · cases hf
        exact absurd (hrule ▸ hwhile) hends
      · cases hf
  heights := by
    rw [whiles_pop]
    exact h.heights

/-- Where a line does not continue a rule, the stack below it stays, with the rules that were continued. -/
theorem cut {done rest : List (Compiled × Nat)} {w : Compiled × Nat} (h : s.Sturdy engine l)
    (hw : s.whiles = done ++ w :: rest) :
    Sturdy engine l { (s.lowest w.2).pop with whiles := done } := by
  have hmem : w ∈ s.whiles := hw ▸ List.mem_append_right done List.mem_cons_self
  obtain ⟨i, f, hheight, hf, -⟩ := h.whiles w hmem
  have hle := (h.height_le hmem).2
  have hrising : (s.lowest w.2).pop.rising = s.rising.take (i + 1) := by
    rw [hheight]
    exact rising_pop_lowest (Nat.succ_pos i) (by omega)
  refine ⟨?_, fun v hv => ?_, ?_⟩
  · obtain ⟨g, above, hr, hground, hopened⟩ := h.frames
    refine ⟨g, above.take i, ?_, hground, fun x hx => hopened x (List.mem_of_mem_take hx)⟩
    change (s.lowest w.2).pop.rising = g :: above.take i
    rw [hrising, hr, List.take_succ_cons]
  · obtain ⟨j, g, hj, hg, hrule, hwhile⟩ := h.whiles v (hw ▸ List.mem_append_left _ hv)
    have hlt : v.2 < w.2 := (List.pairwise_append.mp (hw ▸ h.heights)).2.2 v hv w List.mem_cons_self
    refine ⟨j, g, hj, ?_, hrule, hwhile⟩
    change (s.lowest w.2).pop.rising[j + 1]? = some g
    rw [hrising, List.getElem?_take_of_lt (by omega)]
    exact hg
  · exact (List.pairwise_append.mp (hw ▸ h.heights)).1

/-- The rules that a line must continue were opened, each as a rule that goes on. -/
theorem lowest (h : s.Sturdy engine l) {w : Compiled × Nat} (hw : w ∈ s.whiles) :
    (s.lowest w.2).top.Opened engine l ∧ (s.lowest w.2).top.rule = w.1 ∧ w.1.form.IsWhile := by
  obtain ⟨i, f, hheight, hf, hrule, hwhile⟩ := h.whiles w hw
  have htop : (s.lowest w.2).top = f := hheight ▸ top_lowest hf
  obtain ⟨g, rest, hr, -, hopened⟩ := h.frames
  rw [hr, List.getElem?_cons_succ] at hf
  rw [htop]
  exact ⟨hopened f (List.mem_of_getElem? hf), hrule, hwhile⟩

end Sturdy

end Stack

/-! ### Events -/

/-- What a search of a frame comes to, as far as it matters for what stands on the stack afterwards. -/
inductive Event.Proper (engine : Engine) (l : Library) (line : Text) (f : Frame) : Event → Prop
  | ends {r : Rule} {regex : Regex} {position : Nat} {m : Match} : l.Owns r → f.ending = some regex →
      ¬ f.rule.form.IsWhile → Closing engine r regex → engine.search regex line position = .ok (some m) →
      Proper engine l line f (.ends m r.endCaptures)
  | single {r : Rule} {pattern : Str} {m : Match} {target : Compiled} : l.Owns r →
      r.matchPattern = some pattern → engine.Finds pattern line m → target.form = .single r.captures →
      Proper engine l line f (.starts m target none)
  | opens {r : Rule} {template : Str} {regex : Regex} {m : Match} {target : Compiled} : l.Owns r →
      Begins engine r line m template → target.form.Of engine l r → Closing engine r regex →
      Proper engine l line f (.starts m target (some regex))

theorem endingFor_read {template : Str} {regex : Regex}
    (h : Returns (endingFor engine m line template) c regex c') :
    ∃ source, m.expand? line template = some source ∧ engine.Reads source regex := by
  unfold endingFor at h
  split at h
  · rename_i source hsource
    exact ⟨source, hsource, (readPattern_state h).1⟩
  · exact absurd h Returns.throw

/-- A rule that is started at a match of the pattern it starts by is opened, or covers the match. -/
theorem startRule_proper {target : Compiled} {pattern : Str} {event : Event} (hr : l.Owns r)
    (hof : target.form.Of engine l r) (hstart : r.start? = some pattern)
    (hfinds : engine.Finds pattern line m) (h : Returns (startRule engine line m target) c event c') :
    event.Proper engine l line f := by
  have hopens {pattern' template : Str} (hmatch : r.matchPattern = none)
      (hbegin : r.beginPattern = some pattern') (htemplate : r.template? = some template) :
      Begins engine r line m template := by
    rw [Rule.start?, hmatch, hbegin] at hstart
    cases hstart
    exact ⟨hmatch, ⟨_, hbegin, hfinds⟩, htemplate⟩
  have hclosing {template : Str} {regex : Regex} {c' : Compiler} (hopens : Begins engine r line m template)
      (hread : Returns (endingFor engine m line template) c regex c') : Closing engine r regex := by
    obtain ⟨source, hsource, hregex⟩ := endingFor_read hread
    exact ⟨line, m, template, source, hopens, hsource, hregex⟩
  have hform := hof
  unfold startRule at h
  split at h <;> rename_i heq <;> rw [heq] at hof
  · exact absurd h Returns.throw
  · obtain ⟨rfl, -⟩ := Returns.pure h
    cases hof with
    | single hmatch =>
      rw [Rule.start?, hmatch] at hstart
      cases hstart
      exact .single hr hmatch hfinds heq
  · obtain ⟨regex, c₁, hread, h⟩ := Returns.bind h
    obtain ⟨rfl, -⟩ := Returns.pure h
    cases hof with
    | beginEnd hmatch hbegin hend =>
      have hopened := hopens hmatch hbegin (by rw [Rule.template?, hend]; rfl)
      exact .opens hr hopened hform (hclosing hopened hread)
  · obtain ⟨regex, c₁, hread, h⟩ := Returns.bind h
    obtain ⟨rfl, -⟩ := Returns.pure h
    cases hof with
    | beginWhile hmatch hbegin hend hwhile =>
      have hopened := hopens hmatch hbegin (by rw [Rule.template?, hend, hwhile]; rfl)
      exact .opens hr hopened hform (hclosing hopened hread)

/-- The pattern at the place of a candidate is that of the candidate. -/
theorem Choice.Fits.regex (h : choice.Fits engine l) {index : Nat} {candidate : Candidate}
    (hc : choice.candidates[index]? = some candidate) :
    ∃ regex, choice.regexes[index]? = some regex ∧ engine.Reads candidate.pattern regex := by
  obtain ⟨hindex, rfl⟩ := List.getElem?_eq_some_iff.mp hc
  have hlength := h.read.length_eq ▸ hindex
  exact ⟨_, List.getElem?_eq_getElem hlength, h.read.get hindex hlength⟩

/-- The pattern at the place of a candidate is the one by which its rule starts. -/
theorem Choice.Fits.finds (h : choice.Fits engine l) {index : Nat} {candidate : Candidate}
    (hc : choice.candidates[index]? = some candidate)
    (hit : engine.searchAny choice.regexes line position = .ok (some (index, m))) :
    l.Owns candidate.rule ∧ candidate.rule.start? = some candidate.pattern ∧
      engine.Finds candidate.pattern line m := by
  have hmem := List.mem_of_getElem? hc
  obtain ⟨regex, hregex, hread⟩ := h.regex hc
  exact ⟨h.owned _ hmem, h.offered _ hmem, _, _, _, regex, hit, hregex, hread⟩

/-- What a search of a frame comes to is proper if the frame stands on a stack. -/
theorem Sought.proper {event : Event} (hc : c.Sane engine l (mentions f.rule))
    (hf : f.Ground engine l ∨ f.Opened engine l)
    (h : Sought engine line f.rule f.ending position c c' event) : event.Proper engine l line f := by
  cases h with
  | @starts choice index m candidate target closing offers hit taken ready begins =>
    have hfits : choice.Fits engine l := hf.elim (·.fits offers) (·.fits offers)
    obtain ⟨hr, hstart, hfinds⟩ := hfits.finds taken hit
    have hmet : c.Met candidate.rule :=
      hc.met _ (.inl ⟨choice, offers, candidate, List.mem_of_getElem? taken, rfl⟩)
    exact startRule_proper hr (compileRule_of hc hmet ready) hstart hfinds begins
  | ends form closes hit kept =>
    rcases hf with hground | ⟨r, regex, hr, hof, hending, hclosing⟩
    · rw [hground.ending] at closes
      cases closes
    · rw [hending] at closes
      cases closes
      have hends : ¬ f.rule.form.IsWhile := by rw [form]; exact id
      rw [form] at hof
      cases hof
      exact .ends hr hending hends hclosing hit

/-- Whatever a search comes to, the stack stays sturdy, and the match is a rule's own. -/
theorem Event.Proper.follow {event : Event} (h : event.Proper engine l line s.top)
    (hs : s.Sturdy engine l) : (s.follow event).stack.Sturdy engine l ∧
      ∃ r, l.Owns r ∧ Matches engine r line event.hit (s.follow event).captures := by
  cases h with
  | ends hr hending hends hclosing hit =>
    rcases hs.top with hground | ⟨-, hbelow⟩
    · rw [hground.ending] at hending
      cases hending
    · exact ⟨hs.pop hbelow hends, _, hr, .ending hclosing hit⟩
  | @single r pattern m target hr hmatch hfinds hform =>
    simp only [Stack.follow, hform]
    exact ⟨hs, _, hr, .single hmatch hfinds⟩
  | @opens r template regex m target hr hopens hof hclosing =>
    have hopened (scope : Scope) : Frame.Opened engine l ⟨scope, target, some regex⟩ :=
      ⟨r, regex, hr, hof, rfl, hclosing⟩
    have hcaptures := Matches.opening hopens
    generalize hform : target.form = form at hof
    cases hof with
    | single hmatch =>
      rw [hopens.unmatched] at hmatch
      cases hmatch
    | patternsOnly _ hnone =>
      obtain ⟨pattern, hbegin, -⟩ := hopens.found
      rcases hnone with hnone | hnone
      · rw [hbegin] at hnone
        cases hnone
      · rw [hopens.template] at hnone
        cases hnone
    | beginEnd =>
      simp only [Stack.follow, hform]
      exact ⟨hs.push (hopened _), r, hr, hcaptures⟩
    | beginWhile =>
      simp only [Stack.follow, hform]
      refine ⟨hs.pushWhile (hopened _) ?_, r, hr, hcaptures⟩
      rw [hform]
      trivial

end

end Highlighter.Grammar

import Highlighter.Proofs.Grammar.Record

/-! Where the content name of a rule goes that begins with a match and ends with another. The text of the
begin match is left out; the text between the matches has it, with all that is nested in there; and so has,
though it closes the rule, the text of the end match. -/

namespace Highlighter.Grammar

open Highlighter.Pattern (Match Regex Text)

/-- The stack stands on a frame and those below it, and all frames above lie in its scope. -/
def Stack.Inside (below : List Frame) (frame : Frame) (s : Stack) : Prop :=
  ∃ above, s.rising = below ++ frame :: above ∧ ∀ f ∈ above, frame.scope <+: f.scope

/-- The move opens a rule that has no captures, by a match. -/
structure Move.Opens (x : Move) (m : Match) (target : Compiled) (content : Scope) : Prop where
  starts : ∃ ending, x.deed = .found (.starts m target ending)
  form : ∃ template choice, target.form = .beginEnd content [] [] template choice

/-- The move closes the rule that another one opened, by a match. -/
structure Move.Closes (x opening : Move) (n : Match) : Prop where
  ends : ∃ captures, x.deed = .found (.ends n captures)
  gone : ¬ opening.after.rising <+: x.after.rising

variable {engine : Engine} {cut : Cut} {line : Text} {s t : Stack} {below : List Frame} {frame f : Frame}
  {event : Event} {c d : Compiler} {depth : Nat}

namespace Stack.Inside

theorem of_push (hscope : frame.scope <+: f.scope) (h : s.Inside below frame) :
    (s.push f).Inside below frame := by
  obtain ⟨above, hrising, habove⟩ := h
  refine ⟨above ++ [f], by rw [Stack.rising_push, hrising]; simp, ?_⟩
  exact List.forall_mem_append.mpr ⟨habove, List.forall_mem_singleton.mpr hscope⟩

theorem stays (h : s.Inside below frame) : below ++ [frame] <+: s.rising := by
  obtain ⟨above, hrising, -⟩ := h
  exact ⟨above, by simp [hrising]⟩

/-- Frames that are taken off from above do not matter, as long as the frame itself stays. -/
theorem shrink (h : s.Inside below frame) (hbelow : t.rising <+: s.rising)
    (hstays : below ++ [frame] <+: t.rising) : t.Inside below frame := by
  obtain ⟨above, hrising, habove⟩ := h
  obtain ⟨left, hleft⟩ := hstays
  obtain ⟨more, hmore⟩ := hbelow
  rw [← hleft, hrising, List.append_assoc, List.append_assoc, List.append_cancel_left_eq,
    List.singleton_append, List.cons.injEq] at hmore
  refine ⟨left, by simpa using hleft.symm, fun f hf => habove f ?_⟩
  exact hmore.2 ▸ List.mem_append_left _ hf

/-- The frame is the one on top, or it stays below that. -/
theorem top_cases (h : s.Inside below frame) : s.below.reverse = below ∧ s.top = frame ∨
    below ++ [frame] <+: s.below.reverse ∧ frame.scope <+: s.top.scope := by
  obtain ⟨above, hrising, habove⟩ := h
  rw [Stack.rising_top] at hrising
  rcases List.eq_nil_or_concat above with rfl | ⟨above, f, rfl⟩
  · obtain ⟨hbelow, htop⟩ := List.append_inj' hrising rfl
    exact .inl ⟨hbelow, List.singleton_inj.mp htop⟩
  · rw [List.concat_eq_append, ← List.cons_append, ← List.append_assoc] at hrising
    obtain ⟨hbelow, htop⟩ := List.append_inj' hrising rfl
    rw [List.singleton_inj.mp htop]
    exact .inr ⟨⟨above, by simp [hbelow]⟩, habove f (by simp)⟩

theorem top (h : s.Inside below frame) : frame.scope <+: s.top.scope := by
  rcases h.top_cases with ⟨-, htop⟩ | ⟨-, hscope⟩
  · exact htop ▸ List.prefix_rfl
  · exact hscope

/-- Only the frame on top is taken off. -/
theorem top_of_gone (h : s.Inside below frame) (hgone : ¬ below ++ [frame] <+: s.pop.rising) :
    s.below.reverse = below ∧ s.top = frame := by
  rcases h.top_cases with htop | ⟨hstays, -⟩
  · exact htop
  · refine absurd ?_ hgone
    rw [Stack.rising_pop]
    · exact hstays
    · intro hnil
      rw [hnil, List.reverse_nil, List.prefix_nil] at hstays
      simp at hstays

/-- What is found has a scope inside, and what it leads to stays inside with the frame. -/
theorem follow (h : s.Inside below frame) : frame.scope <+: (s.follow event).scope ∧
    (below ++ [frame] <+: (s.follow event).stack.rising → (s.follow event).stack.Inside below frame) := by
  have htop := h.top
  cases event with
  | ends m captures => exact ⟨htop, h.shrink Stack.rising_pop_below⟩
  | starts m target ending =>
    have hscope : frame.scope <+: s.top.scope ++ target.name := htop.trans (List.prefix_append _ _)
    have hcontent (content : Scope) : frame.scope <+: s.top.scope ++ target.name ++ content :=
      hscope.trans (List.prefix_append _ _)
    unfold Stack.follow
    dsimp only
    split
    · exact ⟨hscope, fun _ => h⟩
    · exact ⟨hscope, fun _ => h⟩
    · exact ⟨hscope, fun _ => h.of_push (hcontent _)⟩
    · exact ⟨hscope, fun _ => h.of_push (hcontent _)⟩

end Stack.Inside

/-! ### Regions -/

/-- All regions of a match lie in the scope under which it is divided. -/
theorem Cut.Onto.inside (hc : cut.Onto) {scope : Scope} {m : Match} {captures : Captures}
    {regions : List Region} (h : Returns (cut scope m captures) c regions d) :
    ∀ r ∈ regions, scope <+: r.scope := by
  rw [← List.append_nil scope, hc] at h
  obtain ⟨inner, -, rfl⟩ := Returns.of_map h
  intro r hr
  obtain ⟨r', -, rfl⟩ := List.mem_map.mp hr
  rw [Region.onto_scope]
  exact List.prefix_append _ _

theorem cutAt_onto : (cutAt engine searchBound depth line).Onto :=
  divideMatch_onto (divideAlone_onto divideLine_onto)

/-- Without captures all of a match has the scope under which it is divided. -/
theorem cutAt_nil {scope : Scope} {m : Match} {regions : List Region} {allowed : Allowance}
    (h : Returns (cutAt engine allowed depth line scope m []) c regions d) :
    regions = gap m.start m.stop scope := by
  obtain ⟨p, c₁, hp, h⟩ := Returns.bind h
  obtain ⟨rfl, -⟩ := Returns.pure hp
  obtain ⟨rfl, -⟩ := Returns.pure h
  rfl

theorem gap_inside {scope base : Scope} {start stop : Nat} (h : base <+: scope) :
    ∀ r ∈ gap start stop scope, base <+: r.scope := by
  unfold gap
  split
  · exact List.forall_mem_singleton.mpr h
  · exact List.forall_mem_nil _

/-! ### Moves -/

variable {x opening closing : Move} {m n : Match} {target : Compiled} {content : Scope} {between : List Move}

/-- A rule that begins with a match and ends with another is opened within the frames that were there. -/
theorem Move.Opens.made (hopens : x.Opens m target content)
    (h : x.Made engine (cutAt engine searchBound depth)) :
    (∃ ending, x.after.rising =
      x.before.rising ++ [⟨x.before.top.scope ++ target.name ++ content, target, ending⟩]) ∧
    x.regions = gap x.position m.start x.before.top.scope ++
      gap m.start m.stop (x.before.top.scope ++ target.name) := by
  obtain ⟨⟨ending, hdeed⟩, template, choice, hform⟩ := hopens
  cases h with
  | conditions => cases hdeed
  | rest => cases hdeed
  | @found number position line s t event parts c d e finds divides leads =>
    cases hdeed
    let frame : Frame := ⟨s.top.scope ++ target.name ++ content, target, ending⟩
    have hfollow : s.follow (.starts m target ending) =
        ⟨m, s.push frame, s.top.scope ++ target.name, []⟩ := by
      simp only [Stack.follow, hform, frame]
    rw [hfollow] at divides leads ⊢
    dsimp only at divides leads ⊢
    rcases leads with rfl | ⟨-, hsame⟩
    · exact ⟨⟨ending, Stack.rising_push⟩, by rw [cutAt_nil divides]⟩
    · have hheight : (s.push frame).height = s.height := by
        simp only [Stack.same, Bool.and_eq_true, beq_iff_eq] at hsame
        exact hsame.1.1
      simp [Stack.height, Stack.push, Stack.frames] at hheight

/-- While a frame stays, all that is read lies in its scope, but for what the conditions of a line take. -/
theorem Move.Made.inside (h : x.Made engine (cutAt engine searchBound depth))
    (hs : x.before.Inside below frame) (hstays : below ++ [frame] <+: x.after.rising) :
    x.after.Inside below frame ∧ (x.deed = .conditions ∨ ∀ r ∈ x.regions, frame.scope <+: r.scope) := by
  cases h with
  | conditions hbelow => exact ⟨hs.shrink hbelow hstays, .inl rfl⟩
  | rest => exact ⟨hs, .inr (gap_inside hs.top)⟩
  | found finds divides leads =>
    obtain ⟨hscope, hfollow⟩ := hs.follow
    refine ⟨?_, .inr (List.forall_mem_append.mpr ⟨gap_inside hs.top, fun r hr => ?_⟩)⟩
    · rcases leads with rfl | ⟨rfl, -⟩
      · exact hfollow hstays
      · exact hs
    · exact hscope.trans (cutAt_onto.inside divides r hr)

theorem Chained.inside (h : Chained s between t) (hs : s.Inside below frame)
    (hmade : ∀ x ∈ between, x.Made engine (cutAt engine searchBound depth))
    (hstays : ∀ x ∈ between, below ++ [frame] <+: x.after.rising) :
    t.Inside below frame ∧
      ∀ x ∈ between, x.deed = .conditions ∨ ∀ r ∈ x.regions, frame.scope <+: r.scope := by
  induction between generalizing s with
  | nil =>
    cases h
    exact ⟨hs, List.forall_mem_nil _⟩
  | cons x between ih =>
    obtain ⟨rfl, h⟩ := h
    rw [List.forall_mem_cons] at hmade hstays
    obtain ⟨hafter, hregions⟩ := hmade.1.inside hs hstays.1
    obtain ⟨hlast, hothers⟩ := ih h hafter hmade.2 hstays.2
    exact ⟨hlast, List.forall_mem_cons.mpr ⟨hregions, hothers⟩⟩

/-- A rule without captures is closed with the scope of its frame, and the frames below it are left. -/
theorem Move.Made.closed (hcloses : ∃ captures, x.deed = .found (.ends n captures))
    (hgone : ¬ below ++ [frame] <+: x.after.rising) (hbelow : below ≠ []) {template : Str}
    {choice : Choice} (hform : frame.rule.form = .beginEnd content [] [] template choice)
    (hs : x.before.Inside below frame) (h : x.Made engine (cutAt engine searchBound depth)) :
    x.after.rising = below ∧
      x.regions = gap x.position n.start frame.scope ++ gap n.start n.stop frame.scope := by
  obtain ⟨captures, hdeed⟩ := hcloses
  cases h with
  | conditions => cases hdeed
  | rest => cases hdeed
  | @found number position line s t event parts c d e finds divides leads =>
    cases hdeed
    rcases leads with rfl | ⟨rfl, -⟩
    · obtain ⟨hlow, htop⟩ := hs.top_of_gone hgone
      dsimp only at hlow htop
      have hpop : s.pop.rising = below := by
        rw [Stack.rising_pop (fun hnil => hbelow (by rw [← hlow, hnil]; rfl)), hlow]
      cases seek_sought finds with
      | ends form =>
        rw [htop, hform] at form
        cases form
        refine ⟨hpop, ?_⟩
        rw [cutAt_nil divides, ← htop]
        rfl
    · exact absurd hs.stays hgone

/-- The text of a match shows under a scope of its own only what lies before the end of the line. -/
theorem tokens_gap_iff {number size start stop : Nat} {scope own : Scope} :
    (∀ k ∈ (gap start stop scope).filterMap (tokenOf number size), k.scopes = own) ↔
      scope = own ∨ min stop size ≤ start := by
  have hmin : min stop size ≤ stop := Nat.min_le_left ..
  unfold gap
  split
  · by_cases hshown : start < min stop size
    · simp [tokenOf, hshown, Nat.not_le.mpr hshown]
    · simp [tokenOf, hshown, Nat.not_lt.mp hshown]
  · simp [show min stop size ≤ start by omega]

/-- The tokens of a document, and the regions of a capture's text, are those of the moves of a reading. There,
where a rule is opened that begins with a match, ends with another and has no captures, the begin match has
the scope around the rule with the rule's name. The content name goes to all that is read while the rule stays
open, but for the conditions of lines, and to the end match; so both matches are shown alike exactly if the
rule has no content name, or the end match shows nothing. -/
theorem recorded_contentName (engine : Engine) :
    (∀ t : Tokenizer, t.engine = engine → ∀ content tokens, (t.tokenize content).1 = .ok tokens →
      ∃ (texts : List String) (moves : List Move),
      content.lines = texts.map Str.ofString ∧ Recorded engine t.rootStack (texts.map searched) moves ∧
        tokens = moves.flatMap Move.tokens) ∧
    (∀ depth text scope rule c regions d,
      Returns (divideAlone (divideLine engine searchBound depth) text scope rule) c regions d → ∃ moves,
        Recorded engine ⟨⟨scope ++ rule.name, rule, none⟩, [], []⟩ [text] moves ∧
          regions = moves.flatMap Move.regions) ∧
    ∀ stack lines moves, Recorded engine stack lines moves →
      ∀ before opening between others m target content, moves = before ++ opening :: (between ++ others) →
      opening.Opens m target content → (∀ x ∈ between, opening.after.rising <+: x.after.rising) →
      let scope := opening.before.top.scope ++ target.name
      opening.regions = gap opening.position m.start opening.before.top.scope ++ gap m.start m.stop scope ∧
      (∀ x ∈ between, x.deed = .conditions ∨ ∀ r ∈ x.regions, scope ++ content <+: r.scope) ∧
      ∀ closing rest n, others = closing :: rest → closing.Closes opening n →
        closing.regions =
          gap closing.position n.start (scope ++ content) ++ gap n.start n.stop (scope ++ content) ∧
        closing.after.rising = opening.before.rising ∧
        ((∀ k ∈ (gap n.start n.stop (scope ++ content)).filterMap
            (tokenOf closing.number (closing.line.size - 1)), k.scopes = scope) ↔
          content = [] ∨ min n.stop (closing.line.size - 1) ≤ n.start) := by
  refine ⟨?_, ?_, ?_⟩
  · rintro t rfl content tokens h
    obtain ⟨c, h⟩ := Tokenizer.tokenizeBy_ok.mp h
    obtain ⟨texts, last, moves, htexts, hmoves, rfl⟩ := tokenizeLines_recorded h
    exact ⟨texts, moves, htexts, ⟨_, _, last, c, hmoves⟩, rfl⟩
  · intro depth text scope rule c regions d h
    obtain ⟨last, moves, hmoves, rfl⟩ := divideAlone_recorded h
    exact ⟨moves, ⟨depth, c, last, d, hmoves⟩, rfl⟩
  · rintro stack lines _ ⟨depth, c, last, d, h⟩
    rintro before opening between others m target content rfl hopens hstays
    obtain ⟨hpath, hmade⟩ := recordLines_made h
    simp only [List.forall_mem_append, List.forall_mem_cons] at hmade
    obtain ⟨-, hopening, hbetween, hothers⟩ := hmade
    obtain ⟨_, -, -, hpath⟩ := hpath.split
    obtain ⟨t, hpath, hrest⟩ := hpath.split
    obtain ⟨⟨ending, hrising⟩, hregions⟩ := hopens.made hopening
    rw [hrising] at hstays
    have hinside : opening.after.Inside opening.before.rising
        ⟨opening.before.top.scope ++ target.name ++ content, target, ending⟩ :=
      ⟨[], hrising, List.forall_mem_nil _⟩
    obtain ⟨hlast, hcontent⟩ := hpath.inside hinside hbetween hstays
    refine ⟨hregions, hcontent, ?_⟩
    rintro closing rest n rfl ⟨hends, hgone⟩
    obtain ⟨rfl, -⟩ := hrest
    obtain ⟨template, choice, hform⟩ := hopens.form
    have hbelow : opening.before.rising ≠ [] := by simp [Stack.rising_top]
    obtain ⟨hback, hclosing⟩ :=
      Move.Made.closed hends (hrising ▸ hgone) hbelow hform hlast (hothers closing List.mem_cons_self)
    exact ⟨hclosing, hback, by rw [tokens_gap_iff, List.append_right_eq_self]⟩

/-- A tree with one grammar: brackets, and a name for what they contain. -/
def namedContent : Files.Tree :=
  let grammar := ["\x7b\"scopeName\":\"s\",\"patterns\":[\x7b\"begin\":\"<\",\"end\":\">\",\"name\":\"r\",",
    "\"contentName\":\"c\"\x7d]\x7d"]
  ⟨[(["g.json"], .file (Text.encodeUtf8 (grammar.flatMap String.toList)))]⟩

/-- The two matches of a rule that is opened and closed at once in the reading of one line, and the rule. -/
structure Brackets where
  start : Nat
  opens : Match
  searchedAt : Nat
  closes : Match
  around : Scope
  name : Scope
  content : Scope
  bare : Bool
  heights : Nat × Nat
  deriving DecidableEq

def bracketsOf (content : String) (t : Tokenizer) : Except LoadFailure Brackets :=
  let reading := recordLines t.engine searchBound captureDepth 0 t.rootStack [searched content]
  match outcome reading t.compiler with
  | (.ok (_, [_, opening, closing, _]), _) =>
    match opening.deed, closing.deed with
    | .found (.starts m target _), .found (.ends n _) =>
      match target.form with
      | .beginEnd content beginCaptures endCaptures _ _ =>
        .ok ⟨opening.position, m, closing.position, n, opening.before.top.scope, target.name, content,
          beginCaptures.isEmpty && endCaptures.isEmpty, (opening.after.height, closing.after.height)⟩
      | _ => .error (.rule .startedPatterns)
    | _, _ => .error (.rule .noEnding)
  | _ => .error (.rule .noEnding)

theorem bracketsOf_eq {text : String} {t : Tokenizer} {found : Brackets} (h : bracketsOf text t = .ok found)
    (hbare : found.bare = true) (hheights : found.heights.2 < found.heights.1) :
    ∃ first opening closing last target,
      Recorded t.engine t.rootStack [searched text] [first, opening, closing, last] ∧
        opening.Opens found.opens target found.content ∧ closing.Closes opening found.closes ∧
        opening.position = found.start ∧ closing.position = found.searchedAt ∧
        opening.before.top.scope = found.around ∧ target.name = found.name := by
  unfold bracketsOf at h
  dsimp only at h
  split at h
  · rename_i last' first opening closing last d hrun
    split at h
    · rename_i m target ending n captures hopening hclosing
      split at h
      · rename_i content beginCaptures endCaptures template choice hform
        cases h
        rw [Bool.and_eq_true, List.isEmpty_iff, List.isEmpty_iff] at hbare
        obtain ⟨rfl, rfl⟩ := hbare
        have hopens : opening.Opens m target content := ⟨⟨ending, hopening⟩, template, choice, hform⟩
        refine ⟨first, opening, closing, last, target, ⟨captureDepth, t.compiler, last', d, hrun⟩, hopens,
          ⟨⟨captures, hclosing⟩, fun hstays => ?_⟩, rfl, rfl, rfl, rfl⟩
        have hle := hstays.length_le
        rw [Stack.length_rising, Stack.length_rising] at hle
        exact Nat.not_lt.mpr hle hheights
      · cases h
    · cases h
  · cases h

/-- In `<a>` the brackets are opened and closed by the first and the last character; the last one has the
content name, like the letter. -/
theorem recorded_contentName_brackets : ∃ t notes first opening closing last,
    Tokenizer.load namedContent (.ofString "g.json") "s" [] = (.ok t, notes) ∧
      Recorded t.engine t.rootStack [searched "<a>"] [first, opening, closing, last] ∧
      opening.regions = [⟨0, 1, ["s", "r"]⟩] ∧
      closing.regions = [⟨1, 2, ["s", "r", "c"]⟩, ⟨2, 3, ["s", "r", "c"]⟩] := by
  have hrun : Tokenizer.resultOf (Tokenizer.load namedContent (.ofString "g.json") "s" [])
      (bracketsOf "<a>") = some ⟨0, ⟨0, 1, []⟩, 1, ⟨2, 3, []⟩, ["s"], ["r"], ["c"], true, (2, 1)⟩ := by
    decide +kernel
  obtain ⟨t, notes, ht, h⟩ := Tokenizer.resultOf_eq hrun
  obtain ⟨first, opening, closing, last, target, hrecorded, hopens, hcloses, hstart, hsearched, haround,
    hname⟩ := bracketsOf_eq h rfl (by decide)
  obtain ⟨hopening, -, hclosing⟩ := (recorded_contentName t.engine).2.2 _ _ _ hrecorded [first] opening []
    [closing, last] _ target _ rfl hopens (List.forall_mem_nil _)
  obtain ⟨hclosing, -⟩ := hclosing closing [last] _ rfl hcloses
  rw [haround, hname] at hopening hclosing
  rw [hstart] at hopening
  rw [hsearched] at hclosing
  exact ⟨t, notes, first, opening, closing, last, ht, hrecorded, hopening, hclosing⟩

/-- So the characters that open and close the brackets are not shown alike. -/
theorem tokenize_namedContent : ∃ t notes opens inner closes,
    Tokenizer.load namedContent (.ofString "g.json") "s" [] = (.ok t, notes) ∧
      (t.tokenize "<a>").1 = .ok [opens, inner, closes] ∧
      opens = ⟨0, 0, 1, ["s", "r"]⟩ ∧ inner = ⟨0, 1, 2, ["s", "r", "c"]⟩ ∧
      closes = ⟨0, 2, 3, ["s", "r", "c"]⟩ ∧ closes.scopes ≠ opens.scopes := by
  have hrun : Tokenizer.resultOf (Tokenizer.load namedContent (.ofString "g.json") "s" [])
      (fun t => (t.tokenize "<a>").1) =
        some [⟨0, 0, 1, ["s", "r"]⟩, ⟨0, 1, 2, ["s", "r", "c"]⟩, ⟨0, 2, 3, ["s", "r", "c"]⟩] := by
    decide +kernel
  obtain ⟨t, notes, ht, h⟩ := Tokenizer.resultOf_eq hrun
  exact ⟨t, notes, _, _, _, ht, h, rfl, rfl, rfl, by decide⟩

end Highlighter.Grammar

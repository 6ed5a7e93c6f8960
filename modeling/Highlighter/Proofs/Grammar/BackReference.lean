import Highlighter.Proofs.Grammar.Blame
import Highlighter.Proofs.Grammar.Priority
import Highlighter.Proofs.Pattern.PlainText

/-! Rules whose end is a reference to a group of their beginning. The text of the group is read as a pattern;
where that pattern finds the text itself and nothing else, the rule is opened whatever the text is, and it is
closed by the first place of the text that its children leave. -/

namespace Highlighter.Pattern

/-! ### Templates -/

/-- A number with one more digit. -/
def withDigit (n : Nat) (c : CodePoint) : Nat := 10 * n + (c.code - 48)

/-- The template is a reference to a group, and nothing else. -/
def RefersTo (template : Str) (n : Nat) : Prop :=
  ∃ digits, template.toList = .char '\\' :: digits ∧ digits ≠ [] ∧ (∀ c ∈ digits, c.isDigit = true) ∧
    digits.foldl withDigit 0 = n

variable {group? : Nat → Option (List CodePoint)} {digits : List CodePoint} {slashes n : Nat} {template : Str}
  {m : Match} {text : Text}

theorem expandFrom_digits (h : ∀ c ∈ digits, c.isDigit = true) :
    expandFrom group? slashes (some n) digits = group? (digits.foldl withDigit n) := by
  induction digits generalizing slashes n with
  | nil => rw [expandFrom, List.foldl_nil]
  | cons c digits ih =>
    obtain ⟨hc, hdigits⟩ := List.forall_mem_cons.mp h
    rw [expandFrom, if_pos hc, ih hdigits]
    rfl

theorem RefersTo.expand? (h : RefersTo template n) :
    m.expand? text template = (m.groupText? text n).map fun cs => (String.ofList cs : Str) := by
  obtain ⟨digits, htemplate, hne, hdigits, rfl⟩ := h
  cases digits with
  | nil => exact absurd rfl hne
  | cons d digits =>
    obtain ⟨hd, hdigits⟩ := List.forall_mem_cons.mp hdigits
    have hslash : (d == .char '\\') = false := by
      refine beq_eq_false_iff_ne.mpr ?_
      rintro rfl
      cases hd
    unfold Match.expand?
    rw [htemplate, expandFrom, if_pos (by rfl), expandFrom, hslash]
    simp [hd, expandFrom_digits hdigits, withDigit, Str.ofString, Function.comp_def]

end Highlighter.Pattern

namespace Highlighter.Grammar

open Highlighter.Pattern (Match Regex Text Occurs firstPlace RefersTo)

variable {engine : Engine} {line : Text} {c d : Compiler} {m n : Match} {target : Compiled} {content : Scope}
  {beginCaptures endCaptures : Captures} {template : Str} {choice : Choice} {regex : Regex}
  {t : List Char} {group position : Nat}

/-- A rule whose end is a reference to a group is started with the text of that group, read as a pattern, and
fails to start exactly if that text cannot be read as one. -/
theorem startRule_reference
    (hform : target.form = .beginEnd content beginCaptures endCaptures template choice)
    (hrefers : RefersTo template group) (ht : m.groupText? line group = some t) :
    outcome (startRule engine line m target) c =
      match engine.read (String.ofList t) with
      | .ok regex => (.ok (.starts m target (some regex)), c)
      | .error e => (.error (.pattern e), c) := by
  have hending : outcome (endingFor engine m line template) c =
      outcome (answer (engine.read (String.ofList t))) c := by
    rw [endingFor, hrefers.expand?, ht]
    dsimp only [Option.map_some]
    rw [readPattern, Str.text?_ofString]
  unfold startRule
  rw [hform]
  dsimp only
  rw [outcome_bind, hending]
  cases engine.read (String.ofList t) <;> rfl

/-- The pattern finds the text, and nothing else. -/
def FindsText (engine : Engine) (regex : Regex) (t : List Char) : Prop :=
  ∀ line position, engine.search regex line position =
    .ok ((firstPlace t line position).map fun place => ⟨place, place + t.length, []⟩)

theorem findsText_plain (hlength : t.length < Pattern.stepLimit) (h : ∀ x ∈ t, x ∉ Pattern.Parser.signs) :
    ∃ regex, Engine.standard.read (String.ofList t) = .ok regex ∧ FindsText .standard regex t := by
  refine ⟨Pattern.plainRegex (String.ofList t), Pattern.compile_plain (by rwa [String.toList_ofList]), ?_⟩
  intro line position
  rw [← String.toList_ofList (l := t)] at hlength
  have hstandard : Engine.standard.search = Regex.search := rfl
  rw [hstandard, Pattern.search_plain hlength, String.toList_ofList]

/-- What a search comes to under a rule that is closed by a text. -/
def closeAtText (engine : Engine) (t : List Char) (captures : Captures) (line : Text) (position : Nat)
    (child : Option (Rule × Match)) : Compile (Option Event) :=
  match firstPlace t line position with
  | none => takeChoice engine line child
  | some place =>
    let m : Match := ⟨place, place + t.length, []⟩
    if EndsFirst position m child then return some (.ends m captures)
    else takeChoice engine line child

/-- A search of a rule whose end is found ahead closes the rule there, or starts a child that does not begin
behind. -/
theorem seek_ended {rule : Compiled} {found : Option Event}
    (hform : rule.form = .beginEnd content beginCaptures endCaptures template choice)
    (hended : engine.search regex line position = .ok (some m))
    (h : Returns (seek engine line rule (some regex) position) c found d) :
    found = some (.ends m endCaptures) ∨
      ∃ n target closing, found = some (.starts n target closing) ∧ n.start ≤ m.start := by
  simp only [seek, hform] at h
  obtain ⟨answered, c₁, ha, h⟩ := Returns.bind h
  obtain ⟨hs, rfl⟩ := Returns.answer ha
  cases hended.symm.trans hs
  dsimp only at h
  split at h
  · exact .inl (Returns.pure h).1.symm
  · obtain ⟨child, c₂, hchild, h⟩ := Returns.bind h
    cases child with
    | none => exact .inl (Returns.pure h).1.symm
    | some x =>
      dsimp only at h
      split at h
      · exact .inl (Returns.pure h).1.symm
      · rename_i hle
        obtain ⟨target, c₃, -, h⟩ := Returns.bind h
        obtain ⟨event, c₄, hstart, h⟩ := Returns.bind h
        obtain ⟨-, closing, rfl⟩ := startRule_starts hstart
        exact .inr ⟨x.2, target, closing, (Returns.pure h).1.symm, Nat.le_of_not_lt hle⟩

theorem FindsText.seek_eq {rule : Compiled} {child : Option (Rule × Match)} (h : FindsText engine regex t)
    (hform : rule.form = .beginEnd content beginCaptures endCaptures template choice)
    (hchild : Returns (findChoice engine choice line position) c child c) :
    outcome (seek engine line rule (some regex) position) c =
      outcome (closeAtText engine t endCaptures line position child) c := by
  have hrivals : Rivals engine choice regex line c position _ child := ⟨h line position, hchild⟩
  unfold closeAtText
  cases hplace : firstPlace t line position with
  | none =>
    rw [hplace] at hrivals
    exact hrivals.seek_none hform
  | some place =>
    rw [hplace] at hrivals
    rw [hrivals.seek_some hform]
    dsimp only
    split <;> rfl

/-- A rule that finds nothing else to start ends where its end is found. -/
theorem seek_childless {rule : Compiled} {ended : Option Match}
    (hform : rule.form = .beginEnd content beginCaptures endCaptures template choice)
    (h : Rivals engine choice regex line c position ended none) :
    outcome (seek engine line rule (some regex) position) c =
      (.ok (ended.map (.ends · endCaptures)), c) := by
  cases ended with
  | none => exact h.seek_none hform
  | some m => rw [h.seek_some hform, if_pos (.inr nofun), Option.map_some]

theorem closeAtText_childless {captures : Captures} :
    outcome (closeAtText engine t captures line position none) c =
      (.ok ((firstPlace t line position).map fun place =>
        .ends ⟨place, place + t.length, []⟩ captures), c) := by
  unfold closeAtText
  cases firstPlace t line position with
  | none => rfl
  | some place =>
    dsimp only
    rw [if_pos (.inr nofun)]
    rfl

/-- Rules that end with a pattern are closed by the first places of a text. -/
def ClosesByText (engine : Engine) (regex : Regex) (t : List Char) : Prop :=
  ∀ {rule : Compiled} {content beginCaptures endCaptures template choice},
    rule.form = .beginEnd content beginCaptures endCaptures template choice →
    ∀ line position c child, Returns (findChoice engine choice line position) c child c →
      outcome (seek engine line rule (some regex) position) c =
        outcome (closeAtText engine t endCaptures line position child) c

/-- A rule is closed by the first places of a text, whatever it offers, exactly if its end finds that text and
nothing else. -/
theorem findsText_iff (hnone : ∀ text position, engine.searchAny [] text position = .ok none) :
    FindsText engine regex t ↔ ClosesByText engine regex t := by
  refine ⟨fun h rule _ _ _ _ _ hform line position c child => h.seek_eq hform, fun h line position => ?_⟩
  -- A rule that offers nothing shows what its end finds.
  let rule : Compiled := ⟨none, [], .beginEnd [] [] [] "" ⟨[], []⟩⟩
  have hchild : Returns (findChoice engine ⟨[], []⟩ line position) default none default :=
    findChoice_none (hnone line position)
  have hsame := @h rule _ _ _ _ _ rfl line position default none hchild
  rw [closeAtText_childless] at hsame
  cases hsearch : engine.search regex line position with
  | error e =>
    have hfails : outcome (seek engine line rule (some regex) position) default =
        (.error (.pattern e), default) := by
      have hanswer : outcome (answer (engine.search regex line position)) (default : Compiler) =
          (.error (.pattern e), default) := by
        rw [hsearch]
        rfl
      exact outcome_bind_error hanswer
    rw [hfails] at hsame
    cases hsame
  | ok ended =>
    rw [seek_childless rfl ⟨hsearch, hchild⟩] at hsame
    have hhits := congrArg (Option.map Event.hit) (Except.ok.inj (Prod.mk.inj hsame).1)
    simp only [Option.map_map, Function.comp_def, Event.hit, Option.map_id'] at hhits
    rw [hhits]

/-! ### Documents -/

/-- A place in a document: one of its lines, and a position in it. -/
structure Spot where
  line : Nat
  place : Nat
  deriving DecidableEq, Repr

def Spot.Before (x y : Spot) : Prop := x.line < y.line ∨ x.line = y.line ∧ x.place < y.place

/-- Why a rule is not searched for its end in a part of a document. -/
inductive Cause where
  /-- A rule that it offers was found there, and closed again if it was opened. -/
  | child
  /-- The conditions of the rules below it, which a new line must match. -/
  | conditions
  /-- What was found last in a line changed nothing, so that its search was over. -/
  | standstill
  deriving DecidableEq, Repr

/-- A part of a document in which a rule is not searched for its end. -/
structure Stretch where
  start : Spot
  stop : Spot
  cause : Cause
  deriving DecidableEq, Repr

def Stretch.Holds (part : Stretch) (x : Spot) : Prop := ¬ x.Before part.start ∧ x.Before part.stop

/-- Where the reading of a document has come to. -/
structure Point where
  compiler : Compiler
  stack : Stack
  spot : Spot

/-- One turn of the search of a line, which changes position or stack. -/
inductive Proceeds (engine : Engine) (cut : Text → Cut) (lines : List Text) : Point → Event → Point → Prop
  | turn {c d e : Compiler} {s : Stack} {i position : Nat} {line : Text} {event : Event}
      {regions : List Region} (reads : lines[i]? = some line)
      (finds : Returns (seek engine line s.top.rule s.top.ending position) c (some event) d)
      (divides : Returns (cut line (s.follow event).scope (s.follow event).hit (s.follow event).captures)
        d regions e)
      (changes : ¬ ((s.follow event).hit.stop = position ∧ (s.follow event).stack.same s = true)) :
      Proceeds engine cut lines ⟨c, s, i, position⟩ event
        ⟨e, (s.follow event).stack, i, (s.follow event).hit.stop⟩

/-- The search of a line is over, and the next line is gone on with; the part of the document that is passed
over on the way. -/
inductive Wraps (engine : Engine) (cut : Text → Cut) (lines : List Text) : Point → Stretch → Point → Prop
  | nothing {c d e : Compiler} {s : Stack} {i position : Nat} {line next : Text} {start : Advance}
      (reads : lines[i]? = some line) (follows : lines[i + 1]? = some next)
      (finds : Returns (seek engine line s.top.rule s.top.ending position) c none d)
      (resumes : Returns (continueWhiles engine (cut next) next s s.whiles [] 0 []) d start e) :
      Wraps engine cut lines ⟨c, s, i, position⟩ ⟨⟨i + 1, 0⟩, ⟨i + 1, start.position⟩, .conditions⟩
        ⟨e, start.stack, i + 1, start.position⟩
  | standstill {c d e e' : Compiler} {s : Stack} {i position : Nat} {line next : Text} {event : Event}
      {regions : List Region} {start : Advance}
      (reads : lines[i]? = some line) (follows : lines[i + 1]? = some next)
      (finds : Returns (seek engine line s.top.rule s.top.ending position) c (some event) d)
      (divides : Returns (cut line (s.follow event).scope (s.follow event).hit (s.follow event).captures)
        d regions e)
      (changes : (s.follow event).hit.stop = position ∧ (s.follow event).stack.same s = true)
      (resumes : Returns (continueWhiles engine (cut next) next s s.whiles [] 0 []) e start e') :
      Wraps engine cut lines ⟨c, s, i, position⟩ ⟨⟨i, position⟩, ⟨i + 1, start.position⟩, .standstill⟩
        ⟨e', start.stack, i + 1, start.position⟩

/-- What the reading of a document comes to from where a rule was opened, as long as the rule is open. -/
inductive Stays (engine : Engine) (cut : Text → Cut) (lines : List Text) (s : Stack) (opening : Spot) :
    Point → Prop
  | opened {c : Compiler} : Stays engine cut lines s opening ⟨c, s, opening⟩
  | proceeds {p q : Point} {event : Event} (before : Stays engine cut lines s opening p)
      (turn : Proceeds engine cut lines p event q) (stays : s.rising <+: q.stack.rising) :
      Stays engine cut lines s opening q
  | wraps {p q : Point} {part : Stretch} (before : Stays engine cut lines s opening p)
      (turn : Wraps engine cut lines p part q) (stays : s.rising <+: q.stack.rising) :
      Stays engine cut lines s opening q

/-- The same with the parts of the document in which the rule was not searched for its end. While one of its
children is open, the spot where that began. -/
inductive Follows (engine : Engine) (cut : Text → Cut) (lines : List Text) (s : Stack) (opening : Spot) :
    List Stretch → Option Spot → Point → Prop
  | opened {c : Compiler} : Follows engine cut lines s opening [] none ⟨c, s, opening⟩
  | starts {taken : List Stretch} {p q : Point} {n : Match} {target : Compiled} {ending : Option Regex}
      (before : Follows engine cut lines s opening taken none p)
      (turn : Proceeds engine cut lines p (.starts n target ending) q) :
      Follows engine cut lines s opening taken (some ⟨p.spot.line, n.start⟩) q
  | inside {taken : List Stretch} {began : Spot} {p q : Point}
      (before : Follows engine cut lines s opening taken (some began) p) (above : p.stack.rising ≠ s.rising)
      (turn : (∃ event, Proceeds engine cut lines p event q) ∨ ∃ part, Wraps engine cut lines p part q)
      (stays : s.rising <+: q.stack.rising) :
      Follows engine cut lines s opening taken (some began) q
  | returns {taken : List Stretch} {began : Spot} {p : Point}
      (before : Follows engine cut lines s opening taken (some began) p) (back : p.stack.rising = s.rising) :
      Follows engine cut lines s opening (taken ++ [⟨began, p.spot, .child⟩]) none p
  | resumes {taken : List Stretch} {p q : Point} {part : Stretch}
      (before : Follows engine cut lines s opening taken none p) (turn : Wraps engine cut lines p part q)
      (back : q.stack.rising = s.rising) :
      Follows engine cut lines s opening (taken ++ [part]) none q

section
variable {cut : Text → Cut} {lines : List Text} {s s' : Stack} {opening : Spot} {p q : Point} {part : Stretch}
  {taken : List Stretch} {began? : Option Spot} {x : Spot}

theorem Stack.rising_lowest_below {n : Nat} : (s.lowest n).rising <+: s.rising := by
  unfold Stack.lowest
  split
  · exact List.prefix_rfl
  · rename_i f rest hdrop
    refine List.reverse_prefix.mpr ?_
    change f :: rest <:+ s.frames
    rw [← hdrop]
    exact List.drop_suffix ..

theorem Stack.rising_pop_below : s.pop.rising <+: s.rising := by
  unfold Stack.pop
  split
  · exact List.prefix_rfl
  · rename_i f rest hbelow
    refine List.reverse_prefix.mpr ?_
    change f :: rest <:+ s.top :: s.below
    rw [hbelow]
    exact List.suffix_cons ..

theorem continueWhiles_below {cut : Cut} {rest done : List (Compiled × Nat)} {regions : List Region}
    {start : Advance} (h : Returns (continueWhiles engine cut line s rest done position regions) c start d) :
    start.stack.rising <+: s.rising := by
  induction rest generalizing done position regions c with
  | nil =>
    obtain ⟨rfl, -⟩ := Returns.pure h
    exact List.prefix_rfl
  | cons w rest ih =>
    unfold continueWhiles at h
    dsimp only at h
    split at h
    · obtain ⟨answered, c₁, -, h⟩ := Returns.bind h
      split at h
      · obtain ⟨rfl, -⟩ := Returns.pure h
        exact (Stack.rising_pop_below (s := s.lowest w.2)).trans Stack.rising_lowest_below
      · obtain ⟨found, c₂, -, h⟩ := Returns.bind h
        exact ih h
    · exact absurd h Returns.throw

theorem Wraps.rising_below (h : Wraps engine cut lines p part q) : q.stack.rising <+: p.stack.rising := by
  cases h with
  | nothing _ _ _ resumes => exact continueWhiles_below resumes
  | standstill _ _ _ _ _ resumes => exact continueWhiles_below resumes

theorem Proceeds.closes {captures : Captures} (hbelow : s.below ≠ [])
    (h : Proceeds engine cut lines p (.ends m captures) q) (hp : p.stack.rising = s.rising) :
    ¬ s.rising <+: q.stack.rising := by
  cases h with
  | @turn c d e s' =>
    change s'.rising = s.rising at hp
    intro hstays
    have hbelow' : s'.below ≠ [] := by
      intro hnil
      have hheight := congrArg List.length hp
      rw [Stack.length_rising, Stack.length_rising, Stack.height, Stack.height, hnil] at hheight
      exact hbelow (List.eq_nil_of_length_eq_zero (Nat.succ.inj hheight).symm)
    have hle := hstays.length_le
    change s.rising.length ≤ s'.pop.rising.length at hle
    rw [Stack.rising_pop hbelow', ← hp, Stack.rising_top, List.length_append] at hle
    exact Nat.not_succ_le_self _ hle

/-- As long as a rule is open, all that the reading of the document does is known of. -/
theorem Stays.follows (hbelow : s.below ≠ []) (h : Stays engine cut lines s opening p) :
    ∃ taken began?, Follows engine cut lines s opening taken began? p ∧
      (began? = none ↔ p.stack.rising = s.rising) := by
  have hback {taken : List Stretch} {began : Spot} {q : Point}
      (hq : Follows engine cut lines s opening taken (some began) q) :
      ∃ taken began?, Follows engine cut lines s opening taken began? q ∧
        (began? = none ↔ q.stack.rising = s.rising) := by
    by_cases h : q.stack.rising = s.rising
    · exact ⟨_, none, .returns hq h, iff_of_true rfl h⟩
    · exact ⟨_, some began, hq, iff_of_false nofun h⟩
  induction h with
  | opened => exact ⟨[], none, .opened, iff_of_true rfl rfl⟩
  | @proceeds p q event before turn stays ih =>
    obtain ⟨taken, began?, hp, hnone⟩ := ih
    cases began? with
    | some began => exact hback (.inside hp (mt hnone.mpr nofun) (.inl ⟨event, turn⟩) stays)
    | none =>
      cases event with
      | ends m captures => exact absurd stays (turn.closes hbelow (hnone.mp rfl))
      | starts n target ending => exact hback (.starts hp turn)
  | @wraps p q part before turn stays ih =>
    obtain ⟨taken, began?, hp, hnone⟩ := ih
    cases began? with
    | some began => exact hback (.inside hp (mt hnone.mpr nofun) (.inr ⟨part, turn⟩) stays)
    | none =>
      have heq : q.stack.rising = s.rising :=
        (List.IsPrefix.eq_of_length_le ((hnone.mp rfl) ▸ turn.rising_below) stays.length_le)
      exact ⟨_, none, .resumes hp turn heq, iff_of_true rfl heq⟩

/-- A text stands in one of the lines of a document. -/
def OccursAt (t : List Char) (lines : List Text) (x : Spot) : Prop :=
  ∃ line, lines[x.line]? = some line ∧ Occurs t line x.place

theorem Stack.top_of_rising_eq (h : s'.rising = s.rising) : s'.top = s.top := by
  rw [Stack.rising_top, Stack.rising_top] at h
  exact List.singleton_inj.mp (List.append_inj_right' h rfl)

/-- Where nothing is found, or a child, the text does not stand from the position up to there. -/
theorem FindsText.not_passed {rule : Compiled} {found : Option Event} (h : FindsText engine regex t)
    (hform : rule.form = .beginEnd content beginCaptures endCaptures template choice)
    (hfound : Returns (seek engine line rule (some regex) position) c found d) {place : Nat}
    (hplace : position ≤ place) (hoccurs : Occurs t line place) :
    ∃ event, found = some event ∧ event.hit.start ≤ place := by
  obtain ⟨first, hfirst⟩ : ∃ first, firstPlace t line position = some first := by
    refine Option.ne_none_iff_exists'.mp fun hnone => ?_
    exact Pattern.firstPlace_eq_none.mp hnone place hplace hoccurs
  have hle : first ≤ place := by
    obtain ⟨-, -, hno⟩ := Pattern.firstPlace_eq_some.mp hfirst
    exact Nat.le_of_not_lt fun hlt => hno place hplace hlt hoccurs
  have hended := h line position
  rw [hfirst, Option.map_some] at hended
  rcases seek_ended hform hended hfound with rfl | ⟨n, target, closing, rfl, hn⟩
  · exact ⟨_, rfl, hle⟩
  · exact ⟨_, rfl, hn.trans hle⟩

theorem Follows.top (h : Follows engine cut lines s opening taken none p) : p.stack.top = s.top := by
  cases h with
  | opened => rfl
  | returns before back => exact Stack.top_of_rising_eq back
  | resumes before turn back => exact Stack.top_of_rising_eq back

/-- Where a search of the rule finds nothing, or a child, no place of the text was passed over. -/
theorem Follows.not_passed {c : Compiler} {i : Nat} {found : Option Event} (hfinds : FindsText engine regex t)
    (hform : s.top.rule.form = .beginEnd content beginCaptures endCaptures template choice)
    (hending : s.top.ending = some regex)
    (h : Follows engine cut lines s opening taken none ⟨c, s', i, position⟩) (hline : lines[i]? = some line)
    (hfound : Returns (seek engine line s'.top.rule s'.top.ending position) c found d)
    (hx : OccursAt t lines x) (hi : x.line = i) (hplace : position ≤ x.place) :
    ∃ event, found = some event ∧ event.hit.start ≤ x.place := by
  obtain ⟨line', hline', hoccurs⟩ := hx
  rw [hi, hline] at hline'
  cases hline'
  have htop : s'.top = s.top := h.top
  rw [htop, hending] at hfound
  exact hfinds.not_passed hform hfound hplace hoccurs

theorem Follows.passed (hfinds : FindsText engine regex t)
    (hform : s.top.rule.form = .beginEnd content beginCaptures endCaptures template choice)
    (hending : s.top.ending = some regex) (h : Follows engine cut lines s opening taken began? p)
    (hx : OccursAt t lines x) (hopening : ¬ x.Before opening) (hbefore : x.Before (began?.getD p.spot)) :
    ∃ part ∈ taken, part.Holds x := by
  induction h with
  | opened => exact absurd hbefore hopening
  | @starts taken p q n target ending before turn ih =>
    by_cases hearlier : x.Before p.spot
    · exact ih hearlier
    · cases turn with
      | turn reads finds =>
        simp only [Spot.Before, Option.getD_some] at hbefore hearlier
        obtain ⟨event, hevent, hle⟩ :=
          before.not_passed hfinds hform hending reads finds hx (by omega) (by omega)
        cases hevent
        change n.start ≤ x.place at hle
        omega
  | inside before _ _ _ ih => exact ih hbefore
  | @returns taken began p before back ih =>
    by_cases hbegan : x.Before began
    · obtain ⟨part, hpart, hholds⟩ := ih hbegan
      exact ⟨part, List.mem_append_left _ hpart, hholds⟩
    · exact ⟨_, List.mem_append_right _ (List.mem_singleton_self _), hbegan, hbefore⟩
  | @resumes taken p q part before turn back ih =>
    by_cases hearlier : x.Before p.spot
    · obtain ⟨part, hpart, hholds⟩ := ih hearlier
      exact ⟨part, List.mem_append_left _ hpart, hholds⟩
    · refine ⟨part, List.mem_append_right _ (List.mem_singleton_self _), ?_⟩
      cases turn with
      | @nothing c d e s' i position line next start reads follows finds resumes =>
        refine ⟨fun hi => ?_, hbefore⟩
        simp only [Spot.Before] at hi hearlier
        obtain ⟨event, hevent, -⟩ :=
          before.not_passed hfinds hform hending reads finds hx (by omega) (by omega)
        cases hevent
      | standstill => exact ⟨hearlier, hbefore⟩

/-- A text stands at a spot, and wherever it stands before, from the opening of a rule on, was taken. -/
structure FirstLeft (t : List Char) (lines : List Text) (opening : Spot) (taken : List Stretch) (x : Spot) :
    Prop where
  stands : OccursAt t lines x
  taken : ∀ y, OccursAt t lines y → ¬ y.Before opening → y.Before x → ∃ part ∈ taken, part.Holds y

theorem Follows.firstLeft {captures : Captures} (hfinds : FindsText engine regex t)
    (hform : s.top.rule.form = .beginEnd content beginCaptures endCaptures template choice)
    (hending : s.top.ending = some regex) (h : Follows engine cut lines s opening taken none p)
    (hturn : Proceeds engine cut lines p (.ends m captures) q) :
    FirstLeft t lines opening taken ⟨p.spot.line, m.start⟩ ∧ m.stop = m.start + t.length := by
  cases hturn with
  | @turn c d e s' i position line event regions reads finds =>
    have htop : s'.top = s.top := h.top
    have hsought := seek_sought finds
    rw [htop, hending] at hsought
    cases hsought with
    | ends form closes hit =>
      cases closes
      rw [hfinds line position] at hit
      obtain ⟨place, hplace, rfl⟩ := Option.map_eq_some_iff.mp (Except.ok.inj hit)
      obtain ⟨hle, hoccurs, hfirst⟩ := Pattern.firstPlace_eq_some.mp hplace
      refine ⟨⟨⟨line, reads, hoccurs⟩, fun y hy hopening hbefore => ?_⟩, rfl⟩
      by_cases hearlier : y.Before ⟨i, position⟩
      · exact h.passed hfinds hform hending hy hopening hearlier
      · simp only [Spot.Before] at hbefore hearlier
        obtain ⟨line', hline', hoccurs'⟩ := hy
        obtain rfl : y.line = i := by omega
        cases reads.symm.trans hline'
        exact absurd hoccurs' (hfirst y.place (by omega) (by omega))

end

/-- What is known of a rule that ends with a pattern, while it is open, if the pattern finds a text and
nothing else: wherever the text stands before the spot that was come to, or before the child that is open, it
was taken. So where the rule is closed, the text stands for the first time without being taken. -/
structure Awaits (engine : Engine) (target : Compiled) (regex : Regex) (t : List Char) (cut : Text → Cut)
    (lines : List Text) (s : Stack) (opening : Spot) (taken : List Stretch) (began? : Option Spot) (p : Point) :
    Prop where
  follows : Follows engine cut lines s opening taken began? p
  passed : ∀ x, OccursAt t lines x → ¬ x.Before opening → x.Before (began?.getD p.spot) →
    ∃ part ∈ taken, part.Holds x
  searched : began? = none → p.stack.top.rule = target ∧ p.stack.top.ending = some regex
  closes : began? = none → ∀ m captures q, Proceeds engine cut lines p (.ends m captures) q →
    FirstLeft t lines opening taken ⟨p.spot.line, m.start⟩ ∧ m.stop = m.start + t.length

/-- A rule whose end is a reference to a group is opened exactly if the text of the group can be read as a
pattern, which a text without signs always can in the pattern dialect. It is closed by the places of that text,
in whatever rule of this kind, exactly if the pattern finds the text and nothing else; and then as long as the
rule is open, it is known of every place of the text by what it was taken. Of the engine no more is relied on
than that it finds nothing where it is given no patterns. -/
theorem reference_closes (hnone : ∀ text position, engine.searchAny [] text position = .ok none)
    (hform : target.form = .beginEnd content beginCaptures endCaptures template choice)
    (hrefers : RefersTo template group) (ht : m.groupText? line group = some t) :
    (outcome (startRule engine line m target) c =
      match engine.read (String.ofList t) with
      | .ok regex => (.ok (.starts m target (some regex)), c)
      | .error e => (.error (.pattern e), c)) ∧
    (t.length < Pattern.stepLimit → (∀ x ∈ t, x ∉ Pattern.Parser.signs) →
      ∃ regex, Engine.standard.read (String.ofList t) = .ok regex ∧ FindsText .standard regex t) ∧
    ∀ regex, (FindsText engine regex t ↔ ClosesByText engine regex t) ∧
      (FindsText engine regex t → ∀ cut lines (below s : Stack) opening p,
        (below.follow (.starts m target (some regex))).stack = s →
        Stays engine cut lines s opening p →
        ∃ taken began?, Awaits engine target regex t cut lines s opening taken began? p) := by
  refine ⟨startRule_reference hform hrefers ht, findsText_plain, fun regex => ⟨findsText_iff hnone, ?_⟩⟩
  intro hfinds cut lines below s opening p hs hstays
  obtain rfl : below.push ⟨below.top.scope ++ target.name ++ content, target, some regex⟩ = s := by
    simpa only [Stack.follow, hform] using hs
  obtain ⟨taken, began?, hfollows, -⟩ := hstays.follows (List.cons_ne_nil _ _)
  refine ⟨taken, began?, hfollows, fun x => hfollows.passed hfinds hform rfl, ?_, ?_⟩
  · rintro rfl
    exact ⟨congrArg Frame.rule hfollows.top, congrArg Frame.ending hfollows.top⟩
  · rintro rfl n captures q hturn
    exact hfollows.firstLeft hfinds hform rfl hturn

/-! ### A rule that is closed by a character of its beginning -/

/-- A tree with one grammar: a rule that is closed by the character after the bracket that opened it. -/
def bracketed : Files.Tree :=
  let grammar := ["\x7b\"scopeName\":\"s\",\"patterns\":[\x7b\"begin\":\"<(.)\",\"end\":\"\\\\1\",",
    "\"name\":\"r\",\"patterns\":[\x7b\"match\":\"k\",\"name\":\"k\"\x7d]\x7d]\x7d"]
  ⟨[(["g.json"], .file (Text.encodeUtf8 (grammar.flatMap String.toList)))]⟩

/-- How the first rule of a line is opened: the match, the template of the rule's end, the text of the first
group, and whether the rule finds something to start on another line. -/
structure Opening where
  hit : Match
  template : Str
  text : Option (List Char)
  hasChild : Bool
  deriving DecidableEq

def openingOf (line next : Text) (t : Tokenizer) : Except LoadFailure Opening :=
  match outcome (seek .standard line t.root none 0) t.compiler with
  | (.ok (some (.starts m target _)), _) =>
    match target.form with
    | .beginEnd _ _ _ template choice =>
      .ok ⟨m, template, m.groupText? line 1, Engine.standard.searchAny choice.regexes next 0 != .ok none⟩
    | _ => .error (.rule .startedPatterns)
  | _ => .error (.rule .noEnding)

theorem openingOf_eq {line next : Text} {tokenizer : Tokenizer} {found : Opening}
    (h : openingOf line next tokenizer = .ok found) :
    ∃ target closing d content beginCaptures endCaptures choice,
      Returns (seek .standard line tokenizer.root none 0) tokenizer.compiler
        (some (.starts found.hit target closing)) d ∧
      target.form = .beginEnd content beginCaptures endCaptures found.template choice ∧
      found.hit.groupText? line 1 = found.text ∧
      (found.hasChild = false → Engine.standard.searchAny choice.regexes next 0 = .ok none) := by
  unfold openingOf at h
  split at h
  · rename_i m target closing d hseek
    split at h
    · rename_i content beginCaptures endCaptures template choice hform
      cases h
      exact ⟨target, closing, d, content, beginCaptures, endCaptures, choice, hseek, hform, rfl,
        fun hnone => by simpa using hnone⟩
    · cases h
  · cases h

/-- A rule that was opened by `<x` is closed by the next `x`. -/
theorem reference_closes_letter : ∃ t notes m target closing d regex,
    Tokenizer.load bracketed (.ofString "g.json") "s" [] = (.ok t, notes) ∧
      Returns (seek .standard (searched "<x") t.root none 0) t.compiler (some (.starts m target closing)) d ∧
      m.groupText? (searched "<x") 1 = some ['x'] ∧
      outcome (startRule .standard (searched "<x") m target) d = (.ok (.starts m target (some regex)), d) ∧
      FindsText .standard regex ['x'] ∧
      ∃ captures, outcome (seek .standard (searched "b x") target (some regex) 0) d =
        (.ok (some (.ends ⟨2, 3, []⟩ captures)), d) := by
  have hrun : Tokenizer.resultOf (Tokenizer.load bracketed (.ofString "g.json") "s" [])
      (openingOf (searched "<x") (searched "b x")) =
        some ⟨⟨0, 2, [some ⟨1, 2⟩]⟩, "\\1", some ['x'], false⟩ := by
    decide +kernel
  obtain ⟨t, notes, ht, h⟩ := Tokenizer.resultOf_eq hrun
  obtain ⟨target, closing, d, content, beginCaptures, endCaptures, choice, hseek, hform, hgroup, hnone⟩ :=
    openingOf_eq h
  have hrefers : RefersTo "\\1" 1 := ⟨[.char '1'], rfl, by decide, List.forall_mem_singleton.mpr rfl, rfl⟩
  obtain ⟨hstart, hplain, hclosing⟩ := reference_closes (c := d) searchAny_nil hform hrefers hgroup
  obtain ⟨regex, hread, hfinds⟩ := hplain (by decide) (List.forall_mem_singleton.mpr (by decide))
  rw [hread] at hstart
  have hchild : Returns (findChoice .standard choice (searched "b x") 0) d none d :=
    findChoice_none (hnone rfl)
  refine ⟨t, notes, _, target, closing, d, regex, ht, hseek, hgroup, hstart, hfinds, endCaptures, ?_⟩
  rw [(hclosing regex).1.mp hfinds hform _ _ _ _ hchild, closeAtText_childless]
  have hplace : firstPlace ['x'] (searched "b x") 0 = some 2 := by decide
  rw [hplace]
  rfl

/-- Other characters fail to open the rule, or it is closed where they do not stand. -/
theorem reference_closes_signs : ∃ t notes tokens,
    Tokenizer.load bracketed (.ofString "g.json") "s" [] = (.ok t, notes) ∧
      (t.tokenize "<(b (c").1 = .error (.grammar (.badPatternAtLine "s" 1 .unmatchedOpen)) ∧
      (t.tokenize "<.b .c").1 = .ok tokens ∧
      tokens = [⟨0, 0, 2, ["s", "r"]⟩, ⟨0, 2, 3, ["s", "r"]⟩, ⟨0, 3, 6, ["s"]⟩] ∧
      firstPlace ['.'] (searched "<.b .c") 2 = some 4 := by
  let made := Tokenizer.load bracketed (.ofString "g.json") "s" []
  let failing (t : Tokenizer) : Except LoadFailure (String × Nat × Pattern.PatternError) :=
    match (t.tokenize "<(b (c").1 with
    | .error (.grammar (.badPatternAtLine scope line e)) => .ok (scope, line, e)
    | .error f => .error f
    | .ok _ => .error (.rule .noGroup)
  have hfailing : Tokenizer.resultOf made failing = some ("s", 1, .unmatchedOpen) := by decide +kernel
  have hrun : Tokenizer.resultOf made (fun t => (t.tokenize "<.b .c").1) =
      some [⟨0, 0, 2, ["s", "r"]⟩, ⟨0, 2, 3, ["s", "r"]⟩, ⟨0, 3, 6, ["s"]⟩] := by
    decide +kernel
  obtain ⟨t, notes, ht, h⟩ := Tokenizer.resultOf_eq hrun
  obtain ⟨t', notes', ht', hfails⟩ := Tokenizer.resultOf_eq hfailing
  obtain ⟨rfl, -⟩ : t = t' ∧ notes = notes' := by simpa using ht.symm.trans ht'
  refine ⟨t, notes, _, ht, ?_, h, rfl, by decide⟩
  simp only [failing] at hfails
  split at hfails
  · rename_i herror
    cases hfails
    exact herror
  · cases hfails
  · cases hfails

end Highlighter.Grammar

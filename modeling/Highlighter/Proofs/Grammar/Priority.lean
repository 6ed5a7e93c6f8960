import Highlighter.Proofs.Grammar.Termination

/-! The end of a rule against the rules that it offers. From one position on, the end is taken if it
matches at that position, or further to the left than anything that is offered; so where both match at one
place, it depends on the position from which the search began which of them is taken. -/

namespace Highlighter.Grammar

open Highlighter.Pattern (Match Regex Text)

variable {engine : Engine} {line : Text} {rule : Compiled} {choice : Choice} {ending : Regex}
  {content : Scope} {beginCaptures endCaptures : Captures} {template : Str} {c : Compiler}
  {position e : Nat} {ended : Option Match} {m : Match} {child : Option (Rule × Match)}

/-- The first match of a rule's end and the first match of a rule that it offers, from a position on. -/
structure Rivals (engine : Engine) (choice : Choice) (ending : Regex) (line : Text) (c : Compiler)
    (position : Nat) (ended : Option Match) (child : Option (Rule × Match)) : Prop where
  ended : engine.search ending line position = .ok ended
  child : Returns (findChoice engine choice line position) c child c

/-- The end matches at the position itself, or to the left of the child. -/
def EndsFirst (position : Nat) (m : Match) (child : Option (Rule × Match)) : Prop :=
  m.start = position ∨ ∀ x ∈ child, m.start < x.2.start

instance : Decidable (EndsFirst position m child) :=
  inferInstanceAs (Decidable (_ ∨ ∀ x ∈ child, m.start < x.2.start))

namespace Rivals

theorem start_le (h : Rivals engine choice ending line c position ended child) (hs : engine.Sound) :
    (∀ m ∈ ended, position ≤ m.start) ∧ ∀ x ∈ child, position ≤ x.2.start := by
  refine ⟨?_, ?_⟩
  · rintro m rfl
    exact (hs.search h.ended).from_le
  · rintro ⟨r, n⟩ rfl
    obtain ⟨-, hfound⟩ := findChoice_found h.child
    obtain ⟨index, candidate, hany, -, -⟩ := hfound r n rfl
    exact (hs.searchAny hany).from_le

/-- Without a match of the end, what is offered is taken. -/
theorem seek_none (h : Rivals engine choice ending line c position none child)
    (hform : rule.form = .beginEnd content beginCaptures endCaptures template choice) :
    outcome (seek engine line rule (some ending) position) c = outcome (takeChoice engine line child) c := by
  simp only [seek, hform]
  have hanswer : outcome (answer (engine.search ending line position)) c = (.ok none, c) := by
    rw [h.ended]
    rfl
  rw [outcome_bind_ok hanswer]
  exact outcome_bind_ok h.child

/-- A match of the end is taken exactly if it precedes the child. -/
theorem seek_some (h : Rivals engine choice ending line c position (some m) child)
    (hform : rule.form = .beginEnd content beginCaptures endCaptures template choice) :
    outcome (seek engine line rule (some ending) position) c =
      if EndsFirst position m child then (.ok (some (.ends m endCaptures)), c)
      else outcome (takeChoice engine line child) c := by
  simp only [seek, hform]
  have hanswer : outcome (answer (engine.search ending line position)) c = (.ok (some m), c) := by
    rw [h.ended]
    rfl
  rw [outcome_bind_ok hanswer]
  dsimp only
  by_cases hstart : m.start = position
  · rw [if_pos (beq_iff_eq.mpr hstart), if_pos (.inl hstart)]
    rfl
  · rw [if_neg (by simpa using hstart), outcome_bind_ok h.child]
    cases child with
    | none =>
      rw [if_pos (.inr nofun)]
      rfl
    | some x =>
      have hfirst : EndsFirst position m (some x) ↔ m.start < x.2.start := by
        simp [EndsFirst, hstart]
      by_cases hlt : m.start < x.2.start
      · rw [if_pos (hfirst.mpr hlt)]
        dsimp only
        rw [if_pos hlt]
        rfl
      · rw [if_neg (mt hfirst.mp hlt)]
        dsimp only
        rw [if_neg hlt]

end Rivals

/-- Starting what was found never closes the rule on top. -/
theorem takeChoice_ne_ends : outcome (takeChoice engine line child) c ≠
    (.ok (some (.ends m endCaptures)), c) := by
  intro h
  unfold takeChoice at h
  cases child with
  | none => cases h
  | some x =>
    obtain ⟨target, c₁, -, h⟩ := Returns.bind h
    obtain ⟨event, c₂, hstart, h⟩ := Returns.bind h
    obtain ⟨-, closing, rfl⟩ := startRule_starts hstart
    obtain ⟨he, -⟩ := Returns.pure h
    cases he

/-- Apart from a tie, the end precedes the child from the one place exactly if it does from the other. -/
theorem endsFirst_iff (hle : position ≤ e) (hm : e ≤ m.start) (hchild : ∀ x ∈ child, e ≤ x.2.start)
    (hapart : ¬ (position < e ∧ m.start = e ∧ ∃ x ∈ child, x.2.start = e)) :
    EndsFirst position m child ↔ EndsFirst e m child := by
  constructor
  · rintro (hp | hp)
    · exact .inl (by omega)
    · exact .inr hp
  · rintro (hp | hp)
    · by_cases hlt : position < e
      · refine .inr fun x hx => ?_
        have hne : x.2.start ≠ e := fun hxe => hapart ⟨hlt, hp, x, hx, hxe⟩
        have := hchild x hx
        omega
      · exact .inl (by omega)
    · exact .inr hp

/-- A search from a place takes what a search from a position before it takes, if nothing that the two find
depends on where they begin; only where the end and a child both match at that very place, a search from
before it takes the child, and a search from there takes the end. -/
theorem seek_again_iff (hs : engine.Sound)
    (hform : rule.form = .beginEnd content beginCaptures endCaptures template choice)
    (hle : position ≤ e) (h : Rivals engine choice ending line c position ended child)
    (h' : Rivals engine choice ending line c e ended child) :
    (outcome (seek engine line rule (some ending) position) c =
        outcome (seek engine line rule (some ending) e) c ↔
      ¬ (position < e ∧ (∃ m ∈ ended, m.start = e) ∧ ∃ x ∈ child, x.2.start = e)) ∧
    ∀ m ∈ ended, m.start = e →
      outcome (seek engine line rule (some ending) e) c = (.ok (some (.ends m endCaptures)), c) ∧
      (position < e → (∃ x ∈ child, x.2.start = e) →
        outcome (seek engine line rule (some ending) position) c =
          outcome (takeChoice engine line child) c) := by
  obtain ⟨hended, hchild⟩ := h'.start_le hs
  cases ended with
  | none => exact ⟨by simp [h.seek_none hform, h'.seek_none hform], nofun⟩
  | some m =>
    have hm : e ≤ m.start := hended m rfl
    have hends (hstart : m.start = e) :
        outcome (seek engine line rule (some ending) e) c = (.ok (some (.ends m endCaptures)), c) := by
      rw [h'.seek_some hform, if_pos (.inl hstart)]
    have htied (hlt : position < e) (hstart : m.start = e) (hx : ∃ x ∈ child, x.2.start = e) :
        outcome (seek engine line rule (some ending) position) c =
          outcome (takeChoice engine line child) c := by
      rw [h.seek_some hform, if_neg]
      obtain ⟨x, hx, hxe⟩ := hx
      rintro (hp | hp)
      · omega
      · have := hp x hx
        omega
    refine ⟨⟨fun hsame => ?_, fun hapart => ?_⟩, fun n hn hstart => ?_⟩
    · rintro ⟨hlt, ⟨n, hn, hstart⟩, hx⟩
      obtain rfl : m = n := Option.some.inj hn
      rw [hends hstart, htied hlt hstart hx] at hsame
      exact takeChoice_ne_ends hsame
    · have hfirst : EndsFirst position m child ↔ EndsFirst e m child :=
        endsFirst_iff hle hm hchild fun htie => hapart ⟨htie.1, ⟨m, rfl, htie.2.1⟩, htie.2.2⟩
      simp only [h.seek_some hform, h'.seek_some hform, hfirst]
    · obtain rfl : m = n := Option.some.inj hn
      exact ⟨hends hstart, fun hlt => htied hlt hstart⟩

/-! ### A tie -/

def Event.isEnd : Event → Bool
  | .ends _ _ => true
  | .starts _ _ _ => false

/-- What a search has to choose from where the end and a child both match: the match of the end, the place of
the child in the choice and its match, and whether the end is taken. -/
structure Contest where
  ended : Match
  place : Nat
  child : Match
  closes : Bool
  deriving DecidableEq

/-- The contest under the rule on top of a stack. -/
def contest (engine : Engine) (line : Text) (stack : Stack) (position : Nat) (c : Compiler) :
    Option Contest :=
  match stack.top.rule.form, stack.top.ending with
  | .beginEnd _ _ _ _ choice, some ending =>
    match engine.search ending line position, engine.searchAny choice.regexes line position,
      (outcome (seek engine line stack.top.rule (some ending) position) c).1 with
    | .ok (some m), .ok (some (index, n)), .ok (some event) => some ⟨m, index, n, event.isEnd⟩
    | _, _, _ => none
  | _, _ => none

/-- What the contest is about. -/
theorem rivals_of_contest {stack : Stack} {found : Contest}
    (h : contest engine line stack position c = some found) :
    ∃ content beginCaptures endCaptures template choice ending,
      stack.top.rule.form = .beginEnd content beginCaptures endCaptures template choice ∧
      stack.top.ending = some ending ∧
      Rivals engine choice ending line c position (some found.ended)
        ((choice.candidates[found.place]?).map fun x => (x.rule, found.child)) := by
  unfold contest at h
  split at h
  · rename_i content beginCaptures endCaptures template choice ending hform hending
    split at h
    · rename_i m index n event hended hany hseek
      cases h
      refine ⟨_, _, _, _, _, _, hform, hending, hended, ?_⟩
      have hanswer : Returns (answer (engine.searchAny choice.regexes line position)) c
          (some (index, n)) c := by
        rw [hany]
        rfl
      exact hanswer.bind_intro rfl
    · cases h
  · cases h

/-- The contests of two searches on a line, after a line that opened a rule. -/
def contests (opening line : Text) (position e : Nat) (t : Tokenizer) :
    Except LoadFailure (Option Contest × Option Contest) :=
  match outcome (divideLine t.engine searchBound captureDepth t.rootStack opening) t.compiler with
  | (.ok (stack, _), c) => .ok (contest t.engine line stack position c, contest t.engine line stack e c)
  | (.error f, _) => .error (.rule f)

theorem contests_eq {t : Tokenizer} {opening : Text} {found : Option Contest × Option Contest}
    (h : contests opening line position e t = .ok found) : ∃ c stack, t.Comes c stack ∧
      contest t.engine line stack position c = found.1 ∧ contest t.engine line stack e c = found.2 := by
  unfold contests at h
  split at h
  · rename_i stack regions c hline
    cases h
    exact ⟨c, stack, .line .start hline, rfl, rfl⟩
  · cases h

/-- A tree with one grammar: a rule that is closed by a `c` or a `d` and offers a rule for a `c`. -/
def closedByItsOwn : Files.Tree :=
  let grammar := ["\x7b\"scopeName\":\"s\",\"patterns\":[\x7b\"begin\":\"a\",\"end\":\"c|d\",",
    "\"name\":\"r\",\"patterns\":[\x7b\"match\":\"c\",\"name\":\"k\"\x7d]\x7d]\x7d"]
  ⟨[(["g.json"], .file (Text.encodeUtf8 (grammar.flatMap String.toList)))]⟩

theorem seek_again_closedByItsOwn : ∃ t notes c stack,
    Tokenizer.loadWith Engine.standard.watch closedByItsOwn (.ofString "g.json") "s" [] = (.ok t, notes) ∧
      t.Comes c stack ∧ contest t.engine #['b', 'd', 'c', '\n'] stack 0 c =
        some ⟨⟨1, 2, []⟩, 0, ⟨2, 3, []⟩, true⟩ ∧
      outcome (seek t.engine #['b', 'd', 'c', '\n'] stack.top.rule stack.top.ending 0) c =
        outcome (seek t.engine #['b', 'd', 'c', '\n'] stack.top.rule stack.top.ending 1) c := by
  have hrun : Tokenizer.resultOf
      (Tokenizer.loadWith Engine.standard.watch closedByItsOwn (.ofString "g.json") "s" [])
      (contests #['a', '\n'] #['b', 'd', 'c', '\n'] 0 1) =
        some (some ⟨⟨1, 2, []⟩, 0, ⟨2, 3, []⟩, true⟩, some ⟨⟨1, 2, []⟩, 0, ⟨2, 3, []⟩, true⟩) := by
    decide +kernel
  obtain ⟨t, notes, ht, h⟩ := Tokenizer.resultOf_eq hrun
  obtain ⟨c, stack, hcomes, hfirst, hsecond⟩ := contests_eq h
  obtain ⟨he, -⟩ := Tokenizer.loadWith_knows ht
  have hs : t.engine.Sound := he ▸ Engine.standard.watch_sound
  obtain ⟨_, _, _, _, choice, ending, hform, hending, hrivals⟩ := rivals_of_contest hfirst
  obtain ⟨_, _, _, _, choice', ending', hform', hending', hrivals'⟩ := rivals_of_contest hsecond
  rw [hform] at hform'
  cases hform'
  rw [hending] at hending'
  cases hending'
  refine ⟨t, notes, c, stack, ht, hcomes, hfirst, ?_⟩
  rw [hending]
  refine (seek_again_iff hs hform (Nat.zero_le 1) hrivals hrivals').1.mpr ?_
  rintro ⟨-, -, x, hx, hstart⟩
  obtain ⟨candidate, -, rfl⟩ := Option.map_eq_some_iff.mp hx
  cases hstart

/-- On the line `bc` the end and the child both match at the second character, from wherever they are
searched; a search from the first character takes the child, one from the second takes the end. -/
theorem seek_again_tied : ∃ t notes c stack,
    Tokenizer.load closedByItsOwn (.ofString "g.json") "s" [] = (.ok t, notes) ∧ t.Comes c stack ∧
      contest t.engine #['b', 'c', '\n'] stack 0 c = some ⟨⟨1, 2, []⟩, 0, ⟨1, 2, []⟩, false⟩ ∧
      contest t.engine #['b', 'c', '\n'] stack 1 c = some ⟨⟨1, 2, []⟩, 0, ⟨1, 2, []⟩, true⟩ := by
  have hrun : Tokenizer.resultOf (Tokenizer.load closedByItsOwn (.ofString "g.json") "s" [])
      (contests #['a', '\n'] #['b', 'c', '\n'] 0 1) =
        some (some ⟨⟨1, 2, []⟩, 0, ⟨1, 2, []⟩, false⟩, some ⟨⟨1, 2, []⟩, 0, ⟨1, 2, []⟩, true⟩) := by
    decide +kernel
  obtain ⟨t, notes, ht, h⟩ := Tokenizer.resultOf_eq hrun
  obtain ⟨c, stack, hcomes, hfirst, hsecond⟩ := contests_eq h
  exact ⟨t, notes, c, stack, ht, hcomes, hfirst, hsecond⟩

end Highlighter.Grammar

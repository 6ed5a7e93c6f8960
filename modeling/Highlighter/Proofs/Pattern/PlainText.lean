import Highlighter.Pattern.Search
import Mathlib.Algebra.BigOperators.Group.List.Basic
import Mathlib.Data.List.SplitBy

/-! Texts without signs as patterns. Such a text is read as itself, its program compares its characters one
after the other, and a search with it answers with the first place where the text stands. -/

namespace Highlighter.Pattern

/-! ### Reading -/

namespace Parser

/-- The signs of the pattern dialect; any other character stands for itself. -/
def signs : List Char := ['\\', '.', '^', '$', '[', '(', ')', '|', '*', '+', '?', '{']

variable {c : Char} {cs : List Char} {α β : Type} {r r' : Reading} {a : α}

/-- A reader goes on from what a part of it has read. -/
theorem run_bind {x : Parser α} {f : α → Parser β} (h : x.run r = .ok (a, r')) :
    (x >>= f).run r = (f a).run r' := by
  rw [StateT.run_bind, h]
  rfl

theorem skipIgnored_plain {fuel : Nat} (h : c ∉ signs) :
    (skipIgnored {} fuel).run { rest := c :: cs } = .ok ((), { rest := c :: cs }) := by
  cases fuel with
  | zero => rfl
  | succ fuel =>
    unfold skipIgnored
    rw [run_bind rfl]
    dsimp only
    split
    · rename_i hrest
      obtain ⟨rfl, -⟩ := List.cons.inj hrest
      exact absurd (by decide) h
    · rfl
    · rfl
    · rfl

theorem repeatSign?_plain (h : c ∉ signs) : repeatSign? c = pure none := by
  unfold repeatSign?
  split
  case h_5 => rfl
  all_goals exact absurd (by decide) h

theorem token_plain (h : c ∉ signs) :
    (token {}).run { rest := c :: cs } = .ok (.char c.toNat, { rest := cs }) := by
  unfold token
  rw [run_bind rfl]
  dsimp only
  rw [run_bind rfl, run_bind (skipIgnored_plain h)]
  rw [run_bind (x := next?) rfl]
  dsimp only
  split
  case h_10 c heq =>
    cases heq
    rw [repeatSign?_plain h]
    rfl
  case h_1 heq => cases heq
  all_goals
    rename_i heq
    cases heq
    exact absurd (by decide) h

theorem token_nil : (token {}).run { rest := [] } = .ok (.stop, { rest := [] }) := rfl

theorem moreChars_plain {fuel : Nat} (h : ∀ x ∈ cs, x ∉ signs) (hfuel : cs.length < fuel) :
    (moreChars {} fuel (.char c.toNat)).run { rest := cs } =
      .ok ((c.toNat :: cs.map Char.toNat, .stop), { rest := [] }) := by
  induction cs generalizing c fuel with
  | nil =>
    obtain ⟨fuel, rfl⟩ := Nat.exists_eq_succ_of_ne_zero (Nat.ne_zero_of_lt hfuel)
    rw [moreChars, run_bind token_nil]
    cases fuel <;> rfl
  | cons d cs ih =>
    obtain ⟨fuel, rfl⟩ := Nat.exists_eq_succ_of_ne_zero (Nat.ne_zero_of_lt hfuel)
    rw [moreChars, run_bind (token_plain (h d List.mem_cons_self)),
      run_bind (ih (fun x hx => h x (List.mem_cons_of_mem d hx)) (Nat.lt_of_succ_lt_succ hfuel))]
    rfl

theorem atom_plain {fuel depth : Nat} (h : ∀ x ∈ cs, x ∉ signs) :
    (atom {} depth false false (fuel + 1) (.char c.toNat)).run { rest := cs } =
      .ok (([.text (c.toNat :: cs.map Char.toNat) false], .stop), { rest := [] }) := by
  have hchars : (moreChars {} (cs.length + 2) (.char c.toNat)).run { rest := cs } = _ :=
    moreChars_plain h (by omega)
  rw [atom]
  dsimp only
  rw [if_neg nofun, run_bind rfl]
  exact run_bind hchars

theorem pattern_plain {s : List Char} (h : ∀ x ∈ s, x ∉ signs) :
    pattern s = .ok (.text (s.map Char.toNat) false, { rest := [] }) := by
  cases s with
  | nil => rfl
  | cons c cs =>
    obtain ⟨hc, hcs⟩ := List.forall_mem_cons.mp h
    have hfuel : 8 * (c :: cs).length + 8 = (8 * cs.length + 12) + 4 := by
      rw [List.length_cons]
      omega
    have hways : (ways {} 1 false false (8 * cs.length + 12 + 3) (.char c.toNat)).run { rest := cs } =
        .ok ([.text (c.toNat :: cs.map Char.toNat) false], { rest := [] }) := by
      rw [ways, run_bind rfl, run_bind (atom_plain hcs)]
      rfl
    have hread : StateT.run
        (do alternatives {} 0 false false (8 * (c :: cs).length + 8) (← token {}) : Parser Node)
        { rest := c :: cs } = .ok (.text (c.toNat :: cs.map Char.toNat) false, { rest := [] }) := by
      rw [run_bind (token_plain hc), hfuel, alternatives, run_bind rfl, run_bind hways]
      rfl
    unfold pattern
    dsimp only
    rw [hread]
    rfl

end Parser

/-! ### Compiling -/

open Highlighter.Text (Bytes)

variable {source : String} {t : List Char} {text : Text}

/-- The outline of a text. -/
def textOutline (codes : List Nat) : Outline :=
  let chars := codes.map bytesOfCode
  { Outline.blank .zero with
    length := .exactly chars.flatten.length
    head := .ofChars .zero chars
    choice := { bytes := chars.flatten.take 1 } }

/-- What a text without signs is compiled to. -/
def plainRegex (source : String) : Regex :=
  let codes := source.toList.map Char.toNat
  { source
    program := {
      steps := (textSteps codes ++ [Step.finish]).toArray
      entries := Program.entriesFrom 0 (textSteps codes)
      groups := 0
      callouts := #[]
      keeps := false
      longest := false
      asciiFold := false
      foresight := (textOutline codes).foresight } }

theorem compile_plain (h : ∀ c ∈ source.toList, c ∉ Parser.signs) :
    compile source = .ok (plainRegex source) := by
  unfold compile
  rw [Parser.pattern_plain h]
  rfl

/-! ### Running -/

theorem drop_of_lt {place : Nat} (h : place < text.size) :
    text.toList.drop place = text[place] :: text.toList.drop (place + 1) := by
  rw [List.drop_eq_getElem_cons (by simpa using h), Array.getElem_toList]

theorem drop_of_le {place : Nat} (h : text.size ≤ place) : text.toList.drop place = [] :=
  List.drop_eq_nil_of_le (by simpa using h)

theorem readText_eq {chars : List Char} {place : Nat} :
    State.readText text text.size chars place =
      if chars <+: text.toList.drop place then some (place + chars.length) else none := by
  induction chars generalizing place with
  | nil => rw [State.readText, if_pos List.nil_prefix, List.length_nil, Nat.add_zero]
  | cons c chars ih =>
    rw [State.readText]
    by_cases h : place < text.size
    · rw [dif_pos h, drop_of_lt h, decide_eq_true h, Bool.true_and]
      by_cases hc : text[place] = c
      · rw [if_pos (beq_iff_eq.mpr hc), ih, hc, List.length_cons]
        simp only [List.cons_prefix_cons, true_and, Nat.add_assoc, Nat.add_comm 1]
      · rw [if_neg (mt beq_iff_eq.mp hc), if_neg]
        rw [List.cons_prefix_cons]
        exact fun hp => hc hp.1.symm
    · rw [dif_neg h, drop_of_le (Nat.le_of_not_lt h), if_neg (by simp)]

theorem append_prefix_drop {α : Type} {a b l : List α} {n : Nat} :
    a ++ b <+: l.drop n ↔ a <+: l.drop n ∧ b <+: l.drop (n + a.length) := by
  constructor
  · rintro ⟨rest, h⟩
    refine ⟨⟨b ++ rest, by rw [← h, List.append_assoc]⟩, rest, ?_⟩
    rw [← List.drop_drop, ← h, List.append_assoc, List.drop_left]
  · rintro ⟨⟨rest, h⟩, hb⟩
    rw [← List.drop_drop, ← h, List.drop_left] at hb
    rw [← h]
    exact (List.prefix_append_right_inj a).mpr hb

/-- A run that has remembered nothing to which it could go back. -/
structure State.Plain (s : State) (text : Text) : Prop where
  limit : s.limit = text.size
  trail : s.trail = []
  retries : s.retries = 0
  best : s.best = none

/-- Where nothing was remembered, a step that fails ends the run. -/
theorem State.Plain.run_back {setting : Setting} {start fuel : Nat} {s : State} (h : s.Plain setting.text)
    (hback : s.turn setting start (setting.program.steps.getD s.step .giveUp) = .back s) :
    State.run setting start (fuel + 2) s = .ok ⟨none, s.counters, s.skip⟩ := by
  have hend : setting.program.steps.getD setting.program.steps.size .giveUp = Step.giveUp := by
    simp [Array.getD_eq_getD_getElem?]
  rw [State.run, hback]
  simp only [h.trail, h.retries, State.goBack]
  rw [if_neg (by decide), State.run]
  simp only [hend, State.turn, State.longestFound, h.best]

/-- A run through texts that follow one another. -/
theorem run_texts {setting : Setting} {start fuel : Nat} {before runs : List (List Char)} {s : State}
    (hsteps : setting.program.steps = ((before ++ runs).map Step.text ++ [Step.finish]).toArray)
    (hlongest : setting.program.longest = false) (hfuel : runs.length < fuel)
    (hstep : s.step = before.length) (hs : s.Plain setting.text) :
    State.run setting start fuel s =
      .ok (if runs.flatten <+: setting.text.toList.drop s.place
        then s.found start (s.place + runs.flatten.length) [] s.captures
        else ⟨none, s.counters, s.skip⟩) := by
  induction runs generalizing before s fuel with
  | nil =>
    obtain ⟨fuel, rfl⟩ := Nat.exists_eq_succ_of_ne_zero (Nat.ne_zero_of_lt hfuel)
    have hfinish : setting.program.steps.getD s.step .giveUp = Step.finish := by
      simp [hsteps, hstep, Array.getD_eq_getD_getElem?]
    rw [State.run, hfinish]
    simp [State.turn, State.finish, hlongest, hs.trail]
  | cons r runs ih =>
    obtain ⟨fuel, rfl⟩ := Nat.exists_eq_succ_of_ne_zero (Nat.ne_zero_of_lt hfuel)
    have htext : setting.program.steps.getD s.step .giveUp = Step.text r := by
      simp [hsteps, hstep, Array.getD_eq_getD_getElem?]
    simp only [List.flatten_cons, append_prefix_drop]
    by_cases hr : r <+: setting.text.toList.drop s.place
    · rw [State.run, htext]
      simp only [State.turn, hs.limit, readText_eq]
      rw [if_pos hr]
      have hnext : (s.nextAt (s.place + r.length)).Plain setting.text :=
        ⟨hs.limit, hs.trail, hs.retries, hs.best⟩
      have hsteps' : setting.program.steps =
          (((before ++ [r]) ++ runs).map Step.text ++ [Step.finish]).toArray := by
        rw [hsteps, List.append_assoc, List.singleton_append]
      have hstep' : (s.nextAt (s.place + r.length)).step = (before ++ [r]).length := by
        simp [State.nextAt, hstep]
      dsimp only
      rw [ih hsteps' (Nat.lt_of_succ_lt_succ hfuel) hstep' hnext]
      simp only [hr, true_and, State.nextAt, List.length_append, Nat.add_assoc]
      rfl
    · obtain ⟨fuel, rfl⟩ := Nat.exists_eq_succ_of_ne_zero
        (Nat.ne_zero_of_lt (Nat.lt_of_succ_lt_succ hfuel))
      rw [if_neg (fun h => hr h.1)]
      refine hs.run_back ?_
      rw [htext]
      simp only [State.turn, hs.limit, readText_eq]
      rw [if_neg hr]

/-- The runs of characters of one size, of which the steps of a text are made. -/
def runsOf (t : List Char) : List (List Char) := t.splitBy fun a b => a.utf8Size == b.utf8Size

theorem textSteps_toNat : textSteps (t.map Char.toNat) = (runsOf t).map Step.text := by
  have hall : (t.map Char.toNat).all fun c => (Char.ofNat c).toNat == c := by
    simp [Char.ofNat_toNat]
  have hchars : (t.map Char.toNat).map Char.ofNat = t := by
    simp [Function.comp_def, Char.ofNat_toNat]
  rw [textSteps, if_pos hall, hchars, runsOf]

theorem flatten_runsOf : (runsOf t).flatten = t := List.flatten_splitBy ..

theorem length_runsOf : (runsOf t).length ≤ t.length := by
  have hsum : t.length = ((runsOf t).map List.length).sum := by
    rw [← List.length_flatten, flatten_runsOf]
  have hpos : ∀ n ∈ (runsOf t).map List.length, 1 ≤ n := by
    rintro n hn
    obtain ⟨r, hr, rfl⟩ := List.mem_map.mp hn
    exact List.length_pos_iff.mpr (List.ne_nil_of_mem_splitBy hr)
  have := List.length_le_sum_of_one_le _ hpos
  rwa [List.length_map, ← hsum] at this

/-- At a place the pattern matches exactly if the text stands there. -/
theorem runAt_plain {searchStart attempt position : Nat} {counters : Counters}
    (h : source.toList.length < stepLimit) :
    ∃ captures : Array Capture, captures.size = 1 ∧
    (plainRegex source).runAt text searchStart attempt position counters =
      .ok (if source.toList <+: text.toList.drop position
        then ⟨some (position, position + source.toList.length, captures), counters, 0⟩
        else ⟨none, counters, 0⟩) := by
  refine ⟨Array.replicate 1 {}, Array.size_replicate, ?_⟩
  unfold Regex.runAt Setting.runAt
  have hsteps : (plainRegex source).program.steps =
      (([] ++ runsOf source.toList).map Step.text ++ [Step.finish]).toArray := by
    simp [plainRegex, textSteps_toNat]
  rw [run_texts hsteps]
  · rw [flatten_runsOf]
    simp only [State.found, Trail.keptPlace?, Option.getD_none]
    rw [Nat.min_eq_right (Nat.le_add_right ..)]
    rfl
  · rfl
  · exact Nat.lt_of_le_of_lt length_runsOf h
  · rfl
  · exact ⟨rfl, rfl, rfl, rfl⟩

/-! ### Clues -/

theorem bytesOfCode_toNat (c : Char) : bytesOfCode c.toNat = Text.encodeChar c := by
  unfold bytesOfCode Text.encodeChar
  simp only [Nat.pow_eq, Nat.reducePow, Nat.pow_zero, Nat.div_one]

theorem dropChar?_append {bytes rest : Bytes} : Sign.dropChar? bytes (bytes ++ rest) = some rest := by
  induction bytes with
  | nil => cases rest <;> rfl
  | cons b bytes ih => rw [List.cons_append, Sign.dropChar?, if_pos (beq_self_eq_true b), ih]

theorem length_encodeChar_pos {c : Char} : 0 < (Text.encodeChar c).length := by
  unfold Text.encodeChar
  dsimp only
  split_ifs <;> simp

theorem lt_of_prefix_drop {c : Char} {place : Nat} (h : c :: t <+: text.toList.drop place) :
    ∃ hlt : place < text.size, text[place] = c ∧ t <+: text.toList.drop (place + 1) := by
  by_cases hlt : place < text.size
  · rw [drop_of_lt hlt, List.cons_prefix_cons] at h
    exact ⟨hlt, h.1.symm, h.2⟩
  · rw [drop_of_le (Nat.le_of_not_lt hlt)] at h
    cases List.prefix_nil.mp h

theorem bytesAt_of_stands {fuel place : Nat} (hfuel : t.length ≤ fuel) (h : t <+: text.toList.drop place) :
    Sign.bytesAt text fuel (t.flatMap Text.encodeChar) place = true := by
  induction t generalizing fuel place with
  | nil => rw [List.flatMap_nil, Sign.bytesAt]
  | cons c t ih =>
    obtain ⟨fuel, rfl⟩ := Nat.exists_eq_succ_of_ne_zero (Nat.ne_zero_of_lt hfuel)
    obtain ⟨hlt, hc, h⟩ := lt_of_prefix_drop h
    obtain ⟨b, bytes, hbytes⟩ := List.exists_cons_of_length_pos (length_encodeChar_pos (c := c))
    have hget : text[place]? = some c := by rw [Array.getElem?_eq_getElem hlt, hc]
    rw [List.flatMap_cons, hbytes, List.cons_append, Sign.bytesAt, hget]
    · dsimp only
      rw [← List.cons_append, ← hbytes, dropChar?_append]
      exact ih (Nat.le_of_succ_le_succ hfuel) h
    · nofun

theorem fitting_takes {room : Nat} {chars : List Bytes} : (Landmark.fitting room chars).1 <+: chars := by
  induction chars generalizing room with
  | nil => exact List.prefix_rfl
  | cons c chars ih =>
    rw [Landmark.fitting]
    split
    · exact (List.prefix_cons_inj c).mpr ih
    · exact List.nil_prefix

/-- A sign at the start of every match is near where it stands. -/
theorem isNear_of_stands {sign : Sign} {place : Nat} (hplace : place < text.size)
    (h : sign.standsAt text place = true) : Clue.isNear ⟨sign, .zero, false⟩ text place = true := by
  change Clue.isAhead ⟨sign, .zero, false⟩ text 1 place 0 = true
  have hdistance : (Clue.mk sign .zero false).distance = .zero := rfl
  rw [Clue.isAhead, dif_pos hplace, hdistance, if_neg (by decide), if_pos]
  simpa [Clue.standsAt, Distance.zero, Distance.exactly] using h

/-- The landmarks of a text. -/
def landmarkOf (t : List Char) : Landmark := .ofChars .zero (t.map Text.encodeChar)

theorem landmarkOf_bytes : ∃ u, u <+: t ∧ (landmarkOf t).bytes = u.flatMap Text.encodeChar := by
  have htakes : (Landmark.fitting Landmark.longest (t.map Text.encodeChar)).1 <+: t.map Text.encodeChar :=
    fitting_takes
  obtain ⟨u, hu, htaken⟩ := List.prefix_map_iff.mp htakes
  refine ⟨u, hu, ?_⟩
  rw [List.flatMap_def, ← htaken]
  rfl

theorem length_le_flatMap_encodeChar : t.length ≤ (t.flatMap Text.encodeChar).length := by
  induction t with
  | nil => exact Nat.le_refl 0
  | cons c t ih =>
    have := length_encodeChar_pos (c := c)
    rw [List.flatMap_cons, List.length_append, List.length_cons]
    omega

/-- A clue is the choice of bytes, or the better of two texts. -/
theorem Outline.clue?_cases {o : Outline} {clue : Clue} (h : o.clue? = some clue) :
    clue = o.choice.clue ∧ o.choice.bytes ≠ [] ∨ clue = (o.head.better o.inner).clue := by
  unfold Outline.clue? at h
  dsimp only at h
  split at h
  · split at h
    · cases h
    · rename_i hchoice
      exact .inl ⟨(Option.some.inj h).symm, by simpa [ByteChoice.isEmpty] using hchoice⟩
  · split at h
    · rename_i hchoice
      simp only [Bool.and_eq_true, Bool.not_eq_true'] at hchoice
      exact .inl ⟨(Option.some.inj h).symm, by simpa [ByteChoice.isEmpty] using hchoice.1⟩
    · exact .inr (Option.some.inj h).symm

theorem choice_stands {b : UInt8} {bytes : Bytes} {c : Char} {place : Nat} (hc : text[place]? = some c)
    (hb : Text.encodeChar c = b :: bytes) :
    (ByteChoice.clue { bytes := [b] }).sign.standsAt text place = true := by
  have hlt : b.toNat < 256 := b.toNat_lt
  change (text[place]?.any fun c => (Text.encodeChar c).head?.any fun b' =>
    ((List.range 256).map fun n => [b].contains n.toUInt8).toArray.getD b'.toNat false) = true
  rw [hc, Option.any_some, hb, List.head?_cons, Option.any_some, Array.getD_eq_getD_getElem?]
  simp [hlt]

/-- A clue to a text stands at the start of a match, wherever the text does. -/
theorem textOutline_clue {clue : Clue} (hclue : (textOutline (t.map Char.toNat)).clue? = some clue) :
    ∃ sign, clue = ⟨sign, .zero, false⟩ ∧
      ∀ (text : Text) place, t <+: text.toList.drop place → sign.standsAt text place = true := by
  have hchars : (t.map Char.toNat).map bytesOfCode = t.map Text.encodeChar := by
    simp [bytesOfCode_toNat]
  rcases Outline.clue?_cases hclue with ⟨rfl, hne⟩ | rfl
  · refine ⟨_, rfl, fun text place h => ?_⟩
    cases t with
    | nil => exact absurd rfl hne
    | cons c t =>
      obtain ⟨hlt, hc, -⟩ := lt_of_prefix_drop h
      obtain ⟨b, bytes, hb⟩ := List.exists_cons_of_length_pos (length_encodeChar_pos (c := c))
      have hchoice : (textOutline ((c :: t).map Char.toNat)).choice = { bytes := [b] } := by
        simp [textOutline, bytesOfCode_toNat, hb]
      rw [hchoice]
      exact choice_stands (by rw [Array.getElem?_eq_getElem hlt, hc]) hb
  · have hbetter : (textOutline (t.map Char.toNat)).head.better (textOutline (t.map Char.toNat)).inner =
        landmarkOf t := by
      simp only [textOutline, hchars]
      rfl
    obtain ⟨u, hu, hbytes⟩ := landmarkOf_bytes (t := t)
    refine ⟨.text (landmarkOf t).bytes, by rw [hbetter]; rfl, fun text place h => ?_⟩
    rw [hbytes]
    exact bytesAt_of_stands length_le_flatMap_encodeChar (hu.trans h)

/-! ### Searching -/

/-- A text stands in another one from a place on. -/
def Occurs (t : List Char) (text : Text) (place : Nat) : Prop :=
  place ≤ text.size ∧ t <+: text.toList.drop place

instance (t : List Char) (text : Text) (place : Nat) : Decidable (Occurs t text place) :=
  inferInstanceAs (Decidable (_ ∧ _))

/-- The first place from a position on where a text stands. -/
def firstPlace (t : List Char) (text : Text) (position : Nat) : Option Nat :=
  (List.range' position (text.size + 1 - position)).find? fun place => Occurs t text place

theorem firstPlace_eq_some {position place : Nat} : firstPlace t text position = some place ↔
    position ≤ place ∧ Occurs t text place ∧ ∀ q, position ≤ q → q < place → ¬ Occurs t text q := by
  unfold firstPlace
  rw [List.find?_range'_eq_some]
  simp only [decide_eq_true_eq, List.mem_range'_1, Bool.not_eq_true', decide_eq_false_iff_not]
  constructor
  · rintro ⟨ho, hmem, hfirst⟩
    exact ⟨hmem.1, ho, hfirst⟩
  · rintro ⟨hle, ho, hfirst⟩
    have := ho.1
    exact ⟨ho, ⟨hle, by omega⟩, hfirst⟩

theorem firstPlace_eq_none {position : Nat} : firstPlace t text position = none ↔
    ∀ q, position ≤ q → ¬ Occurs t text q := by
  unfold firstPlace
  rw [List.find?_range'_eq_none]
  simp only [Bool.not_eq_true', decide_eq_false_iff_not]
  constructor
  · intro hnone q hle ho
    have := ho.1
    exact hnone q hle (by omega) ho
  · intro hnone q hle _
    exact hnone q hle

theorem firstPlace_step {position : Nat} (h : position ≤ text.size) : firstPlace t text position =
    if Occurs t text position then some position else firstPlace t text (position + 1) := by
  have hsize : text.size + 1 - position = (text.size + 1 - (position + 1)) + 1 := by omega
  rw [firstPlace, hsize, List.range'_succ, List.find?_cons]
  by_cases ho : Occurs t text position
  · rw [if_pos ho, decide_eq_true ho]
  · rw [if_neg ho, decide_eq_false ho]
    rfl

theorem firstPlace_beyond {position : Nat} (h : text.size < position) : firstPlace t text position = none :=
  firstPlace_eq_none.mpr fun q hq ho => by have := ho.1; omega

theorem course_plain {start : Nat} :
    (plainRegex source).program.foresight.course text start =
      { clue := (textOutline (source.toList.map Char.toNat)).clue?, last := text.size } := by
  have hforesight : (plainRegex source).program.foresight =
      (textOutline (source.toList.map Char.toNat)).foresight := rfl
  rw [hforesight]
  have hedges : (textOutline (source.toList.map Char.toNat)).foresight.edges = [] := rfl
  have hclue? : (textOutline (source.toList.map Char.toNat)).foresight.clue =
      (textOutline (source.toList.map Char.toNat)).clue? := rfl
  unfold Foresight.course Foresight.courseTo
  simp only [hedges, hclue?, List.contains_nil, Bool.and_false, Bool.false_and, Foresight.isSettledAtOnce]
  split
  · rename_i hclue
    rw [hclue]
    rfl
  · rename_i clue hclue
    obtain ⟨sign, rfl, -⟩ := textOutline_clue hclue
    have hbounded : (Clue.mk sign .zero false).isBounded = true := rfl
    rw [if_pos hbounded, hclue]
    rfl

/-- A search tries every place where the text stands. -/
theorem admits_plain {start place : Nat} (h : Occurs source.toList text place) :
    ((plainRegex source).program.foresight.course text start).admits text start place = true := by
  rw [course_plain]
  unfold Course.admits
  cases hclue : (textOutline (source.toList.map Char.toNat)).clue? with
  | none => simpa using h.1
  | some clue =>
    obtain ⟨sign, rfl, hstands⟩ := textOutline_clue hclue
    obtain ⟨c, t, ht⟩ : ∃ c t, source.toList = c :: t := by
      cases ht : source.toList with
      | nil =>
        rw [ht] at hclue
        cases hclue
      | cons c t => exact ⟨c, t, rfl⟩
    have hlt := (lt_of_prefix_drop (ht ▸ h.2)).1
    have hnear := isNear_of_stands hlt (hstands text place h.2)
    simp [hnear, Nat.le_of_lt hlt]

theorem searchFrom_plain {start attempt position fuel : Nat} {counters : Counters}
    (h : source.toList.length < stepLimit) (hfuel : text.size < position + fuel) :
    (plainRegex source).searchFrom text start ((plainRegex source).program.foresight.course text start)
        fuel attempt position counters none =
      .ok ((firstPlace source.toList text position).map fun place =>
        ⟨place, place + source.toList.length, []⟩) := by
  induction fuel generalizing attempt position counters with
  | zero =>
    rw [Regex.searchFrom, firstPlace_beyond (by omega)]
    rfl
  | succ fuel ih =>
    have hlast : ((plainRegex source).program.foresight.course text start).last = text.size := by
      rw [course_plain]
    rw [Regex.searchFrom, hlast]
    by_cases hbeyond : text.size < position
    · rw [if_pos hbeyond, firstPlace_beyond hbeyond]
      rfl
    · rw [if_neg hbeyond, firstPlace_step (Nat.le_of_not_lt hbeyond)]
      obtain ⟨captures, hcaptures, hrun⟩ := @runAt_plain source text start attempt position counters h
      by_cases ho : Occurs source.toList text position
      · rw [if_neg (by simp [admits_plain ho]), hrun, if_pos ho.2, if_pos ho]
        simp only [Finding.match?, Option.map_some]
        have hgroups : captures.toList.tail = [] := by
          rw [← List.length_eq_zero_iff, List.length_tail, Array.length_toList, hcaptures]
        rw [hgroups]
        rfl
      · have hp : ¬ source.toList <+: text.toList.drop position :=
          fun hp => ho ⟨Nat.le_of_not_lt hbeyond, hp⟩
        rw [hrun, if_neg hp, if_neg ho]
        simp only [Finding.match?, Option.map_none, Nat.max_zero]
        split
        · exact ih (by omega)
        · exact ih (by omega)

/-- A text without signs, read as a pattern, finds that text. -/
theorem search_plain {start : Nat} (h : source.toList.length < stepLimit) :
    (plainRegex source).search text start =
      .ok ((firstPlace source.toList text start).map fun place =>
        ⟨place, place + source.toList.length, []⟩) := by
  unfold Regex.search
  dsimp only
  rw [if_pos (by rw [course_plain])]
  exact searchFrom_plain h (by omega)

end Highlighter.Pattern

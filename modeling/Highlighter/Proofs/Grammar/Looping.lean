import Highlighter.Proofs.Grammar.Census
import Highlighter.Proofs.Grammar.Replay
import Highlighter.Proofs.Grammar.Scopes

/-! Searches that never come to an end. At one position a frame of the stack is closed or opens another,
always in the same way. So a frame that was opened there and is closed there is opened again, and a rule
that opens frames there for the second time does so forever; otherwise the number of searches is bounded. -/

namespace Highlighter.Grammar

open Highlighter.Pattern (Match Regex Text)

variable {engine : Engine} {line : Text} {divide : Division} {c d : Compiler} {stack : Stack}
  {position fuel : Nat} {regions : List Region} {event : Event}

/-! ### What an event does to the stack -/

/-- What a search of a frame depends on. -/
abbrev Kind := Compiled × Option Regex

def Frame.kind (f : Frame) : Kind := (f.rule, f.ending)

/-- The frame that an event opens. -/
def Event.opens : Event → Option Kind
  | .ends _ _ => none
  | .starts _ target ending =>
    match target.form with
    | .patternsOnly _ | .single _ => none
    | .beginEnd _ _ _ _ _ | .beginWhile _ _ _ _ _ => some (target, ending)

/-- How the match of an event is divided. -/
def Event.captures : Event → Captures
  | .ends _ captures => captures
  | .starts _ target _ =>
    match target.form with
    | .patternsOnly _ => []
    | .single captures => captures
    | .beginEnd _ beginCaptures _ _ _ | .beginWhile _ beginCaptures _ _ _ => beginCaptures

theorem follow_captures (stack : Stack) : (stack.follow event).captures = event.captures := by
  cases event with
  | ends => rfl
  | starts m target ending => cases h : target.form <;> simp [Stack.follow, Event.captures, h]

theorem follow_opens (stack : Stack) {kind : Kind} (h : event.opens = some kind) :
    (stack.follow event).stack.below = stack.frames ∧
      (stack.follow event).stack.top.kind = kind := by
  cases event with
  | ends => cases h
  | starts m target ending =>
    cases hf : target.form <;> simp only [Event.opens, hf] at h <;> cases h <;>
      simp [Stack.follow, hf, Stack.push, Stack.pushWhile, Frame.kind]

/-- An event closes the frame on top, opens another, or leaves the stack as it was. -/
theorem follow_cases (stack : Stack) (event : Event) :
    (∃ m captures, event = .ends m captures) ∨ (∃ kind, event.opens = some kind) ∨
      (stack.follow event).stack = stack := by
  cases event with
  | ends m captures => exact .inl ⟨m, captures, rfl⟩
  | starts m target ending =>
    right
    cases h : target.form <;> simp [Event.opens, Stack.follow, h]

theorem mentions_captures {r : Rule} (h : mentions event.captures r) : mentions event r := by
  cases event with
  | ends m captures => exact h
  | starts m target ending =>
    obtain ⟨x, hx, hr⟩ := h
    refine .inr ⟨x, ?_, hr⟩
    cases hf : target.form <;> simp only [Event.captures, hf] at hx <;> simp_all [Form.captures]

theorem Stack.same_refl (s : Stack) : s.same s = true := by
  unfold Stack.same
  rw [beq_self_eq_true, beq_self_eq_true, Bool.true_and, Bool.and_true]
  induction s.frames with
  | nil => rfl
  | cons f fs ih =>
    rw [List.zip_cons_cons, List.all_cons, ih]
    simp [Frame.same]

theorem Stack.same_height {s t : Stack} (h : s.same t = true) : s.height = t.height := by
  simp only [Stack.same, Bool.and_eq_true, beq_iff_eq] at h
  exact h.1.1

/-! ### Turns that were taken before -/

/-- How the matches of a line are divided. -/
abbrev cutOf (engine : Engine) (divide : Division) (line : Text) : Cut :=
  divideMatch (addCapture engine divide line)

/-- A search of a frame comes to the event, and nothing is made ready for it that is not ready. -/
structure Turns (engine : Engine) (divide : Division) (line : Text) (c : Compiler) (position : Nat)
    (kind : Kind) (event : Event) : Prop where
  knows : c.Knows engine (mentions kind.1)
  seeks : Returns (seek engine line kind.1 kind.2 position) c (some event) c
  divides : ∀ scope, ∃ regions,
    Returns (cutOf engine divide line scope event.hit event.captures) c regions c

/-- What is assumed of the divisions that a line asks for. -/
structure Division.Steady (engine : Engine) (divide : Division) : Prop where
  lockstep : divide.Lockstep engine
  repeats : divide.Repeats engine divide
  onto : divide.Onto

theorem Cut.Onto.returns {cut : Cut} (hc : cut.Onto) {scope scope' : Scope} {m : Match}
    {captures : Captures} {regions : List Region} (h : Returns (cut scope m captures) c regions d) :
    ∃ regions', Returns (cut scope' m captures) c regions' d := by
  have hout : ∃ inner, Returns (cut [] m captures) c inner d := by
    have hscope := hc scope [] m captures
    rw [List.append_nil] at hscope
    rw [Returns, hscope, outcome_map] at h
    rcases hr : outcome (cut [] m captures) c with ⟨e | inner, c'⟩ <;> rw [hr] at h
    · cases h
    · cases h
      exact ⟨inner, hr⟩
  obtain ⟨inner, hinner⟩ := hout
  have hscope := hc scope' [] m captures
  rw [List.append_nil] at hscope
  refine ⟨inner.map (·.onto scope'), ?_⟩
  rw [Returns] at hinner ⊢
  rw [hscope, outcome_map, hinner]
  rfl

variable {kind kind' : Kind}

theorem Turns.grows (hd : divide.Steady engine) (h : Turns engine divide line c position kind event)
    (hg : c.Grows d) (hf : d.Faithful engine) : Turns engine divide line d position kind event := by
  have hrecalls : d.Recalls c := (Compiler.Recalls.refl d).of_grows hg
  have hknows : c.Knows engine (mentions event.captures) := by
    have hevent := ((seek_scripted.lockstep hd.lockstep).returns h.knows h.seeks).1
    exact hevent.mono fun r hr => .inr ⟨event, rfl, mentions_captures hr⟩
  refine ⟨⟨hf, fun r hr => (h.knows.met r hr).grows hg⟩, ?_, fun scope => ?_⟩
  · exact (seek_scripted.repeats hd.lockstep hd.repeats h.knows h.seeks).2 d hrecalls
  · obtain ⟨regions, hregions⟩ := h.divides scope
    have hagain := (divideMatch_scripted scope event.hit event.captures).repeats hd.lockstep hd.repeats
      hknows hregions
    exact ⟨regions, hagain.2 d hrecalls⟩

/-- What a turn leads to that changes position or stack. -/
theorem advance_turns (hd : divide.Steady engine) (hc : c.Knows engine (mentions stack))
    {next : Advance}
    (h : Returns (advance engine (cutOf engine divide line) line stack position) c (some next) d) :
    ∃ event, Turns engine divide line d position stack.top.kind event ∧
      (d.Knows engine (mentions next.stack) ∧ c.Grows d) ∧
      next.stack = (stack.follow event).stack ∧ next.position = event.hit.stop := by
  have hnext := ((advance_scripted divideMatch_scripted).lockstep hd.lockstep).returns hc h
  have hknows : c.Knows engine (mentions stack.top.rule) := hc.mono fun r hr => mentions_top hr
  obtain ⟨answered, c₁, hseek, rest⟩ := Returns.bind h
  cases answered with
  | none =>
    obtain ⟨he, -⟩ := Returns.pure rest
    cases he
  | some event =>
    obtain ⟨regions, c₂, hcut, rest⟩ := Returns.bind rest
    obtain ⟨he, rfl⟩ := Returns.pure rest
    cases he
    obtain ⟨hgrows, hagain⟩ := seek_scripted.repeats hd.lockstep hd.repeats hknows hseek
    have hevent := ((seek_scripted.lockstep hd.lockstep).returns hknows hseek).1
    have hcaptures : c₁.Knows engine (mentions event.captures) :=
      hevent.mono fun r hr => .inr ⟨event, rfl, mentions_captures hr⟩
    rw [follow_hit, follow_captures] at hcut
    obtain ⟨hgrows', hcuts⟩ := (divideMatch_scripted _ _ _).repeats hd.lockstep hd.repeats hcaptures hcut
    refine ⟨event, ⟨hnext.1.mono fun r hr => .inl (mentions_top hr), ?_, fun scope => ?_⟩,
      ⟨hnext.1.mono fun r hr => .inr ⟨_, rfl, hr⟩, hnext.2⟩, rfl, by rw [follow_hit]⟩
    · exact hagain c₂ ((Compiler.Recalls.refl c₂).of_grows hgrows')
    · exact (divideMatch_onto hd.onto).returns (hcuts c₂ (.refl c₂))

/-- A turn that was taken before is taken again by any stack with such a frame on top. -/
theorem Turns.advance (h : Turns engine divide line c position stack.top.kind event) :
    ∃ regions, Returns (advance engine (cutOf engine divide line) line stack position) c
      (some ⟨(stack.follow event).stack, event.hit.stop, regions⟩) c := by
  obtain ⟨regions, hcut⟩ := h.divides (stack.follow event).scope
  refine ⟨gap position event.hit.start stack.top.scope ++ regions, h.seeks.bind_intro ?_⟩
  rw [← follow_hit stack, ← follow_captures stack] at hcut
  rw [← follow_hit stack]
  exact hcut.bind_intro rfl

theorem searchLoop_turn (h : Turns engine divide line c position stack.top.kind event)
    (hp : event.hit.stop = position) (hh : (stack.follow event).stack.height ≠ stack.height) :
    ∃ regions', ∀ fuel,
      outcome (searchLoop engine (cutOf engine divide line) line (fuel + 1) stack position regions) c =
        outcome (searchLoop engine (cutOf engine divide line) line fuel (stack.follow event).stack
          position regions') c := by
  obtain ⟨found, hadvance⟩ := h.advance
  have hsame : (stack.follow event).stack.same stack = false := by
    cases hs : (stack.follow event).stack.same stack with
    | true => exact absurd (Stack.same_height hs) hh
    | false => rfl
  refine ⟨regions ++ found, fun fuel => ?_⟩
  rw [searchLoop, outcome_bind_ok hadvance]
  simp only [hsame, hp, Bool.and_false]
  rfl

/-! ### Going round at one position -/

/-- A frame of one kind opens one of another at a position, and the search stays there. -/
def Opens (engine : Engine) (divide : Division) (line : Text) (c : Compiler) (position : Nat)
    (kind kind' : Kind) : Prop :=
  ∃ event, Turns engine divide line c position kind event ∧ event.hit.stop = position ∧
    event.opens = some kind'

/-- A frame of a kind is closed at a position, and the search stays there. -/
def Closes (engine : Engine) (divide : Division) (line : Text) (c : Compiler) (position : Nat)
    (kind : Kind) : Prop :=
  ∃ m captures, Turns engine divide line c position kind (.ends m captures) ∧ m.stop = position

theorem Opens.grows (hd : divide.Steady engine) (h : Opens engine divide line c position kind kind')
    (hg : c.Grows d) (hf : d.Faithful engine) : Opens engine divide line d position kind kind' := by
  obtain ⟨event, hturn, hp, ho⟩ := h
  exact ⟨event, hturn.grows hd hg hf, hp, ho⟩

theorem Opens.turn (h : Opens engine divide line c position stack.top.kind kind) :
    ∃ stack' regions', stack'.below = stack.frames ∧ stack'.top.kind = kind ∧ ∀ fuel,
      outcome (searchLoop engine (cutOf engine divide line) line (fuel + 1) stack position regions) c =
        outcome (searchLoop engine (cutOf engine divide line) line fuel stack' position regions') c := by
  obtain ⟨event, hturn, hp, ho⟩ := h
  obtain ⟨hbelow, htop⟩ := follow_opens stack ho
  have hheight : (stack.follow event).stack.height ≠ stack.height := by
    simp [Stack.height, hbelow, Stack.frames]
  obtain ⟨regions', hout⟩ := searchLoop_turn hturn hp hheight
  exact ⟨_, regions', hbelow, htop, hout⟩

theorem Closes.turn {f : Frame} {rest : List Frame}
    (h : Closes engine divide line c position stack.top.kind) (hb : stack.below = f :: rest) :
    ∃ stack' regions', stack'.top = f ∧ ∀ fuel,
      outcome (searchLoop engine (cutOf engine divide line) line (fuel + 1) stack position regions) c =
        outcome (searchLoop engine (cutOf engine divide line) line fuel stack' position regions') c := by
  obtain ⟨m, captures, hturn, hp⟩ := h
  have hheight : (stack.follow (.ends m captures)).stack.height ≠ stack.height := by
    simp [Stack.follow, Stack.pop, Stack.height, hb]
  obtain ⟨regions', hout⟩ := searchLoop_turn hturn hp hheight
  exact ⟨_, regions', by simp [Stack.follow, Stack.pop, hb], hout⟩

/-- Kinds of frames that only open each other, or frames that are closed at once, are never left. -/
theorem endless_of_round {round : Kind → Prop}
    (h : ∀ k, round k → ∃ k', Opens engine divide line c position k k' ∧
      (round k' ∨ Closes engine divide line c position k'))
    (hs : round stack.top.kind) :
    (outcome (searchLoop engine (cutOf engine divide line) line fuel stack position regions) c).1 =
      .error .endless := by
  induction fuel using Nat.strongRecOn generalizing stack regions with
  | ind fuel ih =>
    obtain ⟨k', hopens, hnext⟩ := h _ hs
    obtain ⟨stack', regions', hbelow, htop, hout⟩ := hopens.turn
    cases fuel with
    | zero => rfl
    | succ fuel =>
      rw [hout]
      rcases hnext with hround | hcloses
      · exact ih fuel (Nat.lt_succ_self _) (htop ▸ hround)
      · rw [← htop] at hcloses
        obtain ⟨stack'', regions'', htop', hout'⟩ := hcloses.turn hbelow
        cases fuel with
        | zero => rfl
        | succ fuel =>
          rw [hout']
          exact ih fuel (by omega) (htop' ▸ hs)

theorem Opens.ready (h : Opens engine divide line c position kind kind') :
    ∃ id ∈ c.library.ids, c.compiled.lookup id = some kind'.1 := by
  obtain ⟨event, hturn, -, ho⟩ := h
  cases seek_sought hturn.seeks with
  | ends => cases ho
  | @starts choice index m candidate target closing offers hit taken ready begins =>
    obtain ⟨g, hg, -⟩ := hturn.knows.met candidate.rule
      (.inl ⟨choice, offers, candidate, List.mem_of_getElem? taken, rfl⟩)
    refine ⟨candidate.rule.id, hg.mem_ids, ?_⟩
    have htarget : kind' = (target, closing) := by
      simp only [Event.opens] at ho
      split at ho <;> cases ho <;> rfl
    rw [htarget]
    exact compileRule_lookup ready

/-- What a rule opens at a position does not depend on the frame that the rule has. -/
theorem Opens.unique {k k' : Kind} (h : Opens engine divide line c position kind k)
    (h' : Opens engine divide line c position kind' k') (hrule : kind.1 = kind'.1) : k = k' := by
  obtain ⟨event, hturn, -, ho⟩ := h
  obtain ⟨event', hturn', -, ho'⟩ := h'
  cases seek_sought hturn.seeks with
  | ends => cases ho
  | starts offers hit taken ready begins =>
    cases seek_sought hturn'.seeks with
    | ends => cases ho'
    | starts offers' hit' taken' ready' begins' =>
      rw [hrule] at offers
      obtain rfl := Option.some.inj (offers.symm.trans offers')
      obtain ⟨rfl, rfl⟩ := Prod.mk.inj (Option.some.inj (Except.ok.inj (hit.symm.trans hit')))
      obtain rfl := Option.some.inj (taken.symm.trans taken')
      obtain ⟨rfl, -⟩ := ready.unique ready'
      obtain ⟨he, -⟩ := begins.unique begins'
      cases he
      exact Option.some.inj (ho.symm.trans ho')

/-- Frames that opened each other at a position, the last one first, each with the id of the rule that it
opened; the kind is that of the frame on top of them. -/
inductive Climbs (engine : Engine) (divide : Division) (line : Text) (c : Compiler) (position : Nat) :
    List (RuleId × Kind) → Kind → Prop
  | start (kind : Kind) : Climbs engine divide line c position [] kind
  | opened {id : RuleId} {below : List (RuleId × Kind)} {kind kind' : Kind}
      (climbs : Climbs engine divide line c position below kind)
      (opens : Opens engine divide line c position kind kind')
      (ready : c.compiled.lookup id = some kind'.1) :
      Climbs engine divide line c position ((id, kind) :: below) kind'

variable {below : List (RuleId × Kind)} {id : RuleId}

theorem Climbs.grows (hd : divide.Steady engine) (h : Climbs engine divide line c position below kind)
    (hg : c.Grows d) (hf : d.Faithful engine) : Climbs engine divide line d position below kind := by
  induction h with
  | start kind => exact .start kind
  | opened _ opens ready ih => exact .opened ih (opens.grows hd hg hf) (hg.compiled _ _ ready)

theorem Climbs.rule (h : Climbs engine divide line c position below kind)
    (hid : id ∈ below.map (·.1)) :
    ∃ k ∈ kind :: below.map (·.2), c.compiled.lookup id = some k.1 := by
  induction h with
  | start kind => cases hid
  | opened climbs opens ready ih =>
    rcases List.mem_cons.mp hid with rfl | hid
    · exact ⟨_, List.mem_cons_self, ready⟩
    · obtain ⟨k, hk, hrule⟩ := ih hid
      exact ⟨k, List.mem_cons_of_mem _ hk, hrule⟩

theorem Climbs.next {k : Kind} (h : Climbs engine divide line c position below kind)
    (hk : k ∈ below.map (·.2)) :
    ∃ k' ∈ kind :: below.map (·.2), Opens engine divide line c position k k' := by
  induction h with
  | start kind => cases hk
  | opened climbs opens ready ih =>
    rcases List.mem_cons.mp hk with rfl | hk
    · exact ⟨_, List.mem_cons_self, opens⟩
    · obtain ⟨k', hk', hopens⟩ := ih hk
      exact ⟨k', List.mem_cons_of_mem _ hk', hopens⟩

/-- A frame of a rule that opened a frame before at the same position opens the same one, and so on. -/
theorem Climbs.round {k : Kind} (h : Climbs engine divide line c position ((id, k) :: below) kind)
    (hid : id ∈ below.map (·.1)) (ho : Opens engine divide line c position kind kind')
    (hs : stack.top.kind = kind') :
    (outcome (searchLoop engine (cutOf engine divide line) line fuel stack position regions) c).1 =
      .error .endless := by
  have hsame : ∃ k₁ ∈ k :: below.map (·.2), k₁.1 = kind.1 := by
    cases h with
    | opened climbs opens ready =>
      obtain ⟨k₁, hk₁, hrule⟩ := climbs.rule hid
      exact ⟨k₁, hk₁, Option.some.inj (hrule.symm.trans ready)⟩
  obtain ⟨k₁, hk₁, hrule⟩ := hsame
  obtain ⟨k₂, hk₂, hopens⟩ := h.next hk₁
  obtain rfl := hopens.unique ho hrule
  have hround (x : Kind) (hx : x ∈ kind :: k :: below.map (·.2)) :
      ∃ y, Opens engine divide line c position x y ∧
        (y ∈ kind :: k :: below.map (·.2) ∨ Closes engine divide line c position y) := by
    rcases List.mem_cons.mp hx with rfl | hx
    · exact ⟨k₂, ho, .inl hk₂⟩
    · obtain ⟨y, hy, hopens⟩ := h.next hx
      exact ⟨y, hopens, .inl hy⟩
  exact endless_of_round hround (hs ▸ hk₂)

/-! ### Searches of a line -/

/-- More searches than are left before one goes round. -/
def room (l : Library) (line : Text) (stack : Stack) (position opened : Nat) : Nat :=
  stack.height + 2 * (l.ruleCount + 2) * (line.size + 1 - position) + 2 * (l.ruleCount + 1 - opened)

/-- What is known of the frames that were opened at the position of a search. -/
structure Climbing (engine : Engine) (divide : Division) (line : Text) (c : Compiler) (position : Nat)
    (stack : Stack) (below : List (RuleId × Kind)) : Prop where
  knows : c.Knows engine (mentions stack)
  climbs : Climbs engine divide line c position below stack.top.kind
  frames : below.map (·.2) <+: stack.below.map Frame.kind
  ids : ∀ id ∈ below.map (·.1), id ∈ c.library.ids
  distinct : (below.map (·.1)).tail.Nodup

theorem Climbing.start (hc : c.Knows engine (mentions stack)) :
    Climbing engine divide line c position stack [] :=
  ⟨hc, .start _, List.nil_prefix, by simp, by simp⟩

theorem follow_height_le : (stack.follow event).stack.height ≤ stack.height + 1 := by
  rcases follow_cases stack event with ⟨m, captures, rfl⟩ | ⟨kind, ho⟩ | hsame
  · simp only [Stack.follow, Stack.pop, Stack.height]
    split <;> simp_all
  · simp [Stack.height, (follow_opens stack ho).1, Stack.frames]
  · rw [hsame]
    exact Nat.le_succ _

/-- Going on to a later position leaves less room, whatever is opened. -/
theorem room_moved {l : Library} {next : Stack} {later opened : Nat}
    (hh : next.height ≤ stack.height + 1) (hlt : position < later) (hle : later ≤ line.size) :
    room l line next later 0 < room l line stack position opened := by
  have hfar : 2 * (l.ruleCount + 2) * (line.size + 1 - later) + 2 * (l.ruleCount + 2) ≤
      2 * (l.ruleCount + 2) * (line.size + 1 - position) := by
    rw [← Nat.mul_succ]
    exact Nat.mul_le_mul_left _ (by omega)
  unfold room
  omega

/-- Whether a search goes round from a state on. -/
def GoesRound (engine : Engine) (divide : Division) (line : Text) (c : Compiler) (position : Nat)
    (stack : Stack) : Prop :=
  ∀ fuel regions, (outcome (searchLoop engine (cutOf engine divide line) line fuel stack position
    regions) c).1 = .error .endless

/-- A frame that is closed where it was opened is opened there again. -/
theorem Climbing.closes (hd : divide.Steady engine) {m : Match} {captures : Captures} {next : Stack}
    (h : Climbing engine divide line c position stack below)
    (hturn : Turns engine divide line d position stack.top.kind (.ends m captures))
    (hp : m.stop = position) (hknows : d.Knows engine (mentions next)) (hgrows : c.Grows d)
    (hnext : next = stack.pop) (hstop : next.same stack = false) :
    GoesRound engine divide line d position next ∨
      ∃ below', Climbing engine divide line d position next below' ∧
        room d.library line next position below'.length <
          room c.library line stack position below.length := by
  subst hnext
  cases hb : stack.below with
  | nil =>
    have hpop : stack.pop = stack := by simp [Stack.pop, hb]
    rw [hpop, Stack.same_refl] at hstop
    cases hstop
  | cons f rest =>
    have htop : stack.pop.top = f := by simp [Stack.pop, hb]
    have hheight : stack.pop.height + 1 = stack.height := by simp [Stack.pop, Stack.height, hb]
    cases below with
    | nil =>
      refine .inr ⟨[], .start hknows, ?_⟩
      rw [hgrows.library_eq]
      unfold room
      omega
    | cons e below =>
      have hkind : f.kind = e.2 := by
        have hframes := h.frames
        rw [hb, List.map_cons, List.map_cons, List.cons_prefix_cons] at hframes
        exact hframes.1.symm
      cases h.climbs.grows hd hgrows hknows.faithful with
      | opened climbs opens ready =>
        have hround (x : Kind) (hx : x = f.kind) : ∃ y, Opens engine divide line d position x y ∧
            (y = f.kind ∨ Closes engine divide line d position y) :=
          ⟨_, by rw [hx, hkind]; exact opens, .inr ⟨m, captures, hturn, hp⟩⟩
        exact .inl fun fuel regions => endless_of_round hround (by rw [htop])

/-- A rule that opens a frame where it opened one before does so forever. -/
theorem Climbing.opens (hd : divide.Steady engine) {next : Stack}
    (h : Climbing engine divide line c position stack below)
    (ho : Opens engine divide line d position stack.top.kind kind)
    (hknows : d.Knows engine (mentions next)) (hgrows : c.Grows d) (hbelow : next.below = stack.frames)
    (htop : next.top.kind = kind) :
    GoesRound engine divide line d position next ∨
      ∃ below', Climbing engine divide line d position next below' ∧
        room d.library line next position below'.length <
          room c.library line stack position below.length := by
  have hclimbs := h.climbs.grows hd hgrows hknows.faithful
  by_cases hnew : (below.map (·.1)).Nodup
  · obtain ⟨id, hid, hready⟩ := ho.ready
    have hids : ∀ x ∈ (id, stack.top.kind) :: below, x.1 ∈ d.library.ids := by
      intro x hx
      rcases List.mem_cons.mp hx with rfl | hx
      · exact hid
      · exact hgrows.library_eq ▸ h.ids _ (List.mem_map_of_mem hx)
    have hcount : below.length ≤ c.library.ruleCount := by
      have hle := hnew.length_le_of_subset h.ids
      rwa [List.length_map, Library.length_ids] at hle
    refine .inr ⟨(id, stack.top.kind) :: below,
      ⟨hknows, htop ▸ hclimbs.opened ho hready, ?_, ?_, hnew⟩, ?_⟩
    · rw [hbelow, Stack.frames, List.map_cons, List.map_cons]
      exact List.cons_prefix_cons.mpr ⟨rfl, h.frames⟩
    · intro id' hid'
      obtain ⟨x, hx, rfl⟩ := List.mem_map.mp hid'
      exact hids x hx
    · have hheight : next.height = stack.height + 1 := by simp [Stack.height, hbelow, Stack.frames]
      rw [hgrows.library_eq]
      simp only [room, hheight, List.length_cons]
      omega
  · cases below with
    | nil => exact absurd .nil hnew
    | cons e below =>
      have hmem : e.1 ∈ below.map (·.1) := by
        by_contra hnot
        exact hnew (List.nodup_cons.mpr ⟨hnot, h.distinct⟩)
      exact .inl fun fuel regions => hclimbs.round hmem ho htop

/-- A turn after which the search goes on leaves less room, unless the search goes round. -/
theorem Climbing.step (hs : engine.Sound) (hd : divide.Steady engine) {next : Advance}
    (h : Climbing engine divide line c position stack below)
    (ha : Returns (advance engine (cutOf engine divide line) line stack position) c (some next) d)
    (hstop : (next.position == position && next.stack.same stack) = false) :
    GoesRound engine divide line d next.position next.stack ∨
      ∃ below', Climbing engine divide line d next.position next.stack below' ∧
        room d.library line next.stack next.position below'.length <
          room c.library line stack position below.length := by
  obtain ⟨event, hturn, ⟨hknows, hgrows⟩, hstack, hposition⟩ := advance_turns hd h.knows ha
  have hlies := (seek_sought hturn.seeks).lies hs
  have hle : position ≤ next.position := by
    rw [hposition]
    exact Nat.le_trans hlies.from_le hlies.start_le
  rcases Nat.lt_or_eq_of_le hle with hlt | heq
  · refine .inr ⟨[], .start hknows, ?_⟩
    rw [hgrows.library_eq]
    exact room_moved (hstack ▸ follow_height_le) hlt (hposition ▸ hlies.stop_le)
  · have hp : event.hit.stop = position := by rw [← hposition, heq]
    rw [← heq] at hstop ⊢
    have hstop : next.stack.same stack = false := by simpa using hstop
    rcases follow_cases stack event with ⟨m, captures, rfl⟩ | ⟨kind, ho⟩ | hsame
    · exact h.closes hd hturn hp hknows hgrows hstack hstop
    · obtain ⟨hbelow, htop⟩ := follow_opens stack ho
      rw [← hstack] at hbelow htop
      exact h.opens hd ⟨event, hturn, hp, ho⟩ hknows hgrows hbelow htop
    · rw [hstack, hsame, Stack.same_refl] at hstop
      cases hstop

/-- Where so many searches do not come to an end that no room is left, none do. -/
theorem Climbing.goesRound (hs : engine.Sound) (hd : divide.Steady engine)
    (h : Climbing engine divide line c position stack below)
    (hroom : room c.library line stack position below.length < fuel)
    (hend : (outcome (searchLoop engine (cutOf engine divide line) line fuel stack position
      regions) c).1 = .error .endless) : GoesRound engine divide line c position stack := by
  induction fuel generalizing c stack position regions below with
  | zero => omega
  | succ fuel ih =>
    intro turns regions'
    cases turns with
    | zero => rfl
    | succ turns =>
      rw [searchLoop, outcome_bind] at hend ⊢
      rcases ha : outcome (advance engine (cutOf engine divide line) line stack position) c with
        ⟨e | _ | next, d⟩ <;> rw [ha] at hend
      · exact hend
      · cases hend
      · dsimp only at hend ⊢
        cases hstop : next.position == position && next.stack.same stack with
        | true =>
          rw [hstop] at hend
          cases hend
        | false =>
          rw [hstop] at hend
          simp only [Bool.false_eq_true, if_false] at hend ⊢
          rcases h.step hs hd ha hstop with hround | ⟨below', hnext, hless⟩
          · exact hround turns _
          · exact ih hnext (by omega) hend turns _

/-- Where the searches that are allowed for a line do not come to an end, no number of them does. -/
theorem searchLoop_goesRound (hs : engine.Sound) (hd : divide.Steady engine)
    (hc : c.Knows engine (mentions stack))
    (hend : (outcome (searchLoop engine (cutOf engine divide line) line
      (searchBound c.library stack line) stack position regions) c).1 = .error .endless) :
    GoesRound engine divide line c position stack := by
  refine (Climbing.start hc).goesRound hs hd ?_ hend
  have hfar : 2 * (c.library.ruleCount + 2) * (line.size + 1 - position) ≤
      2 * (c.library.ruleCount + 2) * (line.size + 1) := Nat.mul_le_mul_left _ (Nat.sub_le _ _)
  have hbound : 2 * (line.size + 2) * (c.library.ruleCount + 2) =
      2 * (c.library.ruleCount + 2) * (line.size + 1) + 2 * (c.library.ruleCount + 2) := by
    rw [← Nat.mul_succ, Nat.mul_right_comm]
  unfold searchBound room
  simp only [List.length_nil]
  omega

/-- More searches make no difference where fewer come to an end. -/
theorem searchLoop_mono {cut : Cut} {more : Nat} (hle : fuel ≤ more)
    (h : (outcome (searchLoop engine cut line fuel stack position regions) c).1 ≠ .error .endless) :
    outcome (searchLoop engine cut line more stack position regions) c =
      outcome (searchLoop engine cut line fuel stack position regions) c := by
  induction fuel generalizing c stack position regions more with
  | zero => exact absurd rfl h
  | succ fuel ih =>
    obtain ⟨more, rfl⟩ : ∃ n, more = n + 1 := ⟨more - 1, by omega⟩
    rw [searchLoop, outcome_bind] at h
    rw [searchLoop, searchLoop, outcome_bind, outcome_bind]
    rcases ha : outcome (advance engine cut line stack position) c with ⟨e | _ | next, d⟩
    · rfl
    · rfl
    · rw [ha] at h
      dsimp only at h ⊢
      split
      · rfl
      · rename_i hgo
        rw [if_neg hgo] at h
        exact ih (Nat.le_of_succ_le_succ hle) h

end Highlighter.Grammar

import Highlighter.Proofs.Grammar.BackReference
import Highlighter.Proofs.Grammar.Scopes

/-! Readings with a record. The reading of a text is written down move by move, each with the stack before and
after it and the regions it adds; but for the record nothing is done that is not done without it. -/

namespace Highlighter.Grammar

open Highlighter.Pattern (Match Regex Text)

/-- What the reading of a line does at a time. -/
inductive Deed where
  /-- The rules that the line must continue are matched against its start. -/
  | conditions
  | found (event : Event)
  /-- Nothing more is found, so that the rest of the line belongs to the rule on top. -/
  | rest

/-- A move of a reading: its line, and from where to where it leads. -/
structure Move where
  number : Nat
  line : Text
  before : Stack
  position : Nat
  deed : Deed
  regions : List Region
  after : Stack

/-- The tokens of a move: its regions, without the line feed at the end of the line. -/
def Move.tokens (x : Move) : List Token := x.regions.filterMap (tokenOf x.number (x.line.size - 1))

section
variable (engine : Engine)

/-- The search of a line, and where it ends. -/
def recordLoop (cut : Cut) (number : Nat) (line : Text) :
    Nat → Stack → Nat → Compile (Stack × Nat × List Move)
  | 0, _, _ => throw .endless
  | fuel + 1, stack, position => do
    match ← seek engine line stack.top.rule stack.top.ending position with
    | none => return (stack, position, [])
    | some event =>
      let found := stack.follow event
      let regions ← cut found.scope found.hit found.captures
      let move (after : Stack) : Move := ⟨number, line, stack, position, .found event,
        gap position found.hit.start stack.top.scope ++ regions, after⟩
      if found.hit.stop == position && found.stack.same stack then return (stack, position, [move stack])
      else
        let (last, stop, moves) ← recordLoop cut number line fuel found.stack found.hit.stop
        return (last, stop, move found.stack :: moves)

def recordSearch (allowed : Allowance) (cut : Cut) (number : Nat) (stack : Stack) (line : Text) :
    Compile (Stack × List Move) := do
  let start ← continueWhiles engine cut line stack stack.whiles [] 0 []
  let turns := allowed (← get).library start.stack line
  let (last, stop, moves) ← recordLoop engine cut number line turns start.stack start.position
  return (last, ⟨number, line, stack, 0, .conditions, start.regions, start.stack⟩ :: moves ++
    [⟨number, line, last, stop, .rest, gap stop line.size last.top.scope, last⟩])

/-- How the matches of a line are divided where captures within captures may go to a depth. -/
def cutAt (allowed : Allowance) (depth : Nat) (line : Text) : Cut :=
  divideMatch (addCapture engine (divideAlone (divideLine engine allowed depth)) line)

/-- The reading of a line. The captures of its matches are read on their own, by readings of their own. -/
def recordLine (allowed : Allowance) : Nat → Nat → Stack → Text → Compile (Stack × List Move)
  | 0, _, _, _ => throw .tooDeep
  | depth + 1, number, stack, line =>
    recordSearch engine allowed (cutAt engine allowed depth line) number stack line

def recordLines (allowed : Allowance) (depth : Nat) :
    Nat → Stack → List Text → Compile (Stack × List Move)
  | _, stack, [] => return (stack, [])
  | number, stack, line :: lines => do
    let (after, moves) ← recordLine engine allowed depth number stack line
    let (last, others) ← recordLines allowed depth (number + 1) after lines
    return (last, moves ++ others)

end

/-- The moves are those of the reading of lines from a stack on. -/
def Recorded (engine : Engine) (stack : Stack) (lines : List Text) (moves : List Move) : Prop :=
  ∃ depth c last d, Returns (recordLines engine searchBound depth 0 stack lines) c (last, moves) d

/-! ### The record changes nothing -/

section
variable {engine : Engine} {allowed : Allowance} {cut : Cut} {line : Text} {stack last : Stack}
  {position number depth : Nat} {moves : List Move} {c d : Compiler}

theorem Returns.of_map {ε σ α β : Type} {f : α → β} {x : ExceptT ε (StateM σ) α} {b : β} {s s' : σ}
    (h : Returns (f <$> x) s b s') : ∃ a, Returns x s a s' ∧ f a = b := by
  rw [map_eq_pure_bind] at h
  obtain ⟨a, s₁, ha, h⟩ := Returns.bind h
  obtain ⟨rfl, rfl⟩ := Returns.pure h
  exact ⟨a, ha, rfl⟩

theorem searchLoop_record (number : Nat) {fuel : Nat} {regions : List Region} :
    searchLoop engine cut line fuel stack position regions =
      (fun (last, stop, moves) => ⟨last, stop, regions ++ moves.flatMap Move.regions⟩) <$>
        recordLoop engine cut number line fuel stack position := by
  induction fuel generalizing stack position regions with
  | zero => simp [searchLoop, recordLoop]
  | succ fuel ih =>
    simp only [searchLoop, recordLoop, advance, bind_assoc, map_bind]
    refine bind_congr fun found => ?_
    cases found with
    | none => simp
    | some event =>
      simp only [bind_assoc, map_bind, pure_bind]
      refine bind_congr fun parts => ?_
      split
      · simp
      · rw [ih]
        simp

theorem searchLine_record (number : Nat) : searchLine engine allowed cut stack line =
    (fun (last, moves) => (last, moves.flatMap Move.regions)) <$>
      recordSearch engine allowed cut number stack line := by
  simp [searchLine, recordSearch, searchLoop_record number]

theorem divideLine_record (number : Nat) : divideLine engine allowed depth stack line =
    (fun (last, moves) => (last, moves.flatMap Move.regions)) <$>
      recordLine engine allowed depth number stack line := by
  cases depth with
  | zero => simp [divideLine, recordLine]
  | succ depth => exact searchLine_record number

/-! ### Moves -/

/-- The moves lead from one stack to another, each from where the one before leads. -/
def Chained : Stack → List Move → Stack → Prop
  | s, [], t => s = t
  | s, x :: moves, t => x.before = s ∧ Chained x.after moves t

/-- What a move does to the stack, and what regions it adds. -/
inductive Move.Made (engine : Engine) (cut : Text → Cut) : Move → Prop
  | conditions {number : Nat} {line : Text} {s t : Stack} {regions : List Region}
      (below : t.rising <+: s.rising) : Made engine cut ⟨number, line, s, 0, .conditions, regions, t⟩
  | found {number position : Nat} {line : Text} {s t : Stack} {event : Event} {parts : List Region}
      {c d e : Compiler}
      (finds : Returns (seek engine line s.top.rule s.top.ending position) c (some event) d)
      (divides : Returns (cut line (s.follow event).scope (s.follow event).hit (s.follow event).captures) d
        parts e)
      (leads : t = (s.follow event).stack ∨ t = s ∧ (s.follow event).stack.same s = true) :
      Made engine cut ⟨number, line, s, position, .found event,
        gap position (s.follow event).hit.start s.top.scope ++ parts, t⟩
  | rest {number position : Nat} {line : Text} {s : Stack} :
      Made engine cut ⟨number, line, s, position, .rest, gap position line.size s.top.scope, s⟩

theorem Chained.append {s t u : Stack} {more : List Move} (h : Chained s moves t) (hmore : Chained t more u) :
    Chained s (moves ++ more) u := by
  induction moves generalizing s with
  | nil => exact h ▸ hmore
  | cons x moves ih => exact ⟨h.1, ih h.2⟩

theorem Chained.split {s u : Stack} {more : List Move} (h : Chained s (moves ++ more) u) :
    ∃ t, Chained s moves t ∧ Chained t more u := by
  induction moves generalizing s with
  | nil => exact ⟨s, rfl, h⟩
  | cons x moves ih =>
    obtain ⟨t, ht, hmore⟩ := ih h.2
    exact ⟨t, ⟨h.1, ht⟩, hmore⟩

theorem recordLoop_made {cuts : Text → Cut} {fuel stop : Nat} {last : Stack}
    (h : Returns (recordLoop engine (cuts line) number line fuel stack position) c (last, stop, moves) d) :
    Chained stack moves last ∧ ∀ x ∈ moves, x.Made engine cuts ∧ x.number = number ∧ x.line = line := by
  induction fuel generalizing stack position moves c with
  | zero => exact absurd h Returns.throw
  | succ fuel ih =>
    obtain ⟨found, c₁, hseek, h⟩ := Returns.bind h
    cases found with
    | none =>
      obtain ⟨heq, -⟩ := Returns.pure h
      cases heq
      exact ⟨rfl, List.forall_mem_nil _⟩
    | some event =>
      obtain ⟨parts, c₂, hcut, h⟩ := Returns.bind h
      dsimp only at h
      split at h
      · rename_i hsame
        cases (Returns.pure h).1
        rw [Bool.and_eq_true] at hsame
        have hleads : last = (last.follow event).stack ∨
            last = last ∧ (last.follow event).stack.same last = true := .inr ⟨rfl, hsame.2⟩
        exact ⟨⟨rfl, rfl⟩, List.forall_mem_singleton.mpr ⟨.found hseek hcut hleads, rfl, rfl⟩⟩
      · obtain ⟨⟨last', stop', others⟩, c₃, hothers, h⟩ := Returns.bind h
        obtain ⟨heq, rfl⟩ := Returns.pure h
        cases heq
        obtain ⟨hpath, hmade⟩ := ih hothers
        exact ⟨⟨rfl, hpath⟩, List.forall_mem_cons.mpr ⟨⟨.found hseek hcut (.inl rfl), rfl, rfl⟩, hmade⟩⟩

theorem recordLine_made (h : Returns (recordLine engine allowed depth number stack line) c (last, moves) d) :
    Chained stack moves last ∧
      ∀ x ∈ moves, x.Made engine (cutAt engine allowed (depth - 1)) ∧ x.number = number ∧ x.line = line := by
  cases depth with
  | zero => exact absurd h Returns.throw
  | succ depth =>
    rw [recordLine, recordSearch] at h
    obtain ⟨start, c₁, hstart, h⟩ := Returns.bind h
    obtain ⟨_, c₂, -, h⟩ := Returns.bind h
    obtain ⟨⟨last', stop, turns⟩, c₃, hturns, h⟩ := Returns.bind h
    cases (Returns.pure h).1
    have hloop : Chained start.stack turns last ∧ ∀ x ∈ turns,
        x.Made engine (cutAt engine allowed depth) ∧ x.number = number ∧ x.line = line :=
      recordLoop_made hturns
    obtain ⟨hpath, hmade⟩ := hloop
    have hbelow := continueWhiles_below hstart
    refine ⟨⟨rfl, hpath.append ⟨rfl, rfl⟩⟩, List.forall_mem_cons.mpr ⟨⟨.conditions hbelow, rfl, rfl⟩, ?_⟩⟩
    exact List.forall_mem_append.mpr ⟨hmade, List.forall_mem_singleton.mpr ⟨.rest, rfl, rfl⟩⟩

theorem recordLines_made {lines : List Text}
    (h : Returns (recordLines engine allowed depth number stack lines) c (last, moves) d) :
    Chained stack moves last ∧ ∀ x ∈ moves, x.Made engine (cutAt engine allowed (depth - 1)) := by
  induction lines generalizing stack number moves c with
  | nil =>
    obtain ⟨heq, -⟩ := Returns.pure h
    cases heq
    exact ⟨rfl, List.forall_mem_nil _⟩
  | cons line lines ih =>
    obtain ⟨⟨after, first⟩, c₁, hfirst, h⟩ := Returns.bind h
    obtain ⟨⟨last', others⟩, c₂, hothers, h⟩ := Returns.bind h
    obtain ⟨heq, rfl⟩ := Returns.pure h
    cases heq
    obtain ⟨hpath, hmade⟩ := recordLine_made hfirst
    obtain ⟨hpath', hmade'⟩ := ih hothers
    exact ⟨hpath.append hpath', List.forall_mem_append.mpr ⟨fun x hx => (hmade x hx).1, hmade'⟩⟩

/-! ### Documents and the texts of captures -/

/-- The tokens of a document are those of the moves of its reading. -/
theorem tokenizeLines_recorded {lines : List Str} {tokens : List Token}
    (h : Returns (tokenizeLines (divideLine engine allowed depth) stack number lines) c tokens d) :
    ∃ (texts : List String) (last : Stack) (moves : List Move), lines = texts.map Str.ofString ∧
      Returns (recordLines engine allowed depth number stack (texts.map searched)) c (last, moves) d ∧
        tokens = moves.flatMap Move.tokens := by
  induction lines generalizing stack number tokens c with
  | nil =>
    obtain ⟨rfl, rfl⟩ := Returns.pure h
    exact ⟨[], stack, [], rfl, rfl, rfl⟩
  | cons line lines ih =>
    obtain ⟨text, after, regions, c₁, more, rfl, hline, hlines, rfl⟩ := tokenizeLines_cons h
    rw [divideLine_record number] at hline
    obtain ⟨⟨_, moves⟩, hmoves, heq⟩ := Returns.of_map hline
    cases heq
    obtain ⟨texts, last, others, rfl, hothers, rfl⟩ := ih hlines
    refine ⟨text :: texts, last, moves ++ others, rfl, .bind_intro hmoves (.bind_intro hothers rfl), ?_⟩
    rw [List.flatMap_append, List.filterMap_flatMap]
    congr 1
    refine List.flatMap_congr fun x hx => ?_
    obtain ⟨-, rfl, hx⟩ := (recordLine_made hmoves).2 x hx
    rw [Move.tokens, hx, size_searched, Nat.add_sub_cancel]

/-- The regions of a capture's text are those of the moves of its reading. -/
theorem divideAlone_recorded {text : Text} {scope : Scope} {rule : Compiled} {regions : List Region}
    (h : Returns (divideAlone (divideLine engine allowed depth) text scope rule) c regions d) :
    ∃ last moves,
      Returns (recordLines engine allowed depth 0 ⟨⟨scope ++ rule.name, rule, none⟩, [], []⟩ [text]) c
        (last, moves) d ∧ regions = moves.flatMap Move.regions := by
  obtain ⟨⟨last, found⟩, c₁, hline, h⟩ := Returns.bind h
  obtain ⟨rfl, rfl⟩ := Returns.pure h
  rw [divideLine_record 0] at hline
  obtain ⟨⟨_, moves⟩, hmoves, heq⟩ := Returns.of_map hline
  cases heq
  exact ⟨last, moves ++ [], .bind_intro hmoves (.bind_intro (a := (last, [])) rfl rfl), by simp⟩

end

end Highlighter.Grammar

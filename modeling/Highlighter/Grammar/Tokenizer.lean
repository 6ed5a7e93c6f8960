import Highlighter.Grammar.Basic
import Highlighter.Grammar.Region
import Highlighter.Text.Lines

/-! Dividing the lines of a document into regions. The rule on top of the stack is searched from a
position on; what it finds adds regions and moves the position, the stack or both. -/

namespace Highlighter.Grammar

open Highlighter.Pattern (Match Regex Text)

/-- What a search of a rule comes to: its own end, or the start of a rule that it offers, with the
pattern that closes or continues that rule. -/
inductive Event where
  | ends (hit : Match) (captures : Captures)
  | starts (hit : Match) (target : Compiled) (ending : Option Regex)

/-- What an event leads to: the match, the stack after it, and how the match is to be divided. -/
structure Found where
  hit : Match
  stack : Stack
  scope : Scope
  captures : Captures

/-- The rule on top is closed at its end; a rule that starts is opened if it can contain anything. -/
def Stack.follow (stack : Stack) : Event → Found
  | .ends m captures => ⟨m, stack.pop, stack.top.scope, captures⟩
  | .starts m target ending =>
    let scope := stack.top.scope ++ target.name
    match target.form with
    | .patternsOnly _ => ⟨m, stack, scope, []⟩
    | .single captures => ⟨m, stack, scope, captures⟩
    | .beginEnd contentName beginCaptures _ _ _ =>
      ⟨m, stack.push ⟨scope ++ contentName, target, ending⟩, scope, beginCaptures⟩
    | .beginWhile contentName beginCaptures _ _ _ =>
      ⟨m, stack.pushWhile ⟨scope ++ contentName, target, ending⟩, scope, beginCaptures⟩

/-- Divides a match of a line. -/
abbrev Cut := Scope → Match → Captures → Compile (List Region)

/-- What one turn of a search leads to: the stack after it, the position after it, and regions up to
there. -/
structure Advance where
  stack : Stack
  position : Nat
  regions : List Region

section
variable (engine : Engine)

/-- The filled template of a rule, read as a pattern. -/
def endingFor (m : Match) (line : Text) (template : Str) : Compile Regex := do
  match m.expand? line template with
  | some source => readPattern engine source
  | none => throw .noGroup

/-- Starts a rule at a match of its pattern. -/
def startRule (line : Text) (m : Match) (target : Compiled) : Compile Event := do
  match target.form with
  | .patternsOnly _ => throw .startedPatterns
  | .single _ => return .starts m target none
  | .beginEnd _ _ _ ending _ => return .starts m target (some (← endingFor engine m line ending))
  | .beginWhile _ _ _ condition _ =>
    return .starts m target (some (← endingFor engine m line condition))

/-- The leftmost match of a choice, with the rule it starts. -/
def findChoice (choice : Choice) (line : Text) (position : Nat) :
    Compile (Option (Rule × Match)) := do
  match ← answer (engine.searchAny choice.regexes line position) with
  | none => return none
  | some (index, m) => return (choice.candidates[index]?).map fun c => (c.rule, m)

def takeChoice (line : Text) (found : Option (Rule × Match)) : Compile (Option Event) := do
  match found with
  | none => return none
  | some (rule, m) => return some (← startRule engine line m (← compileRule engine rule))

/-- One search of a rule. One with an ending comes to its end where the ending matches at the position
itself, or further to the left than any of its patterns. -/
def seek (line : Text) (rule : Compiled) (ending : Option Regex) (position : Nat) :
    Compile (Option Event) := do
  match rule.form with
  | .single _ => throw .searchedSingle
  | .patternsOnly choice | .beginWhile _ _ _ _ choice =>
    takeChoice engine line (← findChoice engine choice line position)
  | .beginEnd _ _ endCaptures _ choice =>
    match ending with
    | none => throw .noEnding
    | some ending =>
      match ← answer (engine.search ending line position) with
      | none => takeChoice engine line (← findChoice engine choice line position)
      | some m =>
        if m.start == position then return some (.ends m endCaptures)
        else
          match ← findChoice engine choice line position with
          | none => return some (.ends m endCaptures)
          | some (rule, inner) =>
            if m.start < inner.start then return some (.ends m endCaptures)
            else takeChoice engine line (some (rule, inner))

/-- One turn: the rule on top is searched, what is found is divided, and what lies before it belongs to
the rule on top. -/
def advance (cut : Cut) (line : Text) (stack : Stack) (position : Nat) :
    Compile (Option Advance) := do
  match ← seek engine line stack.top.rule stack.top.ending position with
  | none => return none
  | some event =>
    let found := stack.follow event
    let regions ← cut found.scope found.hit found.captures
    return some
      ⟨found.stack, found.hit.stop, gap position found.hit.start stack.top.scope ++ regions⟩

/-- The rules that a new line must continue, from the bottom up: the first whose condition fails at
the position is closed with everything above it. `done` holds those that were continued. -/
def continueWhiles (cut : Cut) (line : Text) (stack : Stack) :
    List (Compiled × Nat) → List (Compiled × Nat) → Nat → List Region → Compile Advance
  | [], _, position, regions => return ⟨stack, position, regions⟩
  | (rule, height) :: rest, done, position, regions => do
    let part := stack.lowest height
    match part.top.ending, rule.form with
    | some condition, .beginWhile _ _ whileCaptures _ _ =>
      match ← answer (engine.matchAt condition line position) with
      | none => return ⟨{ part.pop with whiles := done }, position, regions⟩
      | some m =>
        let found ← cut part.top.scope m whileCaptures
        continueWhiles cut line stack rest (done ++ [(rule, height)]) m.stop (regions ++ found)
    | _, _ => throw .noEnding

/-- Searches until nothing is found, or until a search changes neither position nor stack. -/
def searchLoop (cut : Cut) (line : Text) : Nat → Stack → Nat → List Region → Compile Advance
  | 0, _, _, _ => throw .endless
  | fuel + 1, stack, position, regions => do
    match ← advance engine cut line stack position with
    | none => return ⟨stack, position, regions⟩
    | some next =>
      let regions := regions ++ next.regions
      if next.position == position && next.stack.same stack then
        return ⟨stack, position, regions⟩
      else searchLoop cut line fuel next.stack next.position regions

/-- How many searches a line may take that is gone through from a stack on. -/
abbrev Allowance := Library → Stack → Text → Nat

/-- More searches than a line can take that is ever finished: at one position each frame of the stack
can be closed once and each rule opened once, unless the same stack comes back there. -/
def searchBound : Allowance := fun l stack line =>
  stack.height + 2 * (line.size + 2) * (l.ruleCount + 2)

/-- Divides one line, given how its matches are divided. -/
def searchLine (allowed : Allowance) (cut : Cut) (stack : Stack) (line : Text) :
    Compile (Stack × List Region) := do
  let start ← continueWhiles engine cut line stack stack.whiles [] 0 []
  let turns := allowed (← get).library start.stack line
  let final ← searchLoop engine cut line turns start.stack start.position start.regions
  return (final.stack, final.regions ++ gap final.position line.size final.stack.top.scope)

/-- Divides a text as a line of its own under a rule, given how lines are divided. -/
def divideAlone (divide : Stack → Text → Compile (Stack × List Region)) : Division :=
  fun text scope rule => do
    return (← divide { top := ⟨scope ++ rule.name, rule, none⟩ } text).2

/-- Divides one line; each line takes as many searches as are allowed for it, and captures within
captures go to the given depth. -/
def divideLine (allowed : Allowance) : Nat → Stack → Text → Compile (Stack × List Region)
  | 0, _, _ => throw .tooDeep
  | depth + 1, stack, line =>
    searchLine engine allowed
      (divideMatch (addCapture engine (divideAlone (divideLine allowed depth)) line)) stack line

end

/-- How deep captures may go within captures. The number stands for the call stack, which the levels use up: it is
what was seen of one machine, and no proof depends on it. -/
def captureDepth : Nat := 160

/-- The part of a region before the line's end, where there is one. -/
def tokenOf (lineNumber length : Nat) (r : Region) : Option Token :=
  if r.start < min r.stop length then
    some ⟨lineNumber, r.start, (min r.stop length : Nat), r.scope⟩
  else none

/-- A line as it is searched, with a line feed at its end. -/
def searched (line : String) : Text := line.toList.toArray.push '\n'

/-- Tokens of the lines from one on, given how a line is divided. Only what can be written in bytes is searched. -/
def tokenizeLines (divide : Stack → Text → Compile (Stack × List Region)) (stack : Stack)
    (lineNumber : Nat) : List Str → ExceptT (Failure × Nat) (StateM Compiler) (List Token)
  | [] => return []
  | line :: rest =>
    match line.text? with
    | none => throw (.unencodable, lineNumber)
    | some text => do
      let (after, regions) ← ExceptT.adapt (·, lineNumber) (divide stack (searched text))
      let tokens := regions.filterMap (tokenOf lineNumber text.length)
      return tokens ++ (← tokenizeLines divide after (lineNumber + 1) rest)

end Highlighter.Grammar

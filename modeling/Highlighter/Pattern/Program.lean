import Highlighter.Pattern.Foresight
import Highlighter.Pattern.Tuning

/-! Programs that match. A program is a sequence of steps, of which some say where to go on; places are
given by their distance from the step itself. -/

namespace Highlighter.Pattern

open Highlighter.Unicode (CodeTable)

inductive Step where
  | text (chars : List Char)
  | set (table : CodeTable)
  | word (negated ascii : Bool)
  | any (lineFeed : Bool)
  /-- As many characters as there are, one after the other, each of which may be given back. -/
  | anyMany (lineFeed : Bool)
  | anchor (a : Anchor)
  | backref (r : Reference)
  | isSet (r : Reference)
  | jump (offset : Int)
  /-- Goes on, with another way at the offset. -/
  | split (offset : Int)
  /-- The same with a way that no cut takes away. -/
  | splitLasting (offset : Int)
  /-- Takes away what was remembered last. -/
  | pop
  | fail
  | mark (id : Nat)
  /-- Takes away the ways since a mark; with `back`, goes back to the place of the mark. -/
  | cut (id : Nat) (back : Bool)
  /-- Takes back everything since a mark. -/
  | undo (id : Nat)
  /-- Begins a counted repetition, whose end lies at the offset. -/
  | countStart (id : Nat) (r : Repetition) (offset : Int)
  /-- Ends a round of it, whose beginning lies at the offset. -/
  | countNext (id : Nat) (r : Repetition) (offset : Int)
  | roundStart (id : Nat)
  /-- Ends a round that may have read nothing; then the next step is left out. -/
  | roundEnd (id : Nat) (emptiness : Emptiness) (watched : List Nat)
  | groupStart (n : Nat) (restored : Bool)
  | groupEnd (n : Nat) (restored recursive : Bool)
  /-- Runs a group that lies elsewhere. -/
  | call (n : Nat)
  /-- Runs the group whose body begins after the next step. -/
  | callHere (n : Nat)
  | return
  /-- Steps back so many characters, and with `more` up to so many further ones. -/
  | stepBack (count : Nat) (more : Option (Option Nat))
  | stepBackMore
  /-- The limit of reading becomes this place. -/
  | limitHere
  | atLimit
  | record (b : Bookkeeping)
  /-- Restores a limit and forgets it. -/
  | forgetLimit (slot : Nat)
  | callout (index : Nat)
  | keep
  | finish
  /-- Ends the run without a match at this place. -/
  | giveUp
  deriving Inhabited

structure Program where
  steps : Array Step
  /-- Where the groups begin that are called. -/
  entries : List (Nat × Nat)
  groups : Nat
  callouts : Array Callout
  /-- Whether the match may be told to begin elsewhere. -/
  keeps : Bool
  longest : Bool
  asciiFold : Bool
  foresight : Foresight
  deriving Inhabited

namespace Program

/-- Where called groups begin: two steps after the step that calls them in their place. -/
def entriesFrom : Nat → List Step → List (Nat × Nat)
  | _, [] => []
  | i, .callHere n :: rest => (n, i + 2) :: entriesFrom (i + 1) rest
  | i, _ :: rest => entriesFrom (i + 1) rest

end Program

/-! ### From parts to steps -/

/-- What is known of the groups of a pattern. -/
structure GroupCare where
  called : List Nat
  recursive : List Nat
  restoredStarts : List Nat
  restoredEnds : List Nat

/-- New numbers for marks and repetitions. -/
abbrev Assembler := StateM Nat

def newId : Assembler Nat := modifyGet fun n => (n, n + 1)

/-- The same steps, so many times over. -/
def copies (steps : List Step) : Nat → List Step
  | 0 => []
  | n + 1 => steps ++ copies steps n

/-- So many rounds that may be left out, each after the one before; all lead to the same end. -/
def optionalRounds (steps : List Step) : Nat → List Step
  | 0 => []
  | n + 1 => .split ((n + 1) * (steps.length + 1)) :: steps ++ optionalRounds steps n

/-- The longest part, in steps, that is written out several times. -/
def expansionLimit : Nat := 10

/-- The runs of characters that take the same number of bytes. -/
def textSteps (codes : List Nat) : List Step :=
  if codes.all fun c => (Char.ofNat c).toNat == c then
    ((codes.map Char.ofNat).splitBy fun a b => a.utf8Size == b.utf8Size).map .text
  else [.fail]

/-- A round, and the end of it where it may read nothing. -/
def guardedRound (r : Repetition) (steps : List Step) : Assembler (List Step) := do
  if r.emptiness == .never then return steps
  else
    let id ← newId
    return .roundStart id :: steps ++ [.roundEnd id r.emptiness r.watched]

def isAnyMany (r : Repetition) : Node → Option Bool
  | .any lineFeed => if r.greedy && r.high == none then some lineFeed else none
  | _ => none

/-- Whether a part holds one of the groups. -/
def Node.holdsGroup (groups : List Nat) (n : Node) : Bool :=
  n.groups.any fun g => groups.contains g.1

/-- A repetition of a part with these steps. Few rounds are written out, many are counted. -/
def assembleLoop (care : GroupCare) (r : Repetition) (body : Node) (steps : List Step) :
    Assembler (List Step) := do
  let few := r.low ≤ 1 || steps.length * r.low ≤ expansionLimit
  if steps.isEmpty then return []
  match r.high with
  | none =>
    if few then
      if let some lineFeed := isAnyMany r body then
        return copies steps r.low ++ [.anyMany lineFeed]
      let first := if r.low == 1 && expansionLimit < steps.length then [.jump 2]
        else copies steps r.low
      let round ← guardedRound r steps
      let n : Int := round.length
      if r.greedy then return first ++ .split (n + 2) :: round ++ [.jump (-(n + 1))]
      else return first ++ .jump (n + 1) :: round ++ [.split (-n)]
    else counted
  | some high =>
    if high == 0 then
      if body.holdsGroup care.called then return .jump (steps.length + 1) :: steps
      else return []
    else if r.greedy && (high == 1 || (steps.length + 1) * high ≤ expansionLimit) then
      return copies steps r.low ++ optionalRounds steps (high - r.low)
    else if !r.greedy && high == 1 && r.low == 0 then
      return .split 2 :: .jump (steps.length + 1) :: steps
    else counted
where
  counted : Assembler (List Step) := do
    let id ← newId
    let round ← guardedRound r steps
    let n : Int := round.length
    return .countStart id r (n + 2) :: round ++ [.countNext id r (-n)]

/-- The steps of a part. -/
def Node.assemble (care : GroupCare) : Node → Assembler (List Step)
  | .text codes _ => return textSteps codes
  | .set codes => return [.set (.ofSet codes)]
  | .word negated ascii => return [.word negated ascii]
  | .any lineFeed => return [.any lineFeed]
  | .anchor a => return [.anchor a]
  | .backref r => return [.backref r]
  | .isSet r => return [.isSet r]
  | .loop r body => do
    assembleLoop care r body (← body.assemble care)
  | .group n _ body => do
    let steps ← body.assemble care
    let restored := care.restoredStarts.contains n
    let inner := if n == 0 then steps
      else .groupStart n restored :: steps ++
        [.groupEnd n (care.restoredEnds.contains n) (care.recursive.contains n)]
    if care.called.contains n then
      return .callHere n :: .jump (inner.length + 2) :: inner ++ [.return]
    else return inner
  | .scoped _ body => body.assemble care
  | .atomic true (.loop r step) => do
    let steps ← step.assemble care
    let n : Int := steps.length
    return copies steps r.low ++ .split (n + 3) :: steps ++ [.pop, .jump (-(n + 2))]
  | .atomic _ body => do
    let id ← newId
    return .mark id :: (← body.assemble care) ++ [.cut id false]
  | .choose test yes no => do
    let id ← newId
    let test ← test.assemble care
    let yes ← yes.assemble care
    let no ← no.assemble care
    return .mark id :: .split (test.length + yes.length + 3) :: test ++ .cut id false :: yes ++
      .jump (no.length + 2) :: .cut id false :: no
  | .ahead false body => do
    let id ← newId
    return .mark id :: (← body.assemble care) ++ [.cut id true]
  | .ahead true body => do
    let id ← newId
    let steps ← body.assemble care
    return .split (steps.length + 5) :: .mark id :: steps ++ [.undo id, .pop, .fail]
  | .behind false low high body => do
    let id ← newId
    let steps ← body.assemble care
    if high == some low then return .mark id :: .stepBack low none :: steps ++ [.cut id false]
    else
      let slot ← newId
      return [.record (.saveLimit slot), .limitHere, .mark id, .split 2, .jump 3,
        .record (.restoreLimit slot), .fail, .stepBack low (some (high.map (· - low))),
        .stepBackMore] ++ steps ++ [.atLimit, .cut id false, .forgetLimit slot]
  | .behind true low high body => do
    let id ← newId
    let steps ← body.assemble care
    if high == some low then
      return .split (steps.length + 6) :: .mark id :: .stepBack low none :: steps ++
        [.undo id, .pop, .fail]
    else
      let slot ← newId
      return [.record (.saveLimit slot), .limitHere, .mark id, .split (steps.length + 8),
        .stepBack low (some (high.map (· - low))), .stepBackMore] ++ steps ++
        [.atLimit, .undo id, .record (.restoreLimit slot), .pop, .fail,
          .record (.restoreLimit slot), .pop, .pop]
  | .seq first rest => return (← first.assemble care) ++ (← rest.assemble care)
  | .alt first rest lasting => do
    let first ← first.assemble care
    let rest ← rest.assemble care
    let offset : Int := first.length + 2
    return (if lasting then .splitLasting offset else .split offset) :: first ++
      .jump (rest.length + 1) :: rest
  | .call _ => return [.fail]
  | .enter n _ => return [.call n]
  | .callout index => return [.callout index]
  | .record b => return [.record b]
  | .fail => return [.fail]
  | .keep => return [.keep]

namespace Node

/-- Whether a match may be told to begin at some part. -/
def hasKeep : Node → Bool
  | .keep => true
  | .loop _ body => body.hasKeep
  | .group _ _ body => body.hasKeep
  | .scoped _ body => body.hasKeep
  | .atomic _ body => body.hasKeep
  | .choose test yes no => test.hasKeep || yes.hasKeep || no.hasKeep
  | .ahead _ body => body.hasKeep
  | .behind _ _ _ body => body.hasKeep
  | .seq first rest => first.hasKeep || rest.hasKeep
  | .alt first rest _ => first.hasKeep || rest.hasKeep
  | _ => false

end Node

/-- A pattern text that was accepted. -/
structure Regex where
  source : String
  program : Program
  deriving Inhabited

def Regex.groups (r : Regex) : Nat := r.program.groups

/-- Reads a pattern text. -/
def compile (source : String) : Except PatternError Regex := do
  let (node, reading) ← Parser.pattern source.toList
  let (node, groups) ← settleGroups node { count := reading.groups, names := reading.names }
  let whole := reading.whole.getD {}
  let tuned ← tunePattern node whole.asciiFold (!reading.callouts.isEmpty)
  let care : GroupCare :=
    { called := tuned.facts.called
      recursive := tuned.facts.recursive
      restoredStarts := tuned.restoredStarts
      restoredEnds := tuned.restoredEnds }
  let (steps, _) := (tuned.node.assemble care).run reading.slots
  let outline := Outline.ofPattern tuned.node tuned.node.groups tuned.facts.referred
  return {
    source
    program := {
      steps := (steps ++ [Step.finish]).toArray
      entries := Program.entriesFrom 0 steps
      groups := groups.count
      callouts := reading.callouts.toArray
      keeps := tuned.node.hasKeep
      longest := whole.longest
      asciiFold := whole.asciiFold
      foresight := outline.foresight } }

end Highlighter.Pattern

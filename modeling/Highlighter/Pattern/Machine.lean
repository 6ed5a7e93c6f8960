import Highlighter.Pattern.Reread
import Highlighter.Unicode.Segment

/-! Running a program on a text. A run goes forward step by step; where a step fails, it goes back along
the trail to the last way that is still open. -/

namespace Highlighter.Pattern

/-- What a run works on: the program, the text, where the search began, and which attempt of the search
this is. -/
structure Setting where
  program : Program
  text : Text
  searchStart : Nat
  attempt : Nat

/-- Where a run has come to. -/
structure State where
  step : Nat
  place : Nat
  /-- Up to here text is read. Going back does not restore it. -/
  limit : Nat
  captures : Array Capture
  trail : Trail
  /-- How many calls are not over. -/
  depth : Nat
  /-- How often one may still step back. -/
  owed : Option Nat
  retries : Nat
  counters : Counters
  /-- No match begins before this place. -/
  skip : Nat
  /-- The longest match found so far. -/
  best : Option (Nat × Trail × Array Capture)

/-- What one step leads to. -/
inductive Turn where
  | on (s : State)
  | back (s : State)
  /-- All ways are given up. -/
  | stop (s : State)
  | done (s : State)
  | fault (e : PatternError)

/-- The greatest number of calls within one another. -/
def callDepthLimit : Nat := 24

/-- How often a run may go back. -/
def retryLimit : Nat := 10000000

/-- The number of steps after which a run is given up at any rate. -/
def stepLimit : Nat := 100000000000

/-! ### Places -/

def isLineFeedAt (text : Text) (i : Nat) : Bool := text[i]? == some '\n'

/-- Raised digits and fractions that take part in words, though they are in no class of word
characters. -/
def raisedDigits : List Char := ['²', '³', '¹', '¼', '½', '¾']

def isWordChar (ascii : Bool) (c : Char) : Bool :=
  if ascii then c.isAlphanum || c == '_' else Unicode.isWord c || raisedDigits.contains c

def isWordAt (text : Text) (ascii : Bool) (i : Nat) : Bool := text[i]?.any (isWordChar ascii)

/-- Whether a word begins or ends at a place. At the start of the text no word begins beyond the limit. -/
def atWordBoundary (text : Text) (limit : Nat) (ascii : Bool) (i : Nat) : Bool :=
  if i == 0 then i < limit && isWordAt text ascii 0
  else isWordAt text ascii (i - 1) != isWordAt text ascii i

/-- Whether text may be divided at a place. -/
def isDivision (text : Text) (words : Bool) (i : Nat) : Bool :=
  i == 0 || text.size ≤ i ||
    (let before := ((text.extract 0 i).toList.map Char.toNat).reverse
    let after := (text.extract i text.size).toList.map Char.toNat
    if words then Unicode.wordBreak before after
    else
      match before, after with
      | first :: earlier, second :: _ => Unicode.clusterBreak earlier first second
      | _, _ => true)

def Anchor.holds (a : Anchor) (text : Text) (searchStart limit i : Nat) : Bool :=
  match a with
  | .lineStart => i == 0 || (isLineFeedAt text (i - 1) && i != text.size)
  | .lineEnd => i == text.size || isLineFeedAt text i
  | .textStart => i == 0
  | .textEnd => i == text.size
  | .lastLineEnd => i == text.size || (isLineFeedAt text i && i + 1 == text.size)
  | .searchStart => i == searchStart
  | .wordBoundary negated ascii => atWordBoundary text limit ascii i != negated
  | .division negated words => isDivision text words i != negated

namespace State

/-- The step so far away. -/
def moved (s : State) (offset : Int) : State := { s with step := (s.step + offset).toNat }

def next (s : State) : State := { s with step := s.step + 1 }

def nextAt (s : State) (place : Nat) : State := { s with step := s.step + 1, place }

def push (s : State) (frame : Frame) : State := { s with trail := frame :: s.trail }

/-- Another way from the step so far away. -/
def wayFrom (s : State) (offset : Int) : Frame := .way (s.step + offset).toNat s.place

/-- Takes back what a frame has changed, apart from callouts. -/
def restore (s : State) : Frame → State
  | .groupStart g _ before => { s with captures := s.captures.setIfInBounds g before }
  | .groupEnd g _ before => { s with captures := s.captures.setIfInBounds g before }
  | .called _ => { s with depth := s.depth - 1 }
  | .returned => { s with depth := s.depth + 1 }
  | _ => s

/-- Goes back to the last way that is open. Where there is none, it leads behind the last step. -/
def goBack (setting : Setting) (s : State) : Trail → State
  | [] => { s with step := setting.program.steps.size }
  | .way step place :: rest => { s with step, place, trail := rest }
  | .lastingWay step place :: rest => { s with step, place, trail := rest }
  | .wayBack step place owed :: rest => { s with step, place, owed, trail := rest }
  | .callout index :: rest =>
    let counters := Callout.back setting.program.callouts setting.attempt index s.counters
    goBack setting { s with counters } rest
  | frame :: rest => goBack setting (s.restore frame) rest

/-- Takes back all that was done since a mark. -/
def undoTo (id : Nat) (s : State) : Trail → State
  | [] => { s with trail := [] }
  | .mark i place :: rest =>
    if i == id then { s with trail := rest } else undoTo id (s.restore (.mark i place)) rest
  | frame :: rest => undoTo id (s.restore frame) rest

/-- Reads a character if it is a wanted one. -/
@[inline]
def readChar (s : State) (text : Text) (wanted : Char → Bool) : Turn :=
  if h : s.place < text.size then
    if s.place < s.limit && wanted text[s.place] then .on (s.nextAt (s.place + 1)) else .back s
  else .back s

/-- Where the text has been read so far, if it begins with the characters. -/
def readText (text : Text) (limit : Nat) : List Char → Nat → Option Nat
  | [], place => some place
  | c :: rest, place =>
    if h : place < text.size then
      if place < limit && text[place] == c then readText text limit rest (place + 1) else none
    else none

/-- Reads on as far as possible, with a way to go on from each place. -/
def readMany (text : Text) (lineFeed : Bool) (limit step : Nat) :
    Nat → Nat → Trail → Nat × Trail × Bool
  | 0, place, trail => (place, trail, true)
  | fuel + 1, place, trail =>
    if limit ≤ place then (place, trail, true)
    else
      let trail := .way (step + 1) place :: trail
      if lineFeed || !isLineFeedAt text place then
        readMany text lineFeed limit step fuel (place + 1) trail
      else (place, trail, false)

/-- The place so many characters before. -/
def before? (place count : Nat) : Option Nat := if count ≤ place then some (place - count) else none

/-- Marks the place at which a group is entered. -/
def enterGroup (s : State) (g : Nat) (restored : Bool) : State :=
  let before := s.captures.getD g {}
  if restored then
    { s with
      step := s.step + 1
      captures := s.captures.setIfInBounds g { start := some s.place }
      trail := .groupStart g s.place before :: s.trail }
  else
    { s with
      step := s.step + 1
      captures := s.captures.setIfInBounds g { before with start := some s.place } }

def leaveGroup (s : State) (g : Nat) (restored recursive : Bool) : State :=
  let before := s.captures.getD g {}
  let start := if recursive then s.trail.enteredAt? g 0 <|> before.start else before.start
  let captures := s.captures.setIfInBounds g { start, stop := some s.place }
  let trail :=
    if restored then .groupEnd g s.place before :: s.trail
    else if recursive then .groupLeft g :: s.trail
    else s.trail
  { s with step := s.step + 1, captures, trail }

/-- Begins a counted repetition. -/
def startCount (s : State) (id : Nat) (r : Repetition) (offset : Int) : State :=
  let s := s.push (.count id 0)
  if r.low == 0 then
    if r.greedy then (s.push (s.wayFrom offset)).next else (s.push (s.wayFrom 1)).moved offset
  else s.next

/-- Ends a round of a counted repetition. -/
def nextCount (s : State) (id : Nat) (r : Repetition) (offset : Int) : State :=
  let n := s.trail.rounds id 0 + 1
  if r.greedy then
    let s' :=
      if r.high.any (· ≤ n) then s.next
      else if r.low ≤ n then (s.push (s.wayFrom 1)).moved offset
      else s.moved offset
    s'.push (.count id n)
  else
    let s := s.push (.count id n)
    if r.high == some n then s.next
    else if r.low ≤ n then (s.push (s.wayFrom offset)).next
    else s.moved offset

/-- Ends a round that may have read nothing; then the repetition is over. -/
def endRound (s : State) (id : Nat) (emptiness : Emptiness) (watched : List Nat) : State :=
  let isEmpty := s.trail.isEmptyRound id emptiness watched s.place
  let s := if emptiness == .nested then s.push (.roundEnd id) else s
  if isEmpty then s.moved 2 else s.next

/-- Steps back, with ways that step back further. -/
def stepBack (s : State) (count : Nat) (more : Option (Option Nat)) : Turn :=
  match before? s.place count with
  | none => .back s
  | some place =>
    match more with
    | none => .on (s.nextAt place)
    | some owed =>
      .on { s with step := s.step + 2, place, trail := .wayBack (s.step + 1) place owed :: s.trail }

def stepBackMore (s : State) : Turn :=
  match before? s.place 1 with
  | none => .back s
  | some place =>
    let owed := s.owed.map (· - 1)
    let trail := if owed == some 0 then s.trail else .wayBack s.step place owed :: s.trail
    .on { s with step := s.step + 1, place, trail }

def bookkeep (s : State) (size : Nat) (b : Bookkeeping) : State :=
  match b with
  | .savePlace slot => (s.push (.savedPlace slot s.place)).next
  | .saveLimit slot => (s.push (.savedLimit slot s.limit)).next
  | .limitToPlace slot _ =>
    { s with step := s.step + 1, limit := (s.trail.saved? (Trail.placeIn? slot) 0).getD s.limit }
  | .restoreLimit slot =>
    { s with step := s.step + 1, limit := (s.trail.saved? (Trail.limitIn? slot) 0).getD s.limit }
  | .restorePlace slot => s.nextAt ((s.trail.saved? (Trail.placeIn? slot) 0).getD s.place)
  | .clearLimit => { s with step := s.step + 1, limit := size }

def passCallout (s : State) (setting : Setting) (index : Nat) : Turn :=
  let (passage, counters) :=
    Callout.forward setting.program.callouts setting.attempt index s.counters
  let s := { s with counters }
  match passage with
  | .pass =>
    let counting := (setting.program.callouts[index]?.map fun c => Callout.isCounting c.action)
    .on (if counting == some true then (s.push (.callout index)).next else s.next)
  | .fail => .back s
  | .mismatch => .stop s
  | .skip => .on { s with step := s.step + 1, skip := s.place }
  | .fault e => .fault e

/-- Comes to the end of the program. Where the longest match is wanted, shorter ones are given up. -/
def finish (s : State) (setting : Setting) (start : Nat) : Turn :=
  if setting.program.longest then
    let bytes (place : Nat) : Nat := Text.byteLength (setting.text.extract start place).toList
    let isBetter := s.best.all fun b => bytes b.1 < bytes s.place
    let s := if isBetter then { s with best := some (s.place, s.trail, s.captures) } else s
    if s.place < s.limit then .back s else .stop s
  else .done s

/-- Calls a group; too many calls within one another fail. -/
def callAt (s : State) (step : Nat) : Turn :=
  if callDepthLimit ≤ s.depth then .back s
  else .on { s.push (.called (s.step + 1)) with step, depth := s.depth + 1 }

/-- Takes one step. -/
@[inline]
def turn (s : State) (setting : Setting) (start : Nat) : Step → Turn
  | .text chars =>
    match readText setting.text s.limit chars s.place with
    | some place => .on (s.nextAt place)
    | none => .back s
  | .set table => s.readChar setting.text fun c => table.contains c.toNat
  | .word negated ascii => s.readChar setting.text fun c => isWordChar ascii c != negated
  | .any lineFeed => s.readChar setting.text fun c => lineFeed || c != '\n'
  | .anyMany lineFeed =>
    let (place, trail, read) :=
      readMany setting.text lineFeed s.limit s.step (s.limit - s.place) s.place s.trail
    let s := { s with place, trail }
    if read then .on s.next else .back s
  | .anchor a =>
    if a.holds setting.text setting.searchStart s.limit s.place then .on s.next else .back s
  | .backref r =>
    let reader : Reader := ⟨setting.text, s.limit, setting.program.asciiFold⟩
    match reader.rereadReference r s.captures s.trail s.place with
    | some place => .on (s.nextAt place)
    | none => .back s
  | .isSet r => if r.isSet s.captures s.trail then .on s.next else .back s
  | .jump offset => .on (s.moved offset)
  | .split offset => .on (s.push (s.wayFrom offset)).next
  | .splitLasting offset => .on (s.push (.lastingWay (s.step + offset).toNat s.place)).next
  | .pop => .on { s with step := s.step + 1, trail := s.trail.tail }
  | .fail => .back s
  | .mark id => .on (s.push (.mark id s.place)).next
  | .cut id back =>
    let place := if back then (s.trail.markPlace? id).getD s.place else s.place
    .on { s with step := s.step + 1, place, trail := s.trail.cut id }
  | .undo id =>
    let trail := s.trail
    .on ({ s with trail := [] }.undoTo id trail).next
  | .countStart id r offset => .on (s.startCount id r offset)
  | .countNext id r offset => .on (s.nextCount id r offset)
  | .roundStart id => .on (s.push (.roundStart id s.place)).next
  | .roundEnd id emptiness watched => .on (s.endRound id emptiness watched)
  | .groupStart g restored => .on (s.enterGroup g restored)
  | .groupEnd g restored recursive => .on (s.leaveGroup g restored recursive)
  | .call g =>
    match setting.program.entries.lookup g with
    | some step => s.callAt step
    | none => .back s
  | .callHere _ => s.callAt (s.step + 2)
  | .return =>
    match s.trail.returnStep? with
    | some step => .on { s.push .returned with step, depth := s.depth - 1 }
    | none => .back s
  | .stepBack count more => s.stepBack count more
  | .stepBackMore => s.stepBackMore
  | .limitHere => .on { s with step := s.step + 1, limit := s.place }
  | .atLimit => if s.place == s.limit then .on s.next else .back s
  | .record b => .on (s.bookkeep setting.text.size b)
  | .forgetLimit slot =>
    .on { s with
      step := s.step + 1
      limit := (s.trail.saved? (Trail.limitIn? slot) 0).getD s.limit
      trail := s.trail.forgetLimit slot 0 }
  | .callout index => s.passCallout setting index
  | .keep => .on (s.push (.keep s.place)).next
  | .finish => s.finish setting start
  | .giveUp => .stop s

end State

/-- How a run ended: where the match begins and ends, if there is one, and what it captured. -/
structure Finding where
  found : Option (Nat × Nat × Array Capture)
  counters : Counters
  skip : Nat
  deriving Inhabited

namespace State

def found (s : State) (start place : Nat) (trail : Trail) (captures : Array Capture) : Finding :=
  { found := some (min place (trail.keptPlace?.getD start), place, captures)
    counters := s.counters
    skip := s.skip }

/-- The longest match, if there is any. -/
def longestFound (s : State) (start : Nat) : Finding :=
  match s.best with
  | some (place, trail, captures) => s.found start place trail captures
  | none => { found := none, counters := s.counters, skip := s.skip }

/-- Runs on; `fuel` is the number of steps that are left. -/
def run (setting : Setting) (start : Nat) : Nat → State → Except PatternError Finding
  | 0, _ => .error .tooManyRetries
  | fuel + 1, s =>
    match s.turn setting start (setting.program.steps.getD s.step .giveUp) with
    | .on s => run setting start fuel s
    | .done s => .ok (s.found start s.place s.trail s.captures)
    | .stop s => .ok (s.longestFound start)
    | .fault e => .error e
    | .back s =>
      let trail := s.trail
      let s := { s with trail := [], retries := s.retries + 1 }.goBack setting trail
      if retryLimit < s.retries then .error .tooManyRetries else run setting start fuel s

end State

/-- Runs a program from a place on. -/
def Setting.runAt (setting : Setting) (start : Nat) (counters : Counters) :
    Except PatternError Finding :=
  State.run setting start stepLimit {
    step := 0
    place := start
    limit := setting.text.size
    captures := Array.replicate (setting.program.groups + 1) {}
    trail := []
    depth := 0
    owed := none
    retries := 0
    counters
    skip := 0
    best := none }

end Highlighter.Pattern

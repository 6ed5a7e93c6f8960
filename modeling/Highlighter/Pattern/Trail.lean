import Highlighter.Pattern.Program

/-! What a match remembers while it goes forward: other ways to go on, and what to restore when it goes
back. All of it lies on one trail, the last first. -/

namespace Highlighter.Pattern

abbrev Text := Array Char

/-- From the first character up to before the second position. -/
structure Span where
  start : Nat
  stop : Nat
  deriving DecidableEq, Repr

/-- The places at which a group was last entered and left. -/
structure Capture where
  start : Option Nat := none
  stop : Option Nat := none
  deriving DecidableEq, Repr, Inhabited

inductive Frame where
  /-- Another way, from a step and a place. -/
  | way (step place : Nat)
  /-- The same, which no cut takes away. -/
  | lastingWay (step place : Nat)
  /-- A place from which to step back further, so many times at most. -/
  | wayBack (step place : Nat) (owed : Option Nat)
  | mark (id place : Nat)
  /-- How many rounds of a repetition are over. -/
  | count (id rounds : Nat)
  | roundStart (id place : Nat)
  | roundEnd (id : Nat)
  /-- A group was entered; what it had captured before. -/
  | groupStart (group place : Nat) (before : Capture)
  | groupEnd (group place : Nat) (before : Capture)
  /-- A group was left whose end is not restored. -/
  | groupLeft (group : Nat)
  /-- A group was called; the step to return to. -/
  | called (step : Nat)
  | returned
  | savedPlace (slot place : Nat)
  | savedLimit (slot limit : Nat)
  | keep (place : Nat)
  | callout (index : Nat)
  deriving DecidableEq, Repr

abbrev Trail := List Frame

namespace Frame

/-- Whether a cut takes the frame away. -/
def isCut : Frame → Bool
  | .way _ _ | .wayBack _ _ _ | .mark _ _ | .roundStart _ _ | .roundEnd _ => true
  | _ => false

end Frame

namespace Trail

/-- The place of a mark. -/
def markPlace? (id : Nat) : Trail → Option Nat
  | [] => none
  | .mark i place :: rest => if i == id then some place else markPlace? id rest
  | _ :: rest => markPlace? id rest

/-- The trail without the ways since a mark, and without the mark. -/
def cut (id : Nat) : Trail → Trail
  | [] => []
  | .mark i _ :: rest => if i == id then rest else cut id rest
  | frame :: rest => if frame.isCut then cut id rest else frame :: cut id rest

/-- What follows the frame of the innermost call that is not over; `ended` counts the calls that are to be
passed over. -/
def beforeCall : Nat → Trail → Option (Nat × Trail)
  | _, [] => none
  | 0, .called step :: rest => some (step, rest)
  | ended + 1, .called _ :: rest => beforeCall ended rest
  | ended, .returned :: rest => beforeCall (ended + 1) rest
  | ended, _ :: rest => beforeCall ended rest

/-- The step to return to. -/
def returnStep? (t : Trail) : Option Nat := (beforeCall 0 t).map (·.1)

/-- How many rounds of a repetition are over. Calls that are over are passed over, `calls` of them. -/
def rounds (id : Nat) : Nat → Trail → Nat
  | _, [] => 0
  | 0, .count i n :: rest => if i == id then n else rounds id 0 rest
  | calls, .returned :: rest => rounds id (calls + 1) rest
  | calls + 1, .called _ :: rest => rounds id calls rest
  | calls, _ :: rest => rounds id calls rest

/-- The place at which the group was entered that is now left, past those entered and left within. -/
def enteredAt? (group : Nat) : Nat → Trail → Option Nat
  | _, [] => none
  | level, .groupStart g place _ :: rest =>
    if g == group then
      match level with
      | 0 => some place
      | level + 1 => enteredAt? group level rest
    else enteredAt? group level rest
  | level, .groupEnd g _ _ :: rest => enteredAt? group (if g == group then level + 1 else level) rest
  | level, .groupLeft g :: rest => enteredAt? group (if g == group then level + 1 else level) rest
  | level, _ :: rest => enteredAt? group level rest

/-- What a slot holds at the present call level; `value?` reads a frame. -/
def saved? (value? : Frame → Option Nat) : Int → Trail → Option Nat
  | _, [] => none
  | level, .called _ :: rest => saved? value? (level - 1) rest
  | level, .returned :: rest => saved? value? (level + 1) rest
  | level, frame :: rest =>
    match value? frame with
    | some value => if level == 0 then some value else saved? value? level rest
    | none => saved? value? level rest

def placeIn? (slot : Nat) : Frame → Option Nat
  | .savedPlace s place => if s == slot then some place else none
  | _ => none

def limitIn? (slot : Nat) : Frame → Option Nat
  | .savedLimit s limit => if s == slot then some limit else none
  | _ => none

/-- The trail without a saved limit. -/
def forgetLimit (slot : Nat) : Int → Trail → Trail
  | _, [] => []
  | level, .called step :: rest => .called step :: forgetLimit slot (level - 1) rest
  | level, .returned :: rest => .returned :: forgetLimit slot (level + 1) rest
  | level, frame :: rest =>
    if level == 0 && (limitIn? slot frame).isSome then rest
    else frame :: forgetLimit slot level rest

/-- Where the match was last told to begin. -/
def keptPlace? : Trail → Option Nat
  | [] => none
  | .keep place :: _ => some place
  | _ :: rest => keptPlace? rest

end Trail

/-! ### Rounds that read nothing -/

/-- What a group captured in a round, and what it had captured before it. -/
structure RoundCapture where
  group : Nat
  now : Capture
  before : Option Capture := none

/-- Whether something new was captured. One empty text for another is nothing new. -/
def RoundCapture.isNew (c : RoundCapture) : Bool :=
  match c.before with
  | none => false
  | some before =>
    before.stop.isNone ||
      (before != c.now && (c.now.start != c.now.stop || before.start != before.stop))

namespace Trail

/-- Whether the round that now ends at a place has read nothing and captured nothing new. Rounds within
the round are passed over where they are `nested`; `level` counts them. Of each watched group the last
end counts, and what it had captured when it was first entered. -/
def isEmptyRoundFrom (id : Nat) (nested : Bool) (watched : List Nat) (place : Nat) :
    Nat → List RoundCapture → Trail → Bool
  | _, _, [] => false
  | level, captured, .roundStart i start :: rest =>
    if i != id then isEmptyRoundFrom id nested watched place level captured rest
    else
      match level with
      | 0 => start == place && !captured.any (·.isNew)
      | level + 1 => isEmptyRoundFrom id nested watched place level captured rest
  | level, captured, .roundEnd i :: rest =>
    let level := if nested && i == id then level + 1 else level
    isEmptyRoundFrom id nested watched place level captured rest
  | level, captured, .groupEnd g stop before :: rest =>
    let captured :=
      if level == 0 && watched.contains g && !captured.any (·.group == g) then
        { group := g, now := { before with stop := some stop } } :: captured
      else captured
    isEmptyRoundFrom id nested watched place level captured rest
  | level, captured, .groupStart g _ before :: rest =>
    let captured :=
      if level == 0 then
        captured.map fun c => if c.group == g then { c with before := some before } else c
      else captured
    isEmptyRoundFrom id nested watched place level captured rest
  | level, captured, _ :: rest => isEmptyRoundFrom id nested watched place level captured rest

def isEmptyRound (id : Nat) (emptiness : Emptiness) (watched : List Nat) (place : Nat)
    (t : Trail) : Bool :=
  t.isEmptyRoundFrom id (emptiness == .nested) watched place 0 []

end Trail

end Highlighter.Pattern

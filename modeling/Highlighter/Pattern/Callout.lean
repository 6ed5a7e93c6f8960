import Highlighter.Pattern.Fault

/-! Callouts: places in a pattern at which something is done when a match passes them, going forward
or going back. Some of them count, and the counters decide whether the match may go on. -/

namespace Highlighter.Pattern

/-- A number, or the counter of the callout that bears a tag. -/
inductive CounterValue where
  | number (n : Int)
  | tag (name : List Char)
  deriving DecidableEq, Repr

/-- Which passages are counted. -/
inductive CountKind where
  /-- Those that go forward. -/
  | forward
  /-- Those that go back. -/
  | back
  /-- Those that go forward and are not taken back. -/
  | standing
  deriving DecidableEq, Repr

inductive Comparison where
  | equal
  | unequal
  | less
  | greater
  | atMost
  | atLeast
  deriving DecidableEq, Repr

inductive CalloutAction where
  /-- Contents of any kind, which do nothing. -/
  | contents
  | fail
  /-- Gives up all ways from this start. -/
  | mismatch
  /-- Fails once the counter has come to a value. -/
  | limit (most : CounterValue) (kind : Char)
  | error (code : Int)
  /-- Counts; a total goes on over all starts of a search. -/
  | count (kind : Char) (total : Bool)
  | compare (left : CounterValue) (operator : List Char) (right : CounterValue)
  /-- The next start lies no earlier than this place. -/
  | skip
  deriving DecidableEq, Repr

structure Callout where
  action : CalloutAction
  tag : Option (List Char) := none
  deriving DecidableEq, Repr

/-- The counters of the callouts, with the attempt in which each was last set. -/
abbrev Counters := Array (Int × Nat)

/-- What passing a callout leads to. -/
inductive Passage where
  | pass
  | fail
  | mismatch
  | skip
  | fault (e : PatternError)
  deriving DecidableEq, Repr

namespace Callout

def kindOf? (c : Char) : Option CountKind :=
  match c with
  | '>' => some .forward
  | '<' => some .back
  | 'X' => some .standing
  | _ => none

def comparison? : List Char → Option Comparison
  | ['=', '='] => some .equal
  | ['!', '='] => some .unequal
  | ['<'] => some .less
  | ['>'] => some .greater
  | ['<', '='] => some .atMost
  | ['>', '='] => some .atLeast
  | _ => none

def Comparison.holds (c : Comparison) (a b : Int) : Bool :=
  match c with
  | .equal => a == b
  | .unequal => a != b
  | .less => a < b
  | .greater => b < a
  | .atMost => a ≤ b
  | .atLeast => b ≤ a

/-- The counter of a callout in an attempt; what earlier attempts left is gone. -/
def counter (counters : Counters) (attempt index : Nat) : Int :=
  match counters[index]? with
  | some (n, set) => if set == attempt then n else 0
  | none => 0

/-- The callout that bears a tag. -/
def tagged? (callouts : Array Callout) (name : List Char) : Option Nat :=
  callouts.findIdx? fun c => c.tag == some name

def value (callouts : Array Callout) (counters : Counters) (attempt : Nat) : CounterValue → Int
  | .number n => n
  | .tag name => ((tagged? callouts name).map (counter counters attempt)).getD 0

/-- Whether an error code says nothing without a name. -/
def needsName (code : Int) : Bool :=
  [-215, -216, -217, -218, -219, -220, -223].contains code

/-- A callout may not report success, nor an error that needs a name. -/
def reportedError (code : Int) : PatternError :=
  if 0 ≤ code || needsName code then .calloutBody else .reported code

/-- Passes a callout going forward. -/
def forward (callouts : Array Callout) (attempt index : Nat) (counters : Counters) :
    Passage × Counters :=
  match (callouts[index]?.map (·.action)).getD .contents with
  | .contents => (.pass, counters)
  | .fail => (.fail, counters)
  | .mismatch => (.mismatch, counters)
  | .skip => (.skip, counters)
  | .error code =>
    if code == -1 then (.mismatch, counters) else (.fault (reportedError code), counters)
  | .compare left operator right =>
    match comparison? operator with
    | none => (.fault .calloutArgument, counters)
    | some c =>
      let holds := Comparison.holds c (value callouts counters attempt left)
        (value callouts counters attempt right)
      (if holds then .pass else .fail, counters)
  | .count kind total =>
    match kindOf? kind with
    | none => (.fault .calloutArgument, counters)
    | some kind =>
      let n := if total then (counters[index]?.map (·.1)).getD 0 else counter counters attempt index
      let n := if kind == .back then n else n + 1
      (.pass, counters.setIfInBounds index (n, attempt))
  | .limit most kind =>
    let n := counter counters attempt index
    match kindOf? kind with
    | none => (.fault .calloutArgument, counters)
    | some kind =>
      if value callouts counters attempt most ≤ n then (.fail, counters)
      else (.pass, counters.setIfInBounds index (if kind == .back then n else n + 1, attempt))

/-- Passes a callout going back. -/
def back (callouts : Array Callout) (attempt index : Nat) (counters : Counters) : Counters :=
  let change (kind : Char) : Int :=
    match kindOf? kind with
    | some .back => 1
    | some .standing => -1
    | _ => 0
  match (callouts[index]?.map (·.action)).getD .contents with
  | .count kind total =>
    let n := if total then (counters[index]?.map (·.1)).getD 0 else counter counters attempt index
    counters.setIfInBounds index (n + change kind, attempt)
  | .limit _ kind =>
    counters.setIfInBounds index (counter counters attempt index + change kind, attempt)
  | _ => counters

/-- Whether going back over a callout changes anything. -/
def isCounting : CalloutAction → Bool
  | .count _ _ | .limit _ _ => true
  | _ => false

end Callout

end Highlighter.Pattern

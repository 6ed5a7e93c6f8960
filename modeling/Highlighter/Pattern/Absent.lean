import Highlighter.Pattern.Reading

/-! Parts that must be absent: text is read only as far as a part does not occur in it. Before each step
the part is tried; where it matches, the limit of reading is moved back to that place. -/

namespace Highlighter.Pattern.Parser

/-- Any character, a line feed too. -/
def anything : Node := .any true

def recorded (b : Bookkeeping) : Node := .record b

/-- Restores the limit, and fails. -/
def restoreAndFail (slot : Nat) : Node := .seqOf [recorded (.restoreLimit slot), .fail]

/-- Steps forward, each time moving the limit to where the absent part begins. In the end, when there is
no way on, the limit saved before is restored. -/
def absentSteps (saved : Nat) (absent step : Node) (r : Repetition) (possessive lasting : Bool) :
    Parser Node := do
  let place ← newSlot
  let probe := Node.seqOf
    [recorded (.savePlace place), absent, recorded (.limitToPlace place lasting), .fail]
  let steps := Node.loop r (.alt probe step false)
  return .alt (if possessive then .atomic false steps else steps) (restoreAndFail saved) lasting

/-- A repetition of single characters, and whether it is possessive. -/
def singleRepeat? : Node → Option (Repetition × Node × Bool)
  | .loop r body => if r.greedy && isSingle body then some (r, body, false) else none
  | .atomic _ (.loop r body) => if r.greedy && isSingle body then some (r, body, true) else none
  | _ => none
where
  isSingle : Node → Bool
    | .text codes _ => codes.length == 1
    | .set _ => true
    | _ => false

/-- Single characters as far as the part is absent. -/
def absentRepeat (absent : Node) (r : Repetition) (body : Node) (possessive : Bool) :
    Parser Node := do
  let saved ← newSlot
  let steps ← absentSteps saved absent body r possessive false
  return .seqOf [recorded (.saveLimit saved), steps, recorded (.restoreLimit saved)]

def anyNumber : Repetition := { low := 0, high := none, greedy := true }

/-- What is read within the limit that the absent part sets. -/
def absentWithin (absent expression : Node) : Parser Node := do
  match singleRepeat? expression with
  | some (r, body, possessive) => absentRepeat absent r body possessive
  | none =>
    let saved ← newSlot
    let place ← newSlot
    let steps ← absentSteps saved absent anything anyNumber true false
    let limit ← newSlot
    return .seqOf
      [recorded (.saveLimit saved), recorded (.savePlace place), steps,
        recorded (.restorePlace place), expression, recorded (.saveLimit limit),
        .alt (recorded (.restoreLimit saved)) (restoreAndFail limit) false]

/-- A limit for all that follows: where the part begins. -/
def absentCutter (absent : Node) : Parser Node := do
  let saved ← newSlot
  let place ← newSlot
  let steps ← absentSteps saved absent anything anyNumber true true
  return .seqOf
    [recorded (.saveLimit saved), recorded (.savePlace place), steps,
      recorded (.restorePlace place)]

/-- Takes away the limit for all that follows. -/
def absentClear : Parser Node := do
  let limit ← newSlot
  return .seqOf
    [recorded (.saveLimit limit), .alt (recorded .clearLimit) (restoreAndFail limit) true]

/-- Any text in which the part is absent. -/
def absentText (absent : Node) : Parser Node := absentRepeat absent anyNumber anything false

end Highlighter.Pattern.Parser

import Highlighter.Pattern.Reading

/-! Repetitions as they are written after a part, and what a repetition of a repetition comes to. -/

namespace Highlighter.Pattern

/-- A repetition sign. -/
structure RepeatSign where
  low : Nat
  high : Option Nat
  greedy : Bool
  possessive : Bool
  deriving DecidableEq, Repr

/-- The six repetitions without numbers. -/
inductive PlainRepeat where
  | maybe
  | star
  | plus
  | lazyMaybe
  | lazyStar
  | lazyPlus
  deriving DecidableEq, Repr

def Repetition.plain? (r : Repetition) : Option PlainRepeat :=
  match r.greedy, r.low, r.high with
  | true, 0, some 1 => some .maybe
  | true, 0, none => some .star
  | true, 1, none => some .plus
  | false, 0, some 1 => some .lazyMaybe
  | false, 0, none => some .lazyStar
  | false, 1, none => some .lazyPlus
  | _, _, _ => none

def PlainRepeat.repetition : PlainRepeat → Repetition
  | .maybe => { low := 0, high := some 1, greedy := true }
  | .star => { low := 0, high := none, greedy := true }
  | .plus => { low := 1, high := none, greedy := true }
  | .lazyMaybe => { low := 0, high := some 1, greedy := false }
  | .lazyStar => { low := 0, high := none, greedy := false }
  | .lazyPlus => { low := 1, high := none, greedy := false }

/-- What two repetitions, one of the other, come to: one of them, or both as they are. -/
inductive Reduction where
  | inner
  | single (r : PlainRepeat)
  | both (outer inner : PlainRepeat)
  | asIs
  deriving DecidableEq, Repr

/-- The reduction of a repetition `outer` of a repetition `inner`. -/
def reduction (inner outer : PlainRepeat) : Reduction :=
  match inner, outer with
  | .maybe, .maybe => .inner
  | .maybe, .star | .maybe, .plus => .single .star
  | .maybe, .lazyMaybe => .single .lazyMaybe
  | .maybe, .lazyStar => .single .lazyStar
  | .maybe, .lazyPlus => .asIs
  | .star, .lazyMaybe | .star, .lazyStar => .both .lazyMaybe .plus
  | .star, _ => .inner
  | .plus, .maybe | .plus, .star => .single .star
  | .plus, .plus | .plus, .lazyPlus => .inner
  | .plus, .lazyMaybe => .asIs
  | .plus, .lazyStar => .both .lazyMaybe .plus
  | .lazyMaybe, .maybe | .lazyMaybe, .lazyMaybe => .inner
  | .lazyMaybe, _ => .single .lazyStar
  | .lazyStar, _ => .inner
  | .lazyPlus, .lazyMaybe | .lazyPlus, .lazyStar => .single .lazyStar
  | .lazyPlus, .lazyPlus => .inner
  | .lazyPlus, _ => .asIs

namespace Node

/-- A repetition of a repetition, in its simplest form. Fixed numbers are multiplied. -/
def repeatLoop (outer inner : Repetition) (body : Node) : Except PatternError Node :=
  match outer.plain?, inner.plain? with
  | some o, some i =>
    match reduction i o with
    | .inner => .ok (.loop inner body)
    | .single r => .ok (.loop r.repetition body)
    | .both o i => .ok (.loop o.repetition (.loop i.repetition body))
    | .asIs => .ok (.loop outer (.loop inner body))
  | _, _ =>
    if outer.high == some outer.low && inner.high == some inner.low then
      let n := outer.low * inner.low
      if n != 0 && Parser.greatestNumber / inner.low ≤ outer.low then .error .repeatTooLarge
      else .ok (.loop { outer with low := n, high := some n } body)
    else .ok (.loop outer (.loop inner body))

/-- Up to so many rounds of something that can go on for ever need no more than the least number. -/
def lessOften (outer inner : Repetition) : Repetition :=
  if outer.plain?.isNone && (inner.plain? == some .star || inner.plain? == some .plus) &&
      outer.greedy && outer.high.any (1 < ·) then
    { outer with high := some (max outer.low 1) }
  else outer

/-- Whether a part may not be repeated: it reads nothing by its nature. -/
def isInvalidTarget : Node → Bool
  | .anchor _ | .ahead _ _ | .behind _ _ _ _ => true
  | .callout _ | .record _ | .fail | .keep => true
  | .alt first rest _ => first.isInvalidTarget || rest.isInvalidTarget
  | _ => false

/-- A part with a repetition sign. Of a plain text only the last character is repeated, and the first
of the results is what stands before it. -/
def repeated (n : Node) (isGroup : Bool) (sign : RepeatSign) : Except PatternError (List Node) := do
  let r : Repetition := { low := sign.low, high := sign.high, greedy := sign.greedy }
  let wrap (n : Node) : Node := if sign.possessive then .atomic false n else n
  if r.low == 1 && r.high == some 1 then return [n]
  match n with
  | .text codes fold =>
    match codes.getLast? with
    | some last =>
      if isGroup || codes.length == 1 then return [wrap (.loop r n)]
      else return [.text codes.dropLast fold, wrap (.loop r (.text [last] fold))]
    | none => return [wrap (.loop r n)]
  | .loop inner body => return [wrap (← repeatLoop (lessOften r inner) inner body)]
  | _ => return [wrap (.loop r n)]

end Node

namespace Parser

/-- The largest bound a repetition may have. -/
def greatestRepeat : Nat := 100000

/-- An interval after its brace. Anything else is no interval. Bounds in reverse make it possessive; a
single bound cannot be lazy. -/
def interval? (s : List Char) : Except PatternError (Option (RepeatSign × Bool × List Char)) := do
  let (low, lowCount, afterLow) := decimal s
  if greatestRepeat < low then throw .repeatTooLarge
  match afterLow with
  | ',' :: t =>
    let (high, highCount, afterHigh) := decimal t
    if greatestRepeat < high then throw .repeatTooLarge
    match afterHigh with
    | '}' :: left =>
      if lowCount == 0 && highCount == 0 then return none
      else if highCount == 0 then return some (⟨low, none, true, false⟩, true, left)
      else if high < low then return some (⟨high, some low, true, true⟩, false, left)
      else return some (⟨low, some high, true, false⟩, true, left)
    | _ => return none
  | '}' :: left =>
    if lowCount == 0 then return none
    else return some (⟨low, some low, true, false⟩, false, left)
  | _ => return none

/-- A sign after which a question mark makes it lazy, and a plus sign possessive. -/
def withGreed (low : Nat) (high : Option Nat) : Parser RepeatSign := do
  if ← accept '?' then return ⟨low, high, false, false⟩
  else return ⟨low, high, true, ← accept '+'⟩

/-- A repetition sign that begins with this character, which was read. -/
def repeatSign? (c : Char) : Parser (Option RepeatSign) := do
  match c with
  | '*' => return some (← withGreed 0 none)
  | '+' => return some (← withGreed 1 none)
  | '?' => return some (← withGreed 0 (some 1))
  | '{' =>
    match ← judge (interval? (← rest)) with
    | none => return none
    | some (sign, mayBeLazy, left) =>
      setRest left
      if mayBeLazy && (← accept '?') then return some { sign with greedy := false }
      else return some sign
  | _ => return none

end Parser

end Highlighter.Pattern

import Highlighter.Pattern.Reference

/-! How much a part reads: whether it reads anything at all, and how many characters. Groups that call
one another make these questions ones of a whole pattern. -/

namespace Highlighter.Pattern

namespace Node

/-- Whether every match reads something. `group` answers for the groups that are referred to. -/
def consumes (group : Nat → Bool) : Node → Bool
  | .text codes _ => !codes.isEmpty
  | .set _ | .word _ _ | .any _ => true
  | .fail => true
  | .backref r => !r.inside && r.groups.all group
  | .enter n _ => group n
  | .loop r body => 0 < r.low && body.consumes group
  | .group _ _ body => body.consumes group
  | .scoped _ body => body.consumes group
  | .atomic _ body => body.consumes group
  | .choose test yes no => (test.consumes group || yes.consumes group) && no.consumes group
  | .seq first rest => first.consumes group || rest.consumes group
  | .alt first rest _ => first.consumes group && rest.consumes group
  | _ => false

end Node

/-- The groups of which it is known after so many rounds that they read something: each round builds on
the one before. It is enough to have as many rounds as there are groups. -/
def consumingGroups (groups : List (Nat × Node)) : Nat → List Nat → List Nat
  | 0, known => known
  | rounds + 1, known =>
    let next := (groups.filter fun g => g.2.consumes known.contains).map (·.1)
    if next.length == known.length then known else consumingGroups groups rounds next

/-! ### Numbers of characters -/

/-- How many characters a part reads: the least number, the greatest if there is one, and whether the
least number is read for certain. -/
structure Extent where
  low : Nat
  high : Option Nat
  sure : Bool := true
  deriving DecidableEq, Repr

namespace Extent

def exactly (n : Nat) : Extent := { low := n, high := some n }

def unknown : Extent := { low := 0, high := none, sure := false }

def isFixed (e : Extent) : Bool := e.high == some e.low

def add (a b : Extent) : Extent :=
  { low := a.low + b.low, high := return (← a.high) + (← b.high), sure := a.sure && b.sure }

/-- Either of two. The least number is that of a part which is sure of it, if there is one. -/
def either (a b : Extent) : Extent :=
  { low := min a.low b.low
    high := return max (← a.high) (← b.high)
    sure :=
      if b.low < a.low then b.sure else if a.low < b.low then a.sure else a.sure || b.sure }

def times (e : Extent) (r : Repetition) : Extent :=
  if r.high == some 0 then exactly 0
  else
    { low := r.low * e.low
      high := return (← r.high) * (← e.high)
      sure := e.sure }

end Extent

namespace Node

/-- The number of characters that a part reads; `none` where a text without regard to case is not yet
taken apart. `group` answers for the groups that are referred to. -/
def extent (group : Nat → Option Extent) : Node → Option Extent
  | .text codes fold => if fold then none else some (.exactly codes.length)
  | .set _ | .word _ _ | .any _ => some (.exactly 1)
  | .anchor _ | .isSet _ | .ahead _ _ | .behind _ _ _ _ =>
    some { low := 0, high := some 0, sure := false }
  | .callout _ | .record _ | .fail | .keep => some (.exactly 0)
  | .backref r =>
    if r.inside then
      some { low := 0, high := if r.level.isSome then none else some 0, sure := false }
    else do
      let extents ← r.groups.mapM group
      let extents := extents.map fun e => { e with sure := e.sure && e.isFixed }
      match extents with
      | [] => return .unknown
      | e :: others => return others.foldl .either e
  | .call _ => some .unknown
  | .enter n recursive => if recursive then some .unknown else group n
  | .loop r body => return (← body.extent group).times r
  | .group _ _ body => return { ← body.extent group with sure := false }
  | .scoped _ body => body.extent group
  | .atomic _ body => body.extent group
  | .choose test yes no => do
    let yes := (← test.extent group).add (← yes.extent group)
    return yes.either (← no.extent group)
  | .seq first rest => return (← first.extent group).add (← rest.extent group)
  | .alt first rest _ => return (← first.extent group).either (← rest.extent group)

end Node

/-- The extents of groups, which may call one another so many times over. -/
def groupExtent (body? : Nat → Option Node) : Nat → Nat → Option Extent
  | 0, _ => some .unknown
  | depth + 1, n =>
    match body? n with
    | some body => return { ← body.extent (groupExtent body? depth) with sure := false }
    | none => some .unknown

end Highlighter.Pattern

import Highlighter.Pattern.Width

/-! Calls between the groups of a pattern: which groups are called, which come back to themselves, and
which would do so for ever. -/

namespace Highlighter.Pattern

namespace Node

/-- The groups that stand in a part or are called by it. -/
def uses : Node → List Nat
  | .enter n _ => [n]
  | .group n _ body => n :: body.uses
  | .loop _ body => body.uses
  | .scoped _ body => body.uses
  | .atomic _ body => body.uses
  | .choose test yes no => test.uses ++ yes.uses ++ no.uses
  | .ahead _ body => body.uses
  | .behind _ _ _ body => body.uses
  | .seq first rest => first.uses ++ rest.uses
  | .alt first rest _ => first.uses ++ rest.uses
  | _ => []

/-- The groups that a part calls; with `live`, only where it is ever run. -/
def calls (live : Bool) : Node → List Nat
  | .enter n _ => [n]
  | .loop r body => if live && r.high == some 0 then [] else body.calls live
  | .group _ _ body => body.calls live
  | .scoped _ body => body.calls live
  | .atomic _ body => body.calls live
  | .choose test yes no => test.calls live ++ yes.calls live ++ no.calls live
  | .ahead _ body => body.calls live
  | .behind _ _ _ body => body.calls live
  | .seq first rest => first.calls live ++ rest.calls live
  | .alt first rest _ => first.calls live ++ rest.calls live
  | _ => []

end Node

/-- All that is found by going on from some numbers; the fuel bounds how many there can be. -/
def closure (next : Nat → List Nat) : Nat → List Nat → List Nat → List Nat
  | 0, found, _ => found
  | _ + 1, found, [] => found
  | fuel + 1, found, n :: rest =>
    if found.contains n then closure next fuel found rest
    else closure next fuel (n :: found) (next n ++ rest)

/-- The groups of a pattern with calls. -/
structure CallGraph where
  bodies : List (Nat × Node)

namespace CallGraph

def ofNode (n : Node) : CallGraph := ⟨n.groups⟩

def body? (g : CallGraph) (n : Nat) : Option Node := g.bodies.lookup n

/-- More than there are steps from group to group. -/
def fuel (g : CallGraph) : Nat :=
  g.bodies.length + (g.bodies.flatMap fun b => b.2.uses).length + 1

def closureOf (g : CallGraph) (next : Node → List Nat) (start : List Nat) : List Nat :=
  closure (fun n => ((g.body? n).map next).getD []) (g.fuel + start.length) [] start

/-- The groups that are called from parts that are run. -/
def called (g : CallGraph) (root : Node) : List Nat :=
  g.closureOf (Node.calls false) (root.calls true)

/-- The groups that a group leads to, by standing in it or by being called. -/
def reached (g : CallGraph) (n : Nat) : List Nat :=
  g.closureOf Node.uses (((g.body? n).map Node.uses).getD [])

end CallGraph

/-- Marks the calls that may come back to where they stand. `leads` tells whether one group leads to
another, and `home` is the group in which the part stands. -/
def Node.markCalls (leads : Nat → Nat → Bool) (home : Option Nat) : Node → Node
  | .enter n _ => .enter n (home.any fun h => n == h || leads n h)
  | .group n named body => .group n named (body.markCalls leads (some n))
  | .loop r body => .loop r (body.markCalls leads home)
  | .scoped whole body => .scoped whole (body.markCalls leads home)
  | .atomic simple body => .atomic simple (body.markCalls leads home)
  | .choose test yes no =>
    .choose (test.markCalls leads home) (yes.markCalls leads home) (no.markCalls leads home)
  | .ahead negated body => .ahead negated (body.markCalls leads home)
  | .behind negated low high body => .behind negated low high (body.markCalls leads home)
  | .seq first rest => .seq (first.markCalls leads home) (rest.markCalls leads home)
  | .alt first rest lasting =>
    .alt (first.markCalls leads home) (rest.markCalls leads home) lasting
  | n => n

/-! ### Recursion without end -/

/-- How a part comes back to a group: whether every way does, and whether one does before anything is
read. -/
structure Return where
  always : Bool := false
  atOnce : Bool := false
  deriving DecidableEq, Repr

namespace Return

/-- What happens one after the other. -/
def andThen (a b : Return) : Return := ⟨a.always || b.always, a.atOnce || b.atOnce⟩

/-- What happens in one of two ways. -/
def either (a b : Return) : Return := ⟨a.always && b.always, a.atOnce || b.atOnce⟩

end Return

/-- How a part comes back; `enter` answers for groups, `consumes` tells what reads something, and
`atHead` that nothing was read before. -/
def Node.returns (enter : Nat → Bool → Return) (consumes : Node → Bool) (atHead : Bool) :
    Node → Return
  | .enter n _ => enter n atHead
  | .group n _ _ => enter n atHead
  | .loop r body =>
    if r.high == some 0 then {}
    else
      let back := body.returns enter consumes atHead
      if r.low == 0 then { back with always := false } else back
  | .scoped _ body => body.returns enter consumes atHead
  | .atomic _ body => body.returns enter consumes atHead
  | .choose test yes no =>
    let back := (test.returns enter consumes atHead).andThen
      (yes.returns enter consumes (atHead && !consumes test))
    back.either (no.returns enter consumes atHead)
  | .ahead _ body => body.returns enter consumes atHead
  | .behind _ _ _ body => body.returns enter consumes atHead
  | .seq first rest =>
    (first.returns enter consumes atHead).andThen
      (rest.returns enter consumes (atHead && !consumes first))
  | .alt first rest _ =>
    (first.returns enter consumes atHead).either (rest.returns enter consumes atHead)
  | _ => {}

/-- How entering a group comes back to the group `start`, where the groups in `path` are left out. The
fuel bounds how many groups lie within one another. -/
def CallGraph.returns (g : CallGraph) (consumes : Node → Bool) (start : Nat) :
    Nat → List Nat → Nat → Bool → Return
  | 0, _, _, _ => {}
  | fuel + 1, path, n, atHead =>
    if path.contains n then {}
    else if n == start then ⟨true, atHead⟩
    else
      match g.body? n with
      | some body => body.returns (g.returns consumes start fuel (n :: path)) consumes atHead
      | none => {}

/-- Whether a group comes back to itself for ever. -/
def CallGraph.isEndless (g : CallGraph) (consumes : Node → Bool) (n : Nat) : Bool :=
  match g.body? n with
  | some body =>
    let back := body.returns (g.returns consumes n (g.bodies.length + 1) []) consumes true
    back.always || back.atOnce
  | none => false

end Highlighter.Pattern

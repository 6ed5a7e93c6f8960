import Highlighter.Pattern.Parser

/-! References and calls of a whole pattern: which groups capture, whether references have a group, and
what the calls mean. -/

namespace Highlighter.Pattern

namespace Node

def hasCall : Node → Bool
  | .call _ => true
  | .loop _ body => body.hasCall
  | .group _ _ body => body.hasCall
  | .scoped _ body => body.hasCall
  | .atomic _ body => body.hasCall
  | .choose test yes no => test.hasCall || yes.hasCall || no.hasCall
  | .ahead _ body => body.hasCall
  | .behind _ _ _ body => body.hasCall
  | .seq first rest => first.hasCall || rest.hasCall
  | .alt first rest _ => first.hasCall || rest.hasCall
  | _ => false

/-- The references in the order in which they stand. -/
def references : Node → List Reference
  | .backref r => [r]
  | .isSet r => [r]
  | .loop _ body => body.references
  | .group _ _ body => body.references
  | .scoped _ body => body.references
  | .atomic _ body => body.references
  | .choose test yes no => test.references ++ yes.references ++ no.references
  | .ahead _ body => body.references
  | .behind _ _ _ body => body.references
  | .seq first rest => first.references ++ rest.references
  | .alt first rest _ => first.references ++ rest.references
  | _ => []

/-- Changes the numbers of groups and references. A group sent to `none` is dissolved, and a repetition
of it becomes one of its body; the flag tells that the node itself was a group that is gone. -/
def renumber (number? : Nat → Option Nat) : Node → Except PatternError (Node × Bool)
  | .backref r => .ok (.backref { r with groups := r.groups.filterMap number? }, false)
  | .isSet r => .ok (.isSet { r with groups := r.groups.filterMap number? }, false)
  | .loop r body => do
    match ← body.renumber number? with
    | (.loop inner body, true) => return (← repeatLoop r inner body, false)
    | (body, _) => return (.loop r body, false)
  | .group n named body => do
    let (body, _) ← body.renumber number?
    match number? n with
    | some m => return (.group m named body, false)
    | none => return (body, true)
  | .scoped whole body => do return (.scoped whole (← body.renumber number?).1, false)
  | .atomic simple body => do return (.atomic simple (← body.renumber number?).1, false)
  | .choose test yes no => do
    return (.choose (← test.renumber number?).1 (← yes.renumber number?).1
      (← no.renumber number?).1, false)
  | .ahead negated body => do return (.ahead negated (← body.renumber number?).1, false)
  | .behind negated low high body => do
    return (.behind negated low high (← body.renumber number?).1, false)
  | .seq first rest => do
    return (.seq (← first.renumber number?).1 (← rest.renumber number?).1, false)
  | .alt first rest lasting => do
    return (.alt (← first.renumber number?).1 (← rest.renumber number?).1 lasting, false)
  | n => .ok (n, false)

/-- Replaces each call by the group it means. -/
def resolveCalls (target : CallTarget → Except PatternError Nat) : Node → Except PatternError Node
  | .call t => return .enter (← target t) false
  | .loop r body => return .loop r (← body.resolveCalls target)
  | .group n named body => return .group n named (← body.resolveCalls target)
  | .scoped whole body => return .scoped whole (← body.resolveCalls target)
  | .atomic simple body => return .atomic simple (← body.resolveCalls target)
  | .choose test yes no =>
    return .choose (← test.resolveCalls target) (← yes.resolveCalls target)
      (← no.resolveCalls target)
  | .ahead negated body => return .ahead negated (← body.resolveCalls target)
  | .behind negated low high body => return .behind negated low high (← body.resolveCalls target)
  | .seq first rest => return .seq (← first.resolveCalls target) (← rest.resolveCalls target)
  | .alt first rest lasting =>
    return .alt (← first.resolveCalls target) (← rest.resolveCalls target) lasting
  | n => return n

end Node

/-- The groups of a pattern and their names. -/
structure Groups where
  count : Nat
  /-- Names with the numbers of their groups, the last one first. -/
  names : List (List Char × List Nat)

/-- Named groups alone capture once there are any; they are then numbered among themselves, and only
names may refer to them. -/
def onlyNamed (node : Node) (g : Groups) : Except PatternError (Node × Groups) := do
  let named := (g.names.flatMap (·.2)).mergeSort
  let number? (n : Nat) : Option Nat :=
    if named.contains n then some (named.idxOf n + 1) else none
  let (renumbered, _) ← node.renumber number?
  if node.references.any fun r => !r.byName then throw .numberedBackref
  return (renumbered,
    { count := named.length, names := g.names.map fun e => (e.1, e.2.filterMap number?) })

/-- The group a call means, where there is exactly one. Calls by number are for patterns without
names. -/
def Groups.target (g : Groups) : CallTarget → Except PatternError Nat
  | .number n text =>
    if !g.names.isEmpty then .error .numberedBackref
    else if g.count < n then .error (.undefinedGroup text)
    else .ok n
  | .name text =>
    match g.names.lookup text with
    | some [n] => .ok n
    | some _ => .error (.ambiguousCall text)
    | none => .error (.undefinedName text)

/-- The pattern with its groups settled and its calls resolved. A pattern with calls is a group of its
own, which may be called too. -/
def settleGroups (node : Node) (g : Groups) : Except PatternError (Node × Groups) := do
  let (node, g) ← if g.names.isEmpty then pure (node, g) else onlyNamed node g
  if node.references.any fun r => r.groups.any (g.count < ·) then throw .backref
  if node.hasCall then
    return (.group 0 false (← node.resolveCalls g.target), g)
  else return (node, g)

end Highlighter.Pattern

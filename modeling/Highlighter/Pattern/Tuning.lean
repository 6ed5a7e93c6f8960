import Highlighter.Pattern.LookBehind

/-! Making a pattern ready for being run: texts without regard to case are taken apart, look-behinds get
their lengths, repetitions learn whether their rounds may read nothing. -/

namespace Highlighter.Pattern

/-- What is known of a whole pattern. -/
structure Facts where
  asciiFold : Bool
  graph : CallGraph
  /-- The groups that read something. -/
  consuming : List Nat
  called : List Nat
  recursive : List Nat
  /-- The groups that references refer to. -/
  referred : List Nat

/-- The bodies of the groups that are ready. -/
abbrev Tuner := StateT (List (Nat × Node)) (Except PatternError)

namespace Facts

def consumes (f : Facts) (n : Node) : Bool := n.consumes f.consuming.contains

/-- A question about groups that may call one another, so many times over. -/
def askGroups (f : Facts) (default : Bool) (ask : (Nat → Bool) → Node → Bool) : Nat → Nat → Bool
  | 0, _ => default
  | depth + 1, n =>
    match f.graph.body? n with
    | some body => ask (askGroups f default ask depth) body
    | none => default

def depth (f : Facts) : Nat := f.graph.bodies.length + 1

def fitsBehind (f : Facts) (negated : Bool) (n : Node) : Bool :=
  n.fitsBehind (f.askGroups true (fun group body => body.fitsBehind group negated) f.depth) negated

/-- Whether a part holds a group that is referred to. -/
def holdsReferred (f : Facts) (n : Node) : Bool :=
  let referred (k : Nat) : Bool := f.referred.contains k || f.called.contains k
  n.holdsReferred
    (f.askGroups false (fun group body => body.holdsReferred group referred) f.depth) referred

end Facts

namespace Node

/-- What is compared when a round of this part reads nothing. -/
def emptiness : Node → Emptiness
  | .enter _ recursive => if recursive then .nested else .spans
  | .group _ _ _ => .spans
  | .loop r body => if r.high == some 0 then .place else body.emptiness
  | .scoped _ body => body.emptiness
  | .atomic _ body => body.emptiness
  | .choose test yes no => more test.emptiness (more yes.emptiness no.emptiness)
  | .seq first rest => more first.emptiness rest.emptiness
  | .alt first rest _ => more first.emptiness rest.emptiness
  | _ => .place
where
  more (a b : Emptiness) : Emptiness :=
    if a == .nested || b == .nested then .nested
    else if a == .spans || b == .spans then .spans
    else .place

/-- The groups of a part whose nearest repetition that may read nothing lies outside of it. -/
def freeGroups : Node → List Nat
  | .group n _ body => n :: body.freeGroups
  | .loop r body => if r.emptiness == .never then body.freeGroups else []
  | .scoped _ body => body.freeGroups
  | .atomic _ body => body.freeGroups
  | .choose test yes no => test.freeGroups ++ yes.freeGroups ++ no.freeGroups
  | .ahead negated body => if negated then body.freeGroups else []
  | .behind negated _ _ body => if negated then body.freeGroups else []
  | .seq first rest => first.freeGroups ++ rest.freeGroups
  | .alt first rest _ => first.freeGroups ++ rest.freeGroups
  | _ => []

/-- The greatest length in bytes of a text that stands for its repetitions. -/
def longestRepeatedText : Nat := 100

/-- A text repeated a few times is a longer text. -/
def expandText (r : Repetition) (body : Node) : Node :=
  match body, r.high with
  | .text codes false, some n =>
    let bytes := Parser.codesBytes codes
    if n == r.low && 1 < n && n ≤ longestRepeatedText && bytes * n ≤ longestRepeatedText then
      .text (List.replicate n codes).flatten false
    else .loop r body
  | _, _ => .loop r body

/-- Whether a repetition of this part reads single characters, or a text. -/
def isPlainStep : Node → Bool
  | .text codes _ => !codes.isEmpty
  | .set _ | .word _ _ | .any _ => true
  | _ => false

/-- A part that keeps its first match; the simplest repetitions are marked. -/
def atomicOf (body : Node) : Node :=
  match body with
  | .loop r step => .atomic (r.high == none && r.low ≤ 1 && r.greedy && step.isPlainStep) body
  | _ => .atomic false body

/-- Makes a part ready. `behind` tells that it stands in a look-behind. -/
def tune (f : Facts) (behind : Bool) : Node → Tuner Node
  | .text codes fold =>
    return if fold then foldedText f.asciiFold behind codes else .text codes false
  | .loop r body => do
    let mayBeEmpty := r.high != some 0 && !f.consumes body
    let emptiness := if mayBeEmpty then body.emptiness else .never
    let body ← body.tune f behind
    let watched := if mayBeEmpty then body.freeGroups.filter f.referred.contains else []
    return expandText { r with emptiness, watched } body
  | .group n named body => do
    let body ← body.tune f behind
    modify fun bodies => (n, body) :: bodies
    return .group n named body
  | .scoped whole body => return .scoped whole (← body.tune f behind)
  | .atomic _ body => return atomicOf (← body.tune f behind)
  | .choose test yes no =>
    return .choose (← test.tune f behind) (← yes.tune f behind) (← no.tune f behind)
  | .ahead negated body => return .ahead negated (← body.tune f behind)
  | .behind negated _ _ body => do
    if !f.fitsBehind negated body then throw .lookBehind
    let body := (← body.tune f true).shorten
    let ready ← get
    let body? (n : Nat) : Option Node := ready.lookup n <|> f.graph.body? n
    let shape : Behind :=
      { negated, extent := Node.extent (groupExtent body? f.depth), isReferred := f.holdsReferred }
    match shape.assemble body with
    | .ok n => return n
    | .error e => throw e
  | .seq first rest => return .seq (← first.tune f behind) (← rest.tune f behind)
  | .alt first rest lasting =>
    return .alt (← first.tune f behind) (← rest.tune f behind) lasting
  | n => return n

/-- The groups whose spans are taken back when a match goes back: those in parts that are chosen among,
repeated or negated, and in groups that are called. -/
def restored (called : List Nat) (chosen : Bool) : Node → List Nat
  | .group n _ body =>
    let chosen := chosen || called.contains n
    (if chosen then [n] else []) ++ body.restored called chosen
  | .loop r body => body.restored called (chosen || r.high != some r.low)
  | .scoped _ body => body.restored called chosen
  | .atomic _ body => body.restored called chosen
  | .choose test yes no =>
    test.restored called true ++ yes.restored called true ++ no.restored called true
  | .ahead negated body => body.restored called (chosen || negated)
  | .behind negated _ _ body => body.restored called (chosen || negated)
  | .seq first rest => first.restored called chosen ++ rest.restored called chosen
  | .alt first rest _ => first.restored called true ++ rest.restored called true
  | _ => []

end Node

/-- A pattern made ready, and the groups that need care when it is run. -/
structure TunedPattern where
  node : Node
  facts : Facts
  /-- The groups whose starts are taken back. -/
  restoredStarts : List Nat
  /-- The groups whose ends are taken back too. -/
  restoredEnds : List Nat

/-- Makes a pattern ready whose groups are settled. -/
def tunePattern (node : Node) (asciiFold hasCallouts : Bool) : Except PatternError TunedPattern := do
  let graph := CallGraph.ofNode node
  let hasCalls := !(node.calls false).isEmpty
  let called := if hasCalls then graph.called node else []
  let reached := if hasCalls then graph.bodies.map fun b => (b.1, graph.reached b.1) else []
  let leads (n m : Nat) : Bool := ((reached.lookup n).getD []).contains m
  let recursive := (reached.map (·.1)).filter fun n => leads n n
  let node := if hasCalls then node.markCalls leads none else node
  let graph := CallGraph.ofNode node
  let references := node.references
  let referred := (references.flatMap (·.groups)).eraseDups
  let needed := hasCalls || !references.isEmpty
  let consuming := if needed then consumingGroups graph.bodies (graph.bodies.length + 1) [] else []
  let facts : Facts :=
    { asciiFold, graph, consuming, called, recursive, referred }
  if (graph.bodies.map (·.1)).any fun n =>
      recursive.contains n && called.contains n && graph.isEndless facts.consumes n then
    throw .endlessRecursion
  let (node, _) ← (node.tune facts false).run []
  let levelled := (references.filter fun r => r.level.isSome).flatMap (·.groups)
  let starts := (node.restored called false ++ recursive ++ levelled).eraseDups
  let ends := if hasCallouts then starts else starts.filter referred.contains
  return { node, facts, restoredStarts := starts, restoredEnds := ends }

end Highlighter.Pattern

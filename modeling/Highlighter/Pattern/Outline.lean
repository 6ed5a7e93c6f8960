import Highlighter.Pattern.Landmark
import Highlighter.Pattern.Parser

/-! The outlines of parts: their lengths, their edges, and the landmarks and bytes that each of their
matches holds. Parts that follow one another have the landmarks of both, alternatives what they have in
common. -/

namespace Highlighter.Pattern

structure Outline where
  length : Distance := .zero
  edges : Edges := {}
  /-- A text at the start. -/
  head : Landmark := {}
  /-- A text farther on. -/
  inner : Landmark := {}
  /-- A text that is looked for ahead. -/
  ahead : Landmark := {}
  choice : ByteChoice := {}

namespace Outline

/-- Nothing yet, at a distance from the start. -/
def blank (distance : Distance) : Outline where
  head := { distance }
  ahead := { distance }
  choice := { distance }

def ofLength (length : Distance) : Outline := { length }

/-- A landmark is moved to the front of what follows an empty part, where its edges are known. -/
def placeAfter (edges : Edges) (length : Distance) (o : Outline) : Outline :=
  if length.isEmpty then
    let head :=
      if o.head.isEmpty then o.head
      else { o.head with edges := edges.append o.head.edges true o.length.isEmpty }
    let choice :=
      if o.choice.isEmpty || !o.choice.distance.isEmpty then o.choice
      else
        { o.choice with
          edges := { o.choice.edges with left := o.choice.edges.left ++ edges.left } }
    { o with head, choice }
  else o

/-- Joins the text at the start of what follows to a text that reaches its end. -/
def joinHead (a b : Outline) : Outline × Landmark :=
  let passed : Outline :=
    if b.length.isEmpty then a
    else
      { a with
        head := { a.head with reachesEnd := false }
        inner := { a.inner with reachesEnd := false } }
  if b.head.isEmpty then (passed, b.head)
  else if a.head.reachesEnd then ({ passed with head := (passed.head.append b.head).1 }, {})
  else if a.inner.reachesEnd then ({ passed with inner := (passed.inner.append b.head).1 }, {})
  else (passed, b.head)

/-- Takes a text that is looked for ahead as one that is there, as far as what follows goes at most.
Where that may go on for ever, the text is given up. -/
def takeAhead (a b : Outline) : Outline :=
  if a.ahead.isEmpty then if b.ahead.isEmpty then a else { a with ahead := b.ahead }
  else if b.length.isEmpty then a
  else
    match b.length.high with
    | none => { a with ahead := {} }
    | some length =>
      let ahead := a.ahead.cut length
      if ahead.distance.isEmpty then { a with ahead, head := a.head.better ahead }
      else { a with ahead, inner := a.inner.better ahead }

/-- Of two parts that follow one another. -/
def append (a b : Outline) : Outline :=
  let edges := a.edges.append b.edges a.length.isEmpty b.length.isEmpty
  let b := b.placeAfter edges a.length
  let (joined, head) := joinHead a b
  let joined := { joined with inner := (joined.inner.better head).better b.inner }
  { takeAhead joined b with
    edges
    choice := a.choice.better b.choice
    length := a.length.add b.length }

/-- Of one of two parts. -/
def either (a b : Outline) : Outline where
  length := a.length.either b.length
  edges := a.edges.inter b.edges
  head := a.head.either b.head
  inner := a.inner.either b.inner
  ahead := a.ahead.either b.ahead
  choice := a.choice.either b.choice

/-- Of a part that is repeated at least once. -/
def repeated (o : Outline) (r : Repetition) : Outline :=
  let head :=
    if !o.head.isEmpty && o.head.reachesEnd then Landmark.repeated o.head (r.low - 1) o.head
    else o.head
  let fixed := r.high == some r.low
  { o with
    head := { head with reachesEnd := head.reachesEnd && fixed }
    inner := { o.inner with reachesEnd := o.inner.reachesEnd && fixed && r.low ≤ 1 } }

end Outline

/-- The bytes of a code point. -/
def bytesOfCode (code : Nat) : Text.Bytes :=
  if code < 0x80 then [code.toUInt8]
  else
    let tail (shift : Nat) : UInt8 := (0x80 + code / Nat.pow 2 shift % 64).toUInt8
    if code < 0x800 then [(0xC0 + code / 64).toUInt8, tail 0]
    else if code < 0x10000 then [(0xE0 + code / 4096).toUInt8, tail 6, tail 0]
    else [(0xF0 + code / 262144).toUInt8, tail 12, tail 6, tail 0]

/-- One character of any kind. -/
def anyCharLength : Distance := ⟨1, some 4⟩

/-- The edge that an anchor is. -/
def Anchor.edges : Anchor → Edges
  | .lineStart => .atLeft .lineStart
  | .textStart => .atLeft .textStart
  | .searchStart => .atLeft .searchStart
  | .lineEnd => .atRight .lineEnd
  | .textEnd => .atRight .textEnd
  | .lastLineEnd => .atRight .lastLineEnd
  | .wordBoundary _ _ | .division _ _ => {}

namespace Node

/-- The length of a part. `group` answers for the groups that are referred to. -/
def byteLength (group : Nat → Distance) : Node → Distance
  | .text codes _ => .exactly (Parser.codesBytes codes)
  | .set _ | .word _ _ | .any _ => anyCharLength
  | .backref r =>
    if r.inside then .unknown
    else
      match r.groups.map group with
      | [] => .unknown
      | d :: others => others.foldl .either d
  | .enter n recursive => if recursive then .unknown else group n
  | .loop r body => if r.high == some 0 then .zero else (body.byteLength group).times r
  | .group _ _ body => body.byteLength group
  | .scoped _ body => body.byteLength group
  | .atomic _ body => body.byteLength group
  | .choose test yes no =>
    ((test.byteLength group).add (yes.byteLength group)).either (no.byteLength group)
  | .seq first rest => (first.byteLength group).add (rest.byteLength group)
  | .alt first rest _ => (first.byteLength group).either (rest.byteLength group)
  | _ => .zero

end Node

/-- The lengths of groups, which may refer to one another so many times over. -/
def groupByteLength (body? : Nat → Option Node) : Nat → Nat → Distance
  | 0, _ => .unknown
  | depth + 1, n =>
    match body? n with
    | some body => body.byteLength (groupByteLength body? depth)
    | none => .unknown

/-! ### Surveying -/

/-- The groups that were surveyed, each time anew. -/
abbrev Survey := StateM (List Nat)

/-- How often a group is surveyed at most. -/
def mostSurveys : Nat := 5

/-- What a survey makes use of: the outlines of called groups, the lengths of groups, and whether a
group is referred to. -/
structure Surroundings where
  enter : Nat → Distance → Survey Outline
  length : Nat → Distance
  isReferred : Nat → Bool

/-- A group that was surveyed often enough is not surveyed again. What a referred group holds need not
hold for each of its starts. -/
def surveyGroup (isReferred : Bool) (n : Nat) (body : Survey Outline) : Survey Outline := do
  modify (n :: ·)
  if mostSurveys < (← get).count n then return .ofLength .unknown
  else
    let o ← body
    let isAny (e : Edge) : Bool := e == .anyLine || e == .anyText
    if isReferred then
      return { o with
        edges := ⟨o.edges.left.filter (!isAny ·), o.edges.right.filter (!isAny ·)⟩ }
    else return o

/-- What has been surveyed before a part, of which it is the rest. -/
inductive Survey.Mode where
  | alone
  | after (o : Outline)
  | otherwise (o : Outline)

def Survey.Mode.finish (mode : Survey.Mode) (o : Outline) : Outline :=
  match mode with
  | .alone => o
  | .after before => before.append o
  | .otherwise others => others.either o

namespace Node

/-- The outline of a part that begins at a distance from the start of the match. -/
def survey (s : Surroundings) : Node → Distance → Survey.Mode → Survey Outline
  | .seq first rest, d, mode => do
    let before := match mode with
      | .after before => before
      | _ => .blank d
    let o ← first.survey s d .alone
    let whole ← rest.survey s (d.add o.length) (.after (before.append o))
    match mode with
    | .after _ => return whole
    | _ => return mode.finish whole
  | .alt first rest false, d, mode => do
    let o ← first.survey s d .alone
    match mode with
    | .otherwise others => rest.survey s d (.otherwise (others.either o))
    | _ => return mode.finish (← rest.survey s d (.otherwise o))
  | .alt first rest true, d, mode => do
    let o ← first.survey s d .alone
    return mode.finish (← rest.survey s d (.otherwise o))
  | .text codes _, d, mode =>
    let chars := codes.map bytesOfCode
    return mode.finish
      { Outline.blank d with
        length := .exactly chars.flatten.length
        head := .ofChars d chars
        choice := { distance := d, bytes := chars.flatten.take 1 } }
  | .set codes, d, mode =>
    if codes.ranges.all fun r => r.2 < 0x80 then
      let bytes := codes.ranges.flatMap fun r =>
        (List.range (r.2 + 1 - r.1)).map fun i => (r.1 + i).toUInt8
      return mode.finish
        { Outline.blank d with length := .exactly 1, choice := { distance := d, bytes } }
    else return mode.finish { Outline.blank d with length := anyCharLength }
  | .word _ _, d, mode => return mode.finish { Outline.blank d with length := anyCharLength }
  | .any _, d, mode => return mode.finish { Outline.blank d with length := anyCharLength }
  | .anchor a, d, mode => return mode.finish { Outline.blank d with edges := a.edges }
  | .behind negated _ _ _, d, mode =>
    let edges := if negated then {} else Edges.atLeft .behind
    return mode.finish { Outline.blank d with edges }
  | .ahead true _, d, mode =>
    return mode.finish { Outline.blank d with edges := .atRight .notAhead }
  | .ahead false body, d, mode => do
    let o ← body.survey s d .alone
    let ahead := if o.head.isEmpty then o.inner else o.head
    return mode.finish
      { Outline.blank d with
        ahead := if ahead.isEmpty then { distance := d } else { ahead with reachesEnd := false }
        choice := if o.choice.isEmpty then { distance := d } else o.choice }
  | .backref r, d, mode =>
    return mode.finish
      { Outline.blank d with length := (Node.backref r).byteLength s.length }
  | .enter n recursive, d, mode => do
    if recursive then return mode.finish { Outline.blank d with length := .unknown }
    else return mode.finish (← s.enter n d)
  | .loop r body, d, mode => do
    if r.high == some 0 then return mode.finish (.blank d)
    else
      let o ← body.survey s d .alone
      let part := if r.low == 0 then .blank d else o.repeated r
      let edge? : Option Edge :=
        match body with
        | .any lineFeed =>
          if r.high == none && r.greedy && d.isEmpty then
            some (if lineFeed then .anyText else .anyLine)
          else none
        | _ => none
      return mode.finish
        { part with
          length := o.length.times r
          edges := { part.edges with left := part.edges.left ++ edge?.toList } }
  | .group n _ body, d, mode => do
    return mode.finish (← surveyGroup (s.isReferred n) n (body.survey s d .alone))
  | .scoped _ body, d, mode => do return mode.finish (← body.survey s d .alone)
  | .atomic _ body, d, mode => do return mode.finish (← body.survey s d .alone)
  | .choose test yes no, d, mode => do
    match no with
    | .text [] _ => return mode.finish (.blank d)
    | no =>
      let first ← test.survey s d .alone
      let second ← yes.survey s (d.add first.length) .alone
      let chosen := ((Outline.blank d).append first).append second
      return mode.finish (chosen.either (← no.survey s d .alone))
  | _, d, mode => return mode.finish (.blank d)

end Node

/-- The outlines of groups, which may be called within one another so many times over. -/
def surveyCalled (body? : Nat → Option Node) (s : Surroundings) :
    Nat → Nat → Distance → Survey Outline
  | 0, _, _ => return .ofLength .unknown
  | depth + 1, n, d =>
    match body? n with
    | some body =>
      surveyGroup (s.isReferred n) n
        (body.survey { s with enter := surveyCalled body? s depth } d .alone)
    | none => return .ofLength .unknown

/-- The outline of a whole pattern with these groups, of which some are referred to. -/
def Outline.ofPattern (n : Node) (groups : List (Nat × Node)) (referred : List Nat) : Outline :=
  let body? (k : Nat) : Option Node := groups.lookup k
  let depth := groups.length + 1
  let base : Surroundings :=
    { enter := fun _ _ => return .ofLength .unknown
      length := groupByteLength body? depth
      isReferred := referred.contains }
  ((n.survey { base with enter := surveyCalled body? base depth } .zero .alone).run []).1

end Highlighter.Pattern

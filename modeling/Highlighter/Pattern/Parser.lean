import Highlighter.Pattern.Absent
import Highlighter.Pattern.CalloutText
import Highlighter.Pattern.Folding
import Highlighter.Pattern.Token

/-! Reading a pattern text. The reader goes from left to right, one part ahead, and stops at the first
fault it meets; what can only be judged with the whole pattern in view is judged afterwards. -/

namespace Highlighter.Pattern

namespace Parser

open Highlighter.Unicode (CodeSet)

/-! ### Parts without parentheses -/

/-- A line end of any kind, CR LF taken as one. -/
def lineEnding : Node :=
  .choose (.text [13, 10] false) .empty
    (.set (.ofRanges [(10, 13), (0x85, 0x85), (0x2028, 0x2029)]))

/-- A character with all that is not divided from it. -/
def cluster (opts : Options) : Node :=
  let joined := Node.seqOf [.anchor (.division true opts.wordDivisions), .any true]
  .atomic false (.seqOf [.any true, .loop { low := 0, high := none, greedy := true } joined])

def asciiFold : Parser Bool :=
  return ((← get).whole.map (·.asciiFold)).getD false

/-- A class in brackets. One with a single member is that character. -/
def bracketNode (opts : Options) (depth : Nat) : Parser Node := do
  let body ← classBody opts depth (2 * (← rest).length + 2)
  match body.codes.ranges, body.byte, body.negated with
  | [], some byte, _ => return .text [byte] opts.fold
  | [(low, high)], none, false =>
    if low == high then return .text [low] opts.fold
    else classNode body
  | _, _, _ => classNode body
where
  classNode (body : ClassBody) : Parser Node := do
    if opts.fold then return foldedClass (← asciiFold) body.codes body.negated
    else return .set (negate body.negated body.codes)

/-- A code that no character has. -/
def noCode : Nat := Unicode.lastCode + 1

/-- How many bytes a code point takes. -/
def codeBytes (code : Nat) : Nat :=
  if code < 0x80 then 1 else if code < 0x800 then 2 else if code < 0x10000 then 3 else 4

def codesBytes (codes : List Nat) : Nat := codes.foldr (fun code n => codeBytes code + n) 0

/-- The further bytes of a character, and the part after them. -/
def moreBytes (opts : Options) : Nat → Parser (List Nat × Token)
  | 0 => return ([], ← token opts)
  | count + 1 => do
    match ← token opts with
    | .byte value =>
      let (values, t) ← moreBytes opts count
      return (value :: values, t)
    | _ => fail .shortMultibyte

/-- A character whose first byte was written as a number, and the part after it. -/
def byteText (opts : Options) (lead : Nat) : Parser (Node × Token) := do
  let (tail, t) ← moreBytes opts (byteCount lead - 1)
  if isTailByte lead || 0xF8 ≤ lead || !tail.all isTailByte then fail .codePoint
  let code := if tail.isEmpty then lead else codeOfBytes lead tail
  return (.text [if codeBytes code == tail.length + 1 then code else noCode] opts.fold, t)

/-- Characters that follow one another, and the part after them. The fuel bounds their number. -/
def moreChars (opts : Options) : Nat → Token → Parser (List Nat × Token)
  | 0, t => return ([], t)
  | fuel + 1, t => do
    match t with
    | .char code =>
      let (codes, t) ← moreChars opts fuel (← token opts)
      return (code :: codes, t)
    | t => return ([], t)

def codeNode (opts : Options) (n : Nat) : Parser Node :=
  if Unicode.lastCode < n && n < 0xFFFFFFFE then fail .wideCharTooLarge
  else return .text [n] opts.fold

/-- A part that a single sign or escape stands for. -/
def simpleNode? (opts : Options) (depth : Nat) : Token → Option (Parser Node)
  | .code n => some (codeNode opts n)
  | .class codes => some (return .set codes)
  | .word negated => some (return .word negated opts.asciiWords)
  | .property negated braced => some (return .set (← property opts negated braced))
  | .bracket => some (bracketNode opts depth)
  | .any lineFeed => some (return .any lineFeed)
  | .anchor a => some (return .anchor a)
  | .backref r => some (return .backref r)
  | .call target => some (return .call target)
  | .keep => some (return .keep)
  | .lineEnding => some (return lineEnding)
  | .cluster => some (return cluster opts)
  | _ => none

/-- Whether an atom was a group without a meaning of its own, and whether it was hidden as the first
part of something absent. -/
inductive Grouping where
  | none
  | plain
  | hidden
  deriving DecidableEq, Repr

/-- The repetitions of a part, what stood before it, and the part after them. The fuel bounds their
number. -/
def repetitions (opts : Options) (grouping : Grouping) :
    Nat → Nat → List Node → Node → Token → Parser (List Node × Token)
  | 0, _, before, n, t => return (before ++ [n], t)
  | fuel + 1, depth, before, n, t => do
    match t with
    | .sign sign =>
      if n.isInvalidTarget then fail .invalidTarget
      let depth ← deeper depth
      let target := match grouping, n with
        | .hidden, .scoped _ inner => inner
        | _, n => n
      let parts ← judge (target.repeated (grouping != .none) sign)
      let t ← token opts
      repetitions opts (if grouping == .hidden then .plain else grouping) fuel depth
        (before ++ parts.dropLast) (parts.getLast?.getD n) t
    | t => return (before ++ [n], t)

/-! ### Heads of groups -/

inductive GroupHead where
  | capture (name : Option (List Char))
  /-- Groups without further meaning. -/
  | plain
  | atomic
  | look (behind negated : Bool)
  | absent
  | condition
  | options (opts : Options) (whole : Option WholeOptions)
  /-- Options for the rest of the enclosing group. -/
  | optionsOnly (opts : Options) (whole : Option WholeOptions)
  /-- A part that is complete. -/
  | complete (n : Node)

/-- Options after `(?` up to the colon or parenthesis that ends them. -/
def optionHead (negated : Bool) (opts : Options) (whole : Option WholeOptions) :
    List Char → Parser GroupHead
  | [] => fail .endInGroup
  | c :: s =>
    let wholly (opts : Options) (change : WholeOptions → WholeOptions) : Parser GroupHead :=
      if negated then fail .invalidOption
      else optionHead negated opts (some (change (whole.getD {}))) s
    match c with
    | ')' => do setRest s; return .optionsOnly opts whole
    | ':' => do setRest s; return .options opts whole
    | '-' => optionHead true opts whole s
    | 'i' => optionHead negated { opts with fold := !negated } whole s
    | 'm' => optionHead negated { opts with dotAll := !negated } whole s
    | 'x' => optionHead negated { opts with extended := !negated } whole s
    | 'W' => optionHead negated { opts with asciiWord := !negated } whole s
    | 'D' => optionHead negated { opts with asciiDigit := !negated } whole s
    | 'S' => optionHead negated { opts with asciiSpace := !negated } whole s
    | 'P' => optionHead negated { opts with asciiAll := !negated } whole s
    | 'y' =>
      if negated then fail .undefinedOption
      else
        match s with
        | [] | ['{'] | ['{', 'g'] | ['{', 'w'] => fail .endInGroup
        | '{' :: 'g' :: '}' :: left =>
          optionHead negated { opts with wordDivisions := false } whole left
        | '{' :: 'w' :: '}' :: left =>
          optionHead negated { opts with wordDivisions := true } whole left
        | _ => fail .undefinedOption
    | 'C' => wholly { opts with namedOnly := true } id
    | 'I' => wholly opts fun w => { w with asciiFold := true }
    | 'L' => wholly opts fun w => { w with longest := true }
    | _ => fail .undefinedOption

/-- The letters with which options may begin. -/
def optionLetters : List Char := ['-', 'i', 'm', 'x', 'W', 'D', 'S', 'P', 'y', 'C', 'I', 'L']

/-- Options of the whole pattern may be given once. -/
def setWhole (whole : Option WholeOptions) : Parser Unit := do
  if let some w := whole then
    if (← get).whole.isSome then fail .invalidOption
    modify fun r => { r with whole := some w }

/-- The head of a group after its parenthesis. -/
def groupHead (opts : Options) : Parser GroupHead := do
  match ← rest with
  | [] => fail .unmatchedOpen
  | '*' :: s => setRest s; return .complete (← namedCallout)
  | '?' :: s =>
    match s with
    | [] => fail .endInGroup
    | ':' :: t => setRest t; return .plain
    | '=' :: t => setRest t; return .look false false
    | '!' :: t => setRest t; return .look false true
    | '>' :: t => setRest t; return .atomic
    | '~' :: t => setRest t; return .absent
    | '(' :: t => setRest t; return .condition
    | '\'' :: t => setRest t; named '\''
    | '{' :: _ => setRest s; return .complete (← contentsCallout)
    | '<' :: t =>
      match t with
      | [] => fail .unmatchedOpen
      | '=' :: u => setRest u; return .look true false
      | '!' :: u => setRest u; return .look true true
      | _ => setRest t; named '>'
    | c :: _ => if optionLetters.contains c then optionHead false opts none s else fail .undefinedOption
  | _ => return if opts.namedOnly then .plain else .capture none
where
  named (close : Char) : Parser GroupHead := do
    let (_, name) ← groupName false close
    return .capture (some name)

/-! ### Conditions -/

/-- What a condition asks: for a group, for a callout, or for a pattern that is still to be read. -/
inductive Condition where
  | group (r : Reference)
  | callout (n : Node)
  | pattern

/-- The end of a reference that stands in delimiters of its own. -/
def closeCondition : Parser Unit := do
  unless ← accept ')' do fail .endInGroup

/-- A reference that stands in the parentheses alone. Where it cannot be read, a pattern stands
there. -/
def bareReference? : Parser (Option (Naming × List Char × Option Int)) := fun r =>
  match referenceName ')' r with
  | .ok (found, r) => .ok (some found, r)
  | .error _ => .ok (none, r)

def condition : Parser Condition := do
  match ← rest with
  | [] | [_] => fail .endInGroup
  | '<' :: s => setRest s; delimited '>'
  | '\'' :: s => setRest s; delimited '\''
  | '?' :: '{' :: s => setRest ('{' :: s); return .callout (← contentsCallout)
  | '*' :: s => setRest s; return .callout (← namedCallout)
  | c :: _ =>
    if c.isDigit || c == '-' || c == '+' then
      match ← bareReference? with
      | some (naming, text, level) => return .group (← reference false naming text level)
      | none => return .pattern
    else return .pattern
where
  delimited (close : Char) : Parser Condition := do
    let (naming, text, level) ← referenceName close
    let r ← reference false naming text level
    closeCondition
    return .group r

/-- A way without a condition that is written but empty, kept apart from one that is not written. -/
def writtenWay (n : Node) : Node :=
  match n with
  | .text [] _ => .scoped false n
  | n => n

/-- The ways of a condition: with it and without it. -/
def conditionWays : Node → Node × Node
  | .alt yes no false => (yes, writtenWay no)
  | yes => (yes, .empty)

/-! ### The pattern -/

def endsBranch (inGroup : Bool) : Token → Bool
  | .stop | .bar => true
  | .closing => inGroup
  | _ => false

mutual

/-- Alternatives up to the end of the group or of the pattern, from a part that was read. The fuel is
bounded by a multiple of the length of the text, as each round of these functions reads a part of it.
`hidden` keeps a first group apart. -/
def alternatives (opts : Options) (depth : Nat) (inGroup hidden : Bool) :
    Nat → Token → Parser Node
  | 0, _ => fail .nestedTooDeep
  | fuel + 1, t => do
    let depth ← deeper depth
    return .altOf (← ways opts depth inGroup hidden fuel t)
termination_by structural fuel _ => fuel

def ways (opts : Options) (depth : Nat) (inGroup hidden : Bool) :
    Nat → Token → Parser (List Node)
  | 0, _ => fail .nestedTooDeep
  | fuel + 1, t => do
    let inner ← deeper depth
    let (first, t) ← atom opts inner inGroup hidden fuel t
    let (parts, t) ← sequence opts inner inGroup fuel t
    let branch := Node.seqOf (joinTexts (first ++ parts))
    match t with
    | .bar => return branch :: (← ways opts depth inGroup false fuel (← token opts))
    | .stop => if inGroup then fail .unmatchedOpen else return [branch]
    | _ => return [branch]
termination_by structural fuel _ => fuel

/-- The parts up to the end of a branch, and what ends it. -/
def sequence (opts : Options) (depth : Nat) (inGroup : Bool) :
    Nat → Token → Parser (List Node × Token)
  | 0, _ => fail .nestedTooDeep
  | fuel + 1, t => do
    if endsBranch inGroup t then return ([], t)
    let (parts, t) ← atom opts depth inGroup false fuel t
    let (others, t) ← sequence opts depth inGroup fuel t
    return (parts.flatMap Node.items ++ others, t)
termination_by structural fuel _ => fuel

/-- One part with its repetitions, and the part after it. -/
def atom (opts : Options) (depth : Nat) (inGroup hidden : Bool) :
    Nat → Token → Parser (List Node × Token)
  | 0, _ => fail .nestedTooDeep
  | fuel + 1, t => do
    let repeats (grouping : Grouping) (n : Node) (t : Token) : Parser (List Node × Token) := do
      repetitions opts grouping ((← rest).length + 1) depth [] n t
    if endsBranch inGroup t then return ([.empty], t)
    match t with
    | .closing => fail .unmatchedClose
    | .sign _ => fail .missingTarget
    | .char _ =>
      let (codes, t) ← moreChars opts ((← rest).length + 2) t
      repeats .none (.text codes opts.fold) t
    | .byte lead =>
      let (n, t) ← byteText opts lead
      repeats .none n t
    | .opening =>
      match ← groupHead opts with
      | .optionsOnly inner whole =>
        setWhole whole
        let t ← token inner
        let body ← alternatives inner depth inGroup false fuel t
        return ([.scoped whole.isSome body], if inGroup then .closing else .stop)
      | .plain =>
        let body ← closed opts depth fuel
        let t ← token opts
        if hidden then repeats .hidden (.scoped false body) t else repeats .plain body t
      | head =>
        let n ← groupNode opts depth fuel head
        repeats .none n (← token opts)
    | t =>
      match simpleNode? opts depth t with
      | some part =>
        let n ← part
        repeats .none n (← token opts)
      | none => return ([.empty], t)
termination_by structural fuel _ => fuel

/-- The body of a group and its closing parenthesis. -/
def closed (opts : Options) (depth : Nat) : Nat → Parser Node
  | 0 => fail .nestedTooDeep
  | fuel + 1 => do alternatives opts depth true false fuel (← token opts)
termination_by structural fuel => fuel

/-- A group after its head. -/
def groupNode (opts : Options) (depth : Nat) : Nat → GroupHead → Parser Node
  | 0, _ => fail .nestedTooDeep
  | fuel + 1, head => do
    match head with
    | .complete n => return n
    | .plain => closed opts depth fuel
    | .atomic => return .atomic false (← closed opts depth fuel)
    | .look false negated => return .ahead negated (← closed opts depth fuel)
    | .look true negated => return .behind negated 0 none (← closed opts depth fuel)
    | .capture name =>
      let n ← openGroup name
      let body ← closed opts depth fuel
      closeGroup n
      return .group n name.isSome body
    | .options inner whole =>
      setWhole whole
      return .scoped whole.isSome (← closed inner depth fuel)
    | .optionsOnly _ _ => fail .undefinedOption
    | .absent =>
      match ← rest with
      | [] => fail .unmatchedOpen
      | ['|'] => fail .unmatchedOpen
      | '|' :: ')' :: s => setRest s; absentClear
      | '|' :: s =>
        setRest s
        match ← alternatives opts depth true true fuel (← token opts) with
        | .alt absent expression false => absentWithin absent expression
        | absent => absentCutter absent
      | _ => absentText (← alternatives opts depth true true fuel (← token opts))
    | .condition =>
      let test ← condition
      let testNode ← match test with
        | .group r => pure (Node.isSet r)
        | .callout n => pure n
        | .pattern => closed opts depth fuel
      match ← rest with
      | [] => fail .endInGroup
      | ')' :: s =>
        match test with
        | .group _ => setRest s; return testNode
        | _ => fail .conditionSyntax
      | '|' :: s =>
        setRest s
        return .choose testNode .empty (writtenWay (← closed opts depth fuel))
      | _ =>
        let (yes, no) := conditionWays (← closed opts depth fuel)
        return .choose testNode yes no
termination_by structural fuel _ => fuel

end

/-- Whether options of the whole pattern stand at its head, and hold for all of it. -/
def wholeAtHead : Node → Bool
  | .scoped whole _ => whole
  | .seq first _ =>
    match first with
    | .scoped _ _ => false
    | n => wholeAtHead n
  | _ => false

def pattern (s : List Char) : Except PatternError (Node × Reading) := do
  let read : Parser Node := do
    alternatives {} 0 false false (8 * s.length + 8) (← token {})
  let (n, r) ← read.run { rest := s }
  if r.whole.isSome && !wholeAtHead n then throw .invalidOption
  checkTags r.callouts
  return (n, r)

end Parser

end Highlighter.Pattern

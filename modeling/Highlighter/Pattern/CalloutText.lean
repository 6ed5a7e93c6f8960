import Highlighter.Pattern.Reading

/-! Callouts as they are written: with contents in braces, or by name with arguments. -/

namespace Highlighter.Pattern.Parser

/-- What an argument may be. -/
inductive ArgumentType where
  | number
  | numberOrTag
  | char
  | string
  deriving DecidableEq, Repr

inductive Argument where
  | value (v : CounterValue)
  | char (c : Char)
  | string (s : List Char)
  deriving DecidableEq, Repr

/-- Names and tags are made of letters, digits and underscores, and start with no digit. -/
def isCalloutName : List Char → Bool
  | [] => false
  | c :: rest => isNameChar c && !c.isDigit && rest.all isNameChar
where
  isNameChar (c : Char) : Bool := c.isAlphanum || c == '_'

/-- The text up to a closing bracket, which may be missing; without it the last character is left
out. -/
def tagText (s : List Char) : List Char × List Char :=
  let body := s.takeWhile (· != ']')
  match s.drop body.length with
  | [] => (body.dropLast, [])
  | _ :: left => (body, left)

/-- A tag after its bracket, and the character after it. -/
def tag : Parser (List Char × Char) := do
  let s ← rest
  if s.isEmpty then fail .endInGroup
  let (name, left) := tagText s
  unless isCalloutName name do fail .calloutTag
  setRest left
  return (name, ← next .endInGroup)

/-- Registers a callout, whose tag must be new. -/
def addCallout (c : Callout) : Parser Node := do
  let r ← get
  if let some name := c.tag then
    if r.callouts.any (·.tag == some name) then fail (.repeatedName name)
  set { r with callouts := r.callouts ++ [c] }
  return .callout r.callouts.length

/-! ### Contents -/

/-- Skips contents up to so many closing braces. -/
def afterContents? (nesting : Nat) : Nat → List Char → Option (List Char)
  | _, [] => none
  | closed, c :: s =>
    if c == '}' then
      if closed + 1 == nesting then some s else afterContents? nesting (closed + 1) s
    else afterContents? nesting 0 s

/-- A callout with contents, after `(?`. -/
def contentsCallout : Parser Node := do
  let s ← rest
  let nesting := (s.takeWhile (· == '{')).length
  match afterContents? nesting 0 (s.drop nesting) with
  | none => fail .calloutPattern
  | some left =>
    setRest left
    let c ← next .endInGroup
    let (name, c) ← if c == '[' then do
        let (name, c) ← tag
        pure (some name, c)
      else pure (none, c)
    let c ← if c == 'X' || c == '<' || c == '>' then next .endInGroup else pure c
    unless c == ')' do fail .calloutPattern
    addCallout { action := .contents, tag := name }

/-! ### Names -/

/-- The most bytes of an argument. -/
def argumentBytes : Nat := 128

/-- An argument up to a comma or the closing brace: its characters, whether one of them is escaped,
and the character that ends it. -/
def argumentText : List Char → Option (List Char × Bool × Char × List Char)
  | [] => none
  | '\\' :: c :: s =>
    (argumentText s).map fun (text, _, last, left) =>
      if c == '\\' || c == '}' || c == ',' then (c :: text, true, last, left)
      else ('\\' :: c :: text, true, last, left)
  | c :: s =>
    if c == '}' || c == ',' then some ([], false, c, s)
    else (argumentText s).map fun (text, escaped, last, left) => (c :: text, escaped, last, left)

/-- The arguments up to the closing brace; empty ones are left out. The fuel bounds their number. -/
def argumentTexts : Nat → List Char → Except PatternError (List (List Char × Bool) × List Char)
  | 0, _ => .error .calloutPattern
  | fuel + 1, s =>
    match argumentText s with
    | none => .error .calloutPattern
    | some (text, escaped, last, left) => do
      if last == '}' then return (if text.isEmpty then [] else [(text, escaped)], left)
      else
        let (others, left) ← argumentTexts fuel left
        return (if text.isEmpty then others else (text, escaped) :: others, left)

/-- A whole number with a sign. -/
def argumentNumber? (text : List Char) : Option Int :=
  let (negative, digits) := match text with
    | '-' :: ds => (true, ds)
    | '+' :: ds => (false, ds)
    | ds => (false, ds)
  if digits.isEmpty || !digits.all Char.isDigit then none
  else
    let (n, _, _) := decimal digits
    if Nat.pow 2 63 ≤ n then none else some (if negative then -(n : Int) else n)

def argument (type : ArgumentType) (text : List Char) (escaped : Bool) :
    Except PatternError Argument :=
  if argumentBytes < Text.byteLength text then .error .calloutArgument
  else
    match type with
    | .number =>
      match argumentNumber? text with
      | some n => .ok (.value (.number n))
      | none => .error .calloutArgument
    | .numberOrTag =>
      match argumentNumber? text with
      | some n => .ok (.value (.number n))
      | none =>
        if escaped || !isCalloutName text then .error .calloutTag else .ok (.value (.tag text))
    | .char =>
      match text with
      | [c] => .ok (.char c)
      | _ => .error .calloutArgument
    | .string => .ok (.string text)

def argumentList : List ArgumentType → List (List Char × Bool) → Except PatternError (List Argument)
  | _, [] => .ok []
  | [], _ :: _ => .error .calloutArgument
  | type :: types, (text, escaped) :: texts => do
    return (← argument type text escaped) :: (← argumentList types texts)

/-- A callout by name: what its arguments may be, how many of them may be left out, and what it does. -/
structure CalloutForm where
  types : List ArgumentType
  optional : Nat
  action : List Argument → CalloutAction

def charOr (default : Char) : Option Argument → Char
  | some (.char c) => c
  | _ => default

def valueOr (default : CounterValue) : Option Argument → CounterValue
  | some (.value v) => v
  | _ => default

def numberOr (default : Int) : Option Argument → Int
  | some (.value (.number n)) => n
  | _ => default

def textOf : Option Argument → List Char
  | some (.string s) => s
  | _ => []

def calloutForms : List (String × CalloutForm) :=
  [("FAIL", ⟨[], 0, fun _ => .fail⟩),
    ("MISMATCH", ⟨[], 0, fun _ => .mismatch⟩),
    ("SKIP", ⟨[], 0, fun _ => .skip⟩),
    ("MAX", ⟨[.numberOrTag, .char], 1, fun args =>
      .limit (valueOr (.number 0) args[0]?) (charOr 'X' args[1]?)⟩),
    ("ERROR", ⟨[.number], 1, fun args => .error (numberOr (-3) args[0]?)⟩),
    ("COUNT", ⟨[.char], 1, fun args => .count (charOr '>' args[0]?) false⟩),
    ("TOTAL_COUNT", ⟨[.char], 1, fun args => .count (charOr '>' args[0]?) true⟩),
    ("CMP", ⟨[.numberOrTag, .string, .numberOrTag], 0, fun args =>
      .compare (valueOr (.number 0) args[0]?) (textOf args[1]?) (valueOr (.number 0) args[2]?)⟩)]

/-- A callout by name, after `(*`. -/
def namedCallout : Parser Node := do
  let s ← rest
  let isEnd (c : Char) : Bool := c == ')' || c == '[' || c == '{'
  let name := s.takeWhile (!isEnd ·)
  match s.drop name.length with
  | [] => fail .calloutPattern
  | c :: left =>
    unless isCalloutName name do fail .calloutName
    setRest left
    let (label, c) ← if c == '[' then do
        let (label, c) ← tag
        pure (some label, c)
      else pure (none, c)
    let hasArguments := c == '{'
    let (texts, left) ← if hasArguments then do
        let s ← rest
        if s.isEmpty then fail .endInGroup
        judge (argumentTexts 4 s)
      else pure ([], ← rest)
    match calloutForms.lookup (String.ofList name) with
    | none => fail .unknownCallout
    | some form =>
      let args ← judge (argumentList form.types texts)
      setRest left
      let c ← if hasArguments then next .endInGroup else pure c
      if form.types.length < args.length || args.length + form.optional < form.types.length then
        fail .calloutArgument
      unless c == ')' do fail .calloutPattern
      addCallout { action := form.action args, tag := label }

/-- The tags that arguments refer to. -/
def referredTags : CalloutAction → List (List Char)
  | .limit most _ => tags most
  | .compare left _ right => tags left ++ tags right
  | _ => []
where
  tags : CounterValue → List (List Char)
    | .tag name => [name]
    | .number _ => []

/-- Every tag that is referred to must be borne by some callout. -/
def checkTags (callouts : List Callout) : Except PatternError Unit :=
  let known := callouts.filterMap (·.tag)
  if callouts.all fun c => (referredTags c.action).all known.contains then .ok ()
  else .error .calloutTag

end Highlighter.Pattern.Parser

import Highlighter.Pattern.Reading
import Highlighter.Unicode.Property

/-! Names and numbers of groups, as definitions, references and calls write them. -/

namespace Highlighter.Pattern.Parser

/-- How a group is named. -/
inductive Naming where
  | absolute (n : Nat)
  /-- Counted from the groups met so far. -/
  | relative (n : Int)
  | name
  deriving DecidableEq, Repr

/-- What begins a name. -/
inductive NameStart where
  | digit
  | sign (negative : Bool)
  | word
  | other
  deriving DecidableEq, Repr

/-- Signs and fractions of the first 256 characters that count as parts of words in names. -/
def extraWordChars : List Char := ['\xb2', '\xb3', '\xb9', '\xbc', '\xbd', '\xbe']

def nameStart (c : Char) : NameStart :=
  if c.isDigit then .digit
  else if c == '-' then .sign true
  else if c == '+' then .sign false
  else if Unicode.isWord c || extraWordChars.contains c then .word
  else .other

/-- The characters before the first at which reading stops, and the rest from there. Where there is
none, the last character is no part of the name. -/
def cutName (stops : Char → Bool) (s : List Char) : List Char × List Char :=
  let body := s.takeWhile (!stops ·)
  match s.drop body.length with
  | [] => (body.dropLast, [])
  | rest => (body, rest)

/-- The text shown for a name that begins badly: up to its end, which is included where nothing
follows it. -/
def badName (stops : Char → Bool) (first : Char) (tail : List Char) : List Char :=
  let (body, rest) := cutName stops tail
  first :: (if rest.length ≤ 1 then tail else body)

def numbered (start : NameStart) (digits : List Char) : Except PatternError (Option Naming) :=
  let (n, _, _) := decimal digits
  if greatestNumber < n then .error .numberTooLarge
  else
    match start with
    | .sign negative =>
      if n == 0 then .ok none else .ok (some (.relative (if negative then -(n : Int) else n)))
    | _ => .ok (some (.absolute n))

/-- A name up to its closing character, for a definition or a call. -/
def groupName (isCall : Bool) (close : Char) : Parser (Naming × List Char) := do
  let s ← rest
  let stops (c : Char) : Bool := c == close || c == ')'
  match s with
  | [] => fail .emptyGroupName
  | c :: tail =>
    if c == close then fail .emptyGroupName
    let start := nameStart c
    if start == .other then fail (.groupNameChar (badName stops c tail))
    if start != .word && !isCall then fail (.groupName (badName stops c tail))
    let (body, after) := cutName stops tail
    let text := c :: body
    let digits := match start with
      | .digit => text
      | _ => body
    let isNumber := start != .word && body.all Char.isDigit
    if isNumber && digits.isEmpty && !after.isEmpty then fail (.groupName text)
    match after with
    | d :: left =>
      if d != close then fail (.groupName text)
      if isNumber then
        match ← judge (numbered start digits) with
        | some n => setRest left; return (n, text)
        | none => fail (.groupName text)
      else
        setRest left
        return (.name, text)
    | [] => fail (.groupName text)

/-- The level after a name: a sign and digits, and the closing character. -/
def nameLevel (close : Char) (whole : List Char) (negative : Bool) (s : List Char) :
    Except PatternError (Int × List Char) :=
  match s with
  | [] => .error (.groupNameChar whole.dropLast)
  | _ =>
    let (n, count, after) := decimal s
    if count == 0 then .error (.groupName whole)
    else if greatestNumber < n then .error .numberTooLarge
    else
      match after with
      | d :: left =>
        if d == close then .ok (if negative then -(n : Int) else n, left)
        else .error (.groupName whole)
      | [] => .error (.groupName whole)

/-- A name up to its closing character, perhaps with a level, for a reference. -/
def referenceName (close : Char) : Parser (Naming × List Char × Option Int) := do
  let s ← rest
  let stops (c : Char) : Bool := c == close || c == ')' || c == '+' || c == '-'
  match s with
  | [] => fail .emptyGroupName
  | c :: tail =>
    if c == close then fail .emptyGroupName
    let start := nameStart c
    let (body, after) := cutName stops tail
    let text := c :: body
    if start == .other then fail (.groupNameChar text)
    let digits := match start with
      | .digit => text
      | _ => body
    let isNumber := start != .word
    if isNumber && !(body.all Char.isDigit) then fail (.groupName text)
    if isNumber && digits.isEmpty && !after.isEmpty then fail (.groupName text)
    let (level, left) ← match after with
      | [] => fail (if tail.isEmpty && isNumber && !c.isDigit then .groupNameChar s else .groupName s)
      | d :: left =>
        if d == close then pure (none, left)
        else if d == ')' then fail (.groupName s)
        else
          let (level, left) ← judge (nameLevel close s (d == '-') left)
          pure (some level, left)
    if isNumber then
      match ← judge (numbered start digits) with
      | some n => setRest left; return (n, text, level)
      | none => fail (.groupName text)
    else
      setRest left
      return (.name, text, level)

/-- The groups of a name, the last defined first. -/
def namedGroups (name : List Char) : Parser (List Nat) := do
  match (← get).names.lookup name with
  | some numbers => return numbers
  | none => fail (.undefinedName name)

/-- The absolute number of a group that is counted from those met so far. -/
def absoluteNumber (groups : Nat) : Naming → Int
  | .absolute n => n
  | .relative n => if 0 < n then groups + n else groups + 1 + n
  | .name => 0

/-- A reference to a name or number. -/
def reference (fold : Bool) (naming : Naming) (text : List Char) (level : Option Int) :
    Parser Reference := do
  let r ← get
  let inside (groups : List Nat) : Bool := groups.any r.opened.contains
  match naming with
  | .name =>
    let groups ← namedGroups text
    return { groups, byName := true, level, fold, inside := inside groups }
  | _ =>
    let n := absoluteNumber r.groups naming
    if n ≤ 0 then fail .backref
    return { groups := [n.toNat], byName := false, level, fold, inside := inside [n.toNat] }

/-- The group that a call names. -/
def callTarget (naming : Naming) (text : List Char) : Parser CallTarget := do
  match naming with
  | .name => return .name text
  | _ =>
    let n := absoluteNumber (← get).groups naming
    if n < 0 then fail (.undefinedGroup text)
    return .number n.toNat text

/-- The next group number, under a name if it has one. -/
def openGroup (name : Option (List Char)) : Parser Nat := do
  let r ← get
  let n := r.groups + 1
  if 32767 < n then fail .tooManyGroups
  let names := match name with
    | none => r.names
    | some name =>
      match r.names.lookup name with
      | some _ => r.names.map fun e => if e.1 == name then (name, n :: e.2) else e
      | none => r.names ++ [(name, [n])]
  set { r with groups := n, opened := n :: r.opened, names }
  return n

def closeGroup (n : Nat) : Parser Unit :=
  modify fun r => { r with opened := r.opened.erase n }

end Highlighter.Pattern.Parser

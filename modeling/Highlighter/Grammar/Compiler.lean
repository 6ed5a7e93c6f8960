import Highlighter.Grammar.Basic
import Highlighter.Grammar.Engine

/-! Making rules ready for use: includes are followed, pattern lists flattened, patterns read. Rules
are made ready when they are first needed, and what was made is kept, together with the flattened
lists. A list that is asked for while it is being flattened is taken as empty. -/

namespace Highlighter.Grammar

open Highlighter.Pattern (PatternError Regex)

/-- A rule that starts by a pattern, with that pattern's text. -/
structure Candidate where
  pattern : Str
  rule : Rule
  deriving Inhabited

/-- Candidates whose patterns were read. -/
structure Choice where
  candidates : List Candidate
  regexes : List Regex
  deriving Inhabited

/-- What a rule does once it is ready. -/
inductive Form where
  /-- Offers its patterns and has no extent of its own. -/
  | patternsOnly (choice : Choice)
  /-- Covers one match. -/
  | single (captures : Captures)
  /-- Covers what lies between two matches, and them. -/
  | beginEnd (contentName : Scope) (beginCaptures endCaptures : Captures) (ending : Str)
      (choice : Choice)
  /-- Goes on over all lines that start with a match. -/
  | beginWhile (contentName : Scope) (beginCaptures whileCaptures : Captures) (condition : Str)
      (choice : Choice)
  deriving Inhabited

/-- All captures of a rule. -/
def Form.captures : Form → Captures
  | .patternsOnly _ => []
  | .single captures => captures
  | .beginEnd _ beginCaptures endCaptures _ _ => beginCaptures ++ endCaptures
  | .beginWhile _ beginCaptures whileCaptures _ _ => beginCaptures ++ whileCaptures

/-- The rules that are offered while a rule is on top. -/
def Form.choice? : Form → Option Choice
  | .patternsOnly choice => some choice
  | .single _ => none
  | .beginEnd _ _ _ _ choice => some choice
  | .beginWhile _ _ _ _ choice => some choice

/-- A rule made ready; only the root has no document rule behind it. -/
structure Compiled where
  origin : Option RuleId
  name : Scope
  form : Form
  deriving Inhabited

/-- Why tokenizing stops without an answer. -/
inductive Failure where
  | pattern (e : PatternError)
  /-- A pattern cannot be written in bytes. -/
  | unencodable
  /-- A rule that only offers patterns was to cover a match. -/
  | startedPatterns
  /-- A rule that covers one match was to be searched. -/
  | searchedSingle
  /-- A rule that needs its own match was opened without one. -/
  | noEnding
  /-- A group begins before any text of its match was covered. -/
  | noRegion
  /-- A template refers to a group that its pattern lacks. -/
  | noGroup
  /-- The main grammar is not found under the scope it gives itself. -/
  | noBase
  /-- Captures within captures go deeper than is allowed. -/
  | tooDeep
  /-- A line is never finished. -/
  | endless
  deriving DecidableEq, Repr

/-- A pattern list is known by its grammar and its rules. -/
structure ListKey where
  grammar : Nat
  rules : List RuleId
  deriving DecidableEq, Repr

structure Compiler where
  library : Library
  lists : List (ListKey × List Candidate) := []
  /-- The number of the grammar in which each rule met so far is read. -/
  homes : List (RuleId × Nat) := []
  compiled : List (RuleId × Compiled) := []
  /-- Includes that lead nowhere, in the order in which they were met. -/
  missing : List Str := []
  deriving Inhabited

/-- What a step leaves behind stays even where it fails. -/
abbrev Compile := ExceptT Failure (StateM Compiler)

/-! ### Includes -/

/-- Where an include leads. -/
inductive Target where
  | rules (grammar : Grammar) (rules : List Rule)
  | missing (what : Str)
  | noBase

/-- The text before the first hash and the text after it. -/
def splitReference (reference : Str) : Str × Str :=
  let cs := reference.toList
  let scope := cs.takeWhile (· != .char '#')
  (Str.ofList scope, Str.ofList ((cs.drop scope.length).drop 1))

/-- A rule of the grammar's repository. -/
def repositoryTarget (g : Grammar) (key : Str) : Target :=
  match g.repository.lookup key with
  | some rule => .rules g [rule]
  | none => .missing (g.scopeName ++ "#" ++ key)

/-- An include is resolved in the grammar in which it is written. -/
def resolveInclude (l : Library) (g : Grammar) (reference : Str) : Target :=
  if reference == "$self" then .rules g g.patterns
  else if reference == "$base" then
    match l.base? with
    | some base => .rules base base.patterns
    | none => .noBase
  else
    match reference.toList with
    | .char '#' :: key => repositoryTarget g (Str.ofList key)
    | _ =>
      let (scope, key) := splitReference reference
      match l.find? scope with
      | none => .missing scope
      | some other => if key == "" then .rules other other.patterns else repositoryTarget other key

/-! ### Pattern lists -/

def noteMissing (what : Str) : Compile Unit :=
  modify fun c => if c.missing.contains what then c else { c with missing := c.missing ++ [what] }

def setHome (rule : Rule) (g : Grammar) : Compile Unit :=
  modify fun c => { c with homes := (rule.id, g.number) :: c.homes }

def storeList (key : ListKey) (candidates : List Candidate) : Compile Unit :=
  modify fun c => { c with lists := (key, candidates) :: c.lists }

/-- The candidates of one rule of a list; `lists` flattens the lists it leads to. -/
def contribution (lists : Grammar → List Rule → Compile (List Candidate)) (g : Grammar)
    (rule : Rule) : Compile (List Candidate) := do
  match rule.include with
  | some reference =>
    match resolveInclude (← get).library g reference with
    | .rules other rules => lists other rules
    | .missing what => noteMissing what; return []
    | .noBase => throw .noBase
  | none =>
    match rule.matchPattern, rule.beginPattern with
    | some pattern, _ => setHome rule g; return [⟨pattern, rule⟩]
    | none, some pattern => setHome rule g; return [⟨pattern, rule⟩]
    | none, none => if rule.patterns.isEmpty then return [] else lists g rule.patterns

def listKey (g : Grammar) (rules : List Rule) : ListKey := ⟨g.number, rules.map (·.id)⟩

/-- Flattens a pattern list. Each level of the recursion stores a list that was not stored before,
so the number of lists there can be bounds the fuel. A limit on calls within calls, which a deep recursion meets
before, is left out. -/
def flatten : Nat → Grammar → List Rule → Compile (List Candidate)
  | 0, _, _ => return []
  | fuel + 1, g, rules => do
    let key := listKey g rules
    match (← get).lists.lookup key with
    | some candidates => return candidates
    | none =>
      storeList key []
      let parts ← rules.mapM (contribution (flatten fuel) g)
      let candidates := parts.flatten
      storeList key candidates
      return candidates

/-- More than there are pattern lists: one per grammar, one per rule and one per repository entry. -/
def Library.listBound (l : Library) : Nat := 2 * l.ruleCount + l.grammars.length + 1

def candidatesOf (g : Grammar) (rules : List Rule) : Compile (List Candidate) := do
  flatten (Library.listBound (← get).library) g rules

/-! ### Rules -/

/-- The answer of a pattern, or its fault. -/
def answer {α : Type} (x : Except PatternError α) : Compile α :=
  match x with
  | .ok a => return a
  | .error e => throw (.pattern e)

def readPattern (engine : Engine) (source : Str) : Compile Regex :=
  match source.text? with
  | some text => answer (engine.read text)
  | none => throw .unencodable

/-- Reads the patterns of candidates. The longest match cannot be asked of one among several. -/
def choiceOf (engine : Engine) (candidates : List Candidate) : Compile Choice := do
  let regexes ← candidates.mapM fun c => readPattern engine c.pattern
  if regexes.any (·.program.longest) then throw (.pattern .invalidArgument)
  return ⟨candidates, regexes⟩

def setHomes (captures : Captures) (g : Grammar) : Compile Unit :=
  captures.forM fun c => setHome c.2 g

/-- A rule that has no match of its own, with the choice of its patterns. -/
def Compiled.ofChoice (rule : Rule) (choice : Choice) : Compiled where
  origin := rule.id
  name := rule.name
  form :=
    match rule.beginPattern, rule.endPattern, rule.whilePattern with
    | some _, some ending, _ =>
      .beginEnd rule.contentName rule.beginCaptures rule.endCaptures ending choice
    | some _, none, some condition =>
      .beginWhile rule.contentName rule.beginCaptures rule.whileCaptures condition choice
    | _, _, _ => .patternsOnly choice

/-- Makes a rule ready in a grammar. Its captures are met there. -/
def compileIn (engine : Engine) (g : Grammar) (rule : Rule) : Compile Compiled := do
  let compiled ←
    if rule.matchPattern.isSome then pure ⟨rule.id, rule.name, .single rule.captures⟩
    else do
      let choice ← choiceOf engine (← candidatesOf g rule.patterns)
      pure (Compiled.ofChoice rule choice)
  setHomes compiled.form.captures g
  return compiled

/-- The grammar in which a rule is read: the one it was met in. -/
def Compiler.homeOf (c : Compiler) (base : Grammar) (rule : Rule) : Grammar :=
  ((c.homes.lookup rule.id).bind c.library.byNumber?).getD base

/-- The rule made ready, in the grammar it was met in. The base must exist even where it is not
needed. -/
def compileRule (engine : Engine) (rule : Rule) : Compile Compiled := do
  let c ← get
  match c.compiled.lookup rule.id with
  | some compiled => return compiled
  | none =>
    match c.library.base? with
    | none => throw .noBase
    | some base =>
      let compiled ← compileIn engine (c.homeOf base rule) rule
      modify fun c => { c with compiled := (rule.id, compiled) :: c.compiled }
      return compiled

/-- The rule that holds the patterns of the main grammar. -/
def compileRoot (engine : Engine) (g : Grammar) : Compile Compiled := do
  return ⟨none, [g.scopeName], .patternsOnly (← choiceOf engine (← candidatesOf g g.patterns))⟩

end Highlighter.Grammar

import Highlighter.Text.Str

/-! Grammars: rules that name regions of text by patterns, in a document that may refer to its own
rules by key and to other grammars by scope. What a tokenizer says by them about the characters of a document
are lexical tokens. -/

namespace Highlighter.Grammar

/-- A scope stack, or the names a rule adds to one. -/
abbrev Scope := List Str

/-- A rule is known by the grammar whose document holds it and by its place there. -/
structure RuleId where
  grammar : Nat
  place : List Nat
  deriving DecidableEq, Repr, Inhabited

structure Rule where
  id : RuleId
  name : Scope := []
  matchPattern : Option Str := none
  beginPattern : Option Str := none
  endPattern : Option Str := none
  whilePattern : Option Str := none
  contentName : Scope := []
  captures : List (Nat × Rule) := []
  beginCaptures : List (Nat × Rule) := []
  endCaptures : List (Nat × Rule) := []
  whileCaptures : List (Nat × Rule) := []
  «include» : Option Str := none
  patterns : List Rule := []
  deriving Inhabited

abbrev Captures := List (Nat × Rule)

/-- Characters `start` to `stop` of a line with their scope stack. Those of a tokenizer lie within
their line; others may have any bounds. -/
structure Token where
  line : Int
  start : Int
  stop : Int
  scopes : Scope
  deriving DecidableEq, Repr

end Highlighter.Grammar

namespace Highlighter

/-- A grammar document. Its number tells it from all others that are loaded with it. -/
structure Grammar where
  number : Nat
  scopeName : Str
  patterns : List Grammar.Rule
  repository : List (Str × Grammar.Rule)
  deriving Inhabited

namespace Grammar

mutual

/-- How many rules there are in a rule, itself counted. -/
def Rule.count : Rule → Nat
  | ⟨_, _, _, _, _, _, _, a, b, c, d, _, patterns⟩ =>
    1 + countCaptures a + countCaptures b + countCaptures c + countCaptures d + countAll patterns

def countAll : List Rule → Nat
  | [] => 0
  | r :: rs => r.count + countAll rs

def countCaptures : List (Nat × Rule) → Nat
  | [] => 0
  | c :: cs => c.2.count + countCaptures cs

end

def ruleCount (g : Grammar) : Nat := countAll g.patterns + countAll (g.repository.map (·.2))

end Grammar

/-- The grammars of a tokenizer under their scopes, and the scope of the one it starts with. -/
structure Library where
  main : Str
  grammars : List (Str × Grammar)
  deriving Inhabited

namespace Library

def find? (l : Library) (scope : Str) : Option Grammar := l.grammars.lookup scope

def mainGrammar? (l : Library) : Option Grammar := l.find? l.main

/-- The grammar called the base: it is looked up by the scope that the main grammar gives itself. -/
def base? (l : Library) : Option Grammar := do l.find? (← l.mainGrammar?).scopeName

def byNumber? (l : Library) (n : Nat) : Option Grammar :=
  (l.grammars.find? (·.2.number == n)).map (·.2)

def ruleCount (l : Library) : Nat := l.grammars.foldr (fun g n => g.2.ruleCount + n) 0

end Library

end Highlighter

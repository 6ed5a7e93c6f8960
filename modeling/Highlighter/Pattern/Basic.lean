import Highlighter.Pattern.Fault
import Highlighter.Unicode.CodeSet

/-! Patterns as trees. A pattern is a tree of parts, each of which matches at some places of a text and
reads a piece of it. -/

namespace Highlighter.Pattern

open Highlighter.Unicode (CodeSet)

inductive Anchor where
  /-- The start of the text, or after a line feed that is not its last character. -/
  | lineStart
  /-- Before a line feed, or the end of the text. -/
  | lineEnd
  | textStart
  | textEnd
  /-- The end of the text, or before a line feed that ends it. -/
  | lastLineEnd
  /-- Where the search began. -/
  | searchStart
  | wordBoundary (negated ascii : Bool)
  /-- Where text may be divided, into clusters or into words. -/
  | division (negated words : Bool)
  deriving DecidableEq, Repr

/-- Groups referred to, of which one that is set is taken: the one that was defined last. -/
structure Reference where
  groups : List Nat
  byName : Bool
  /-- The call level, counted from the level of the reference. -/
  level : Option Int
  fold : Bool
  /-- Whether the reference stands inside one of its groups. -/
  inside : Bool
  deriving DecidableEq, Repr

/-- The group that a call names. -/
inductive CallTarget where
  /-- By its number, with the text that was written. -/
  | number (n : Nat) (text : List Char)
  | name (text : List Char)
  deriving DecidableEq, Repr

/-- Whether a round of a repetition may read nothing, and what is compared when it did. -/
inductive Emptiness where
  /-- Every round reads something. -/
  | never
  /-- Only the place is compared. -/
  | place
  /-- The spans of groups are compared too. -/
  | spans
  /-- The round may call itself. -/
  | nested
  deriving DecidableEq, Repr

structure Repetition where
  low : Nat
  high : Option Nat
  greedy : Bool
  emptiness : Emptiness := .never
  /-- The groups whose spans are compared. -/
  watched : List Nat := []
  deriving DecidableEq, Repr

/-- Steps that read nothing but remember places and move the limit up to which text may be read. -/
inductive Bookkeeping where
  | savePlace (slot : Nat)
  | saveLimit (slot : Nat)
  /-- The limit becomes a saved place; `lasting` tells whether it stays after the part is over. -/
  | limitToPlace (slot : Nat) (lasting : Bool)
  | restoreLimit (slot : Nat)
  | restorePlace (slot : Nat)
  /-- The limit becomes the end of the text. -/
  | clearLimit
  deriving DecidableEq, Repr

inductive Node where
  | text (codes : List Nat) (fold : Bool)
  | set (codes : CodeSet)
  | word (negated ascii : Bool)
  /-- Any character, a line feed only where it is allowed. -/
  | any (lineFeed : Bool)
  | anchor (a : Anchor)
  | backref (r : Reference)
  /-- Whether a group is set. -/
  | isSet (r : Reference)
  | loop (r : Repetition) (body : Node)
  /-- A group whose span is remembered under its number. -/
  | group (number : Nat) (named : Bool) (body : Node)
  /-- A part with options of its own; `whole` for options of the whole pattern. -/
  | scoped (whole : Bool) (body : Node)
  /-- Keeps the first way in which the body matches; `simple` where the body is a repetition of
  single characters. -/
  | atomic (simple : Bool) (body : Node)
  | choose (test yes no : Node)
  | ahead (negated : Bool) (body : Node)
  /-- A part that ends here; its least and greatest number of characters. -/
  | behind (negated : Bool) (low : Nat) (high : Option Nat) (body : Node)
  | seq (first rest : Node)
  /-- One of two; `lasting` where the second way out stays open under all circumstances. -/
  | alt (first rest : Node) (lasting : Bool)
  | call (target : CallTarget)
  /-- The body of a group, used again; `recursive` where that may come back here. -/
  | enter (number : Nat) (recursive : Bool)
  | callout (index : Nat)
  | record (b : Bookkeeping)
  | fail
  /-- The match begins here. -/
  | keep
  deriving Inhabited

namespace Node

def empty : Node := .text [] false

/-- One after the other; of nothing, the empty text. -/
def seqOf : List Node → Node
  | [] => empty
  | [n] => n
  | n :: rest => .seq n (seqOf rest)

def altOf : List Node → Node
  | [] => .fail
  | [n] => n
  | n :: rest => .alt n (altOf rest) false

/-- The parts that follow one another. -/
def items : Node → List Node
  | .seq first rest => first :: rest.items
  | n => [n]

/-- The ways that are tried one after the other. -/
def ways : Node → List Node
  | .alt first rest false => first :: rest.ways
  | n => [n]

/-- The body of a group, with group zero as the whole pattern. -/
def group? (number : Nat) : Node → Option Node
  | .group n _ body => if n == number then some body else body.group? number
  | .loop _ body => body.group? number
  | .scoped _ body => body.group? number
  | .atomic _ body => body.group? number
  | .choose test yes no => test.group? number <|> yes.group? number <|> no.group? number
  | .ahead _ body => body.group? number
  | .behind _ _ _ body => body.group? number
  | .seq first rest => first.group? number <|> rest.group? number
  | .alt first rest _ => first.group? number <|> rest.group? number
  | _ => none

/-- The groups in the order in which they open. -/
def groups : Node → List (Nat × Node)
  | .group n _ body => (n, body) :: body.groups
  | .loop _ body => body.groups
  | .scoped _ body => body.groups
  | .atomic _ body => body.groups
  | .choose test yes no => test.groups ++ yes.groups ++ no.groups
  | .ahead _ body => body.groups
  | .behind _ _ _ body => body.groups
  | .seq first rest => first.groups ++ rest.groups
  | .alt first rest _ => first.groups ++ rest.groups
  | _ => []

end Node

end Highlighter.Pattern

import Highlighter.Pattern.Basic
import Highlighter.Pattern.Callout
import Highlighter.Text.Number

/-! What is known while a pattern text is read: the text that is left, the groups and names met so far,
and the options in force. -/

namespace Highlighter.Pattern

/-- The options in force at a place of the pattern. -/
structure Options where
  fold : Bool := false
  extended : Bool := false
  dotAll : Bool := false
  asciiWord : Bool := false
  asciiDigit : Bool := false
  asciiSpace : Bool := false
  /-- All named classes keep to ASCII. -/
  asciiAll : Bool := false
  /-- Text is divided into words, not into clusters. -/
  wordDivisions : Bool := false
  /-- Groups without a name capture nothing. -/
  namedOnly : Bool := false
  deriving DecidableEq, Repr

/-- Options that hold for the whole pattern. -/
structure WholeOptions where
  /-- Only ASCII letters are alike in both cases. -/
  asciiFold : Bool := false
  /-- The longest match is wanted, not the first. -/
  longest : Bool := false
  deriving DecidableEq, Repr

/-- One of several codes in braces, or the dash of a range between two of them. -/
inductive CodeItem where
  | code (n : Nat)
  | dash
  deriving DecidableEq, Repr

/-- The text not yet read and what was met so far. -/
structure Reading where
  rest : List Char
  /-- Codes that an escape has written together with one that was taken. -/
  pending : List CodeItem := []
  groups : Nat := 0
  /-- The groups that are open. -/
  opened : List Nat := []
  /-- Names with the numbers of their groups, the last one first. -/
  names : List (List Char × List Nat) := []
  callouts : List Callout := []
  whole : Option WholeOptions := none
  /-- The number of places remembered by parts that are absent, and the like. -/
  slots : Nat := 0
  deriving Repr

abbrev Parser := StateT Reading (Except PatternError)

namespace Parser

def fail {α : Type} (e : PatternError) : Parser α := throw e

/-- A step that leaves the text alone. -/
def judge {α : Type} (x : Except PatternError α) : Parser α := fun r => x.map (·, r)

def rest : Parser (List Char) := return (← get).rest

def setRest (s : List Char) : Parser Unit := modify fun r => { r with rest := s }

/-- Takes the next character. -/
def next? : Parser (Option Char) := do
  match ← rest with
  | [] => return none
  | c :: s => setRest s; return some c

/-- Takes the next character, which must be there. -/
def next (missing : PatternError) : Parser Char := do
  match ← next? with
  | some c => return c
  | none => fail missing

/-- Takes the next character if it is the given one. -/
def accept (c : Char) : Parser Bool := do
  match ← rest with
  | d :: s => if c == d then setRest s; return true else return false
  | [] => return false

def newSlot : Parser Nat := do
  let n := (← get).slots
  modify fun r => { r with slots := n + 1 }
  return n

/-! ### Numbers -/

def octalValue? (c : Char) : Option Nat :=
  if '0' ≤ c && c ≤ '7' then some (c.toNat - 48) else none

def decimalValue? (c : Char) : Option Nat := if c.isDigit then some (c.toNat - 48) else none

/-- The digits at the front, at most so many: their value in the base, how many there are, and what
follows. -/
def digits (base : Nat) (value? : Char → Option Nat) : Nat → List Char → Nat × Nat × List Char :=
  go 0 0
where
  go (n count : Nat) : Nat → List Char → Nat × Nat × List Char
    | 0, s => (n, count, s)
    | _ + 1, [] => (n, count, [])
    | most + 1, c :: s =>
      match value? c with
      | some d => go (n * base + d) (count + 1) most s
      | none => (n, count, c :: s)

def decimal (s : List Char) : Nat × Nat × List Char := digits 10 decimalValue? s.length s

/-- The greatest number that may be written. -/
def greatestNumber : Nat := 2147483647

end Parser

end Highlighter.Pattern

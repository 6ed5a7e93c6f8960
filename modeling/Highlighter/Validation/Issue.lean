import Highlighter.Text.Str

/-! Checking of data from outside. All faults are collected, each with its place in the data. -/

namespace Highlighter.Validation

inductive IssueKind where
  | missing
  | extraForbidden
  | stringType
  /-- A text holds half a surrogate pair. -/
  | stringUnicode
  | intType
  | intParsing
  | intParsingSize
  | intFromFloat
  | floatType
  | floatParsing
  | finiteNumber
  | listType
  | dictType
  | modelType
  | tooShort
  | greaterThan
  deriving DecidableEq, Repr

/-- A fault and the names and numbers that lead to it from the outside. -/
structure Issue where
  place : List String
  kind : IssueKind
  deriving DecidableEq, Repr

/-- A checked value, or the faults in it. -/
def Checked (α : Type) : Type := Except (List Issue) α

namespace Checked

variable {α β : Type}

def issues : Checked α → List Issue
  | .ok _ => []
  | .error e => e

def fault (place : List String) (kind : IssueKind) : Checked α := .error [⟨place, kind⟩]

/-- Both parts are checked, whether or not the first has faults. -/
def both (f : Checked (α → β)) (x : Checked α) : Checked β :=
  match f, x with
  | .ok f, .ok x => .ok (f x)
  | f, x => .error (f.issues ++ x.issues)

instance : Applicative Checked where
  pure := .ok
  seq f x := both f (x ())

/-- Every element of a list, checked with its number. -/
def elements (check : Nat → α → Checked β) : Nat → List α → Checked (List β)
  | _, [] => .ok []
  | i, x :: xs => both (both (.ok List.cons) (check i x)) (elements check (i + 1) xs)

end Checked

/-- A field that must be there. -/
def required {α β : Type} (place : List String) (check : α → Checked β) : Option α → Checked β
  | some v => check v
  | none => .fault place .missing

/-- A field that has a value when it is not there. -/
def optional {α β : Type} (absent : β) (check : α → Checked β) : Option α → Checked β
  | some v => check v
  | none => .ok absent

end Highlighter.Validation

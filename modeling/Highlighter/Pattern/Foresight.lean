import Highlighter.Pattern.Outline

/-! What a search knows of the matches of a pattern before it begins: the clue that tells most, and the
edges that decide where a search may begin. -/

namespace Highlighter.Pattern

open Highlighter.Text (Bytes)

/-- What stands somewhere in each match. -/
inductive Sign where
  | text (bytes : Bytes)
  /-- A character that begins with one of the bytes which the table marks. -/
  | oneOf (table : Array Bool)
  deriving DecidableEq, Repr

/-- A sign and its distance from the start of the match. -/
structure Clue where
  sign : Sign
  distance : Distance
  /-- Whether a line begins with the sign. -/
  opensLine : Bool
  deriving DecidableEq, Repr

/-- What a search knows of the matches of a pattern. -/
structure Foresight where
  clue : Option Clue := none
  edges : List Edge := []
  deriving DecidableEq, Repr, Inhabited

namespace Landmark

/-- How much a landmark is worth for a byte of it. -/
def worthOfByte : Nat := 60

def clue (l : Landmark) : Clue :=
  ⟨.text l.bytes, l.distance, l.edges.left.contains .lineStart⟩

end Landmark

namespace ByteChoice

/-- How much a choice of a weight of one is worth. -/
def worthOfChoice : Nat := 200

def clue (c : ByteChoice) : Clue :=
  let table := (List.range 256).map fun b => c.bytes.contains b.toUInt8
  ⟨.oneOf table.toArray, c.distance, c.edges.left.contains .lineStart⟩

end ByteChoice

namespace Outline

/-- The clue that tells most. -/
def clue? (o : Outline) : Option Clue :=
  let text := o.head.better o.inner
  if text.isEmpty then if o.choice.isEmpty then none else some o.choice.clue
  else if !o.choice.isEmpty &&
      Distance.prefers (ByteChoice.worthOfChoice / o.choice.weight) o.choice.distance
        (Landmark.worthOfByte * text.length) text.distance then
    some o.choice.clue
  else some text.clue

/-- The edges that matter to a search. What lies behind a start may differ from place to place, so that
a match from there need not hold one from an earlier place. -/
def searchEdges (o : Outline) : List Edge :=
  let left := o.edges.left.filter
    [Edge.textStart, .searchStart, .anyLine, .anyText, .behind].contains
  let left := if left.contains .behind then left.filter (· != .anyText) else left
  left ++ o.edges.right.filter [Edge.textEnd, .lastLineEnd, .notAhead].contains

def foresight (o : Outline) : Foresight := ⟨o.clue?, o.searchEdges⟩

end Outline

end Highlighter.Pattern

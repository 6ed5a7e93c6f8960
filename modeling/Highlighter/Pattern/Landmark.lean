import Highlighter.Pattern.Basic
import Highlighter.Text.Encoding

/-! What can be told of a match before it is looked for: texts and bytes that it holds at a known
distance from its start, and conditions on what lies around it. Lengths and distances are numbers of
bytes. -/

namespace Highlighter.Pattern

open Highlighter.Text (Bytes)

/-- A number of bytes between bounds; without a greatest one it may be any from the least on. -/
structure Distance where
  low : Nat
  high : Option Nat
  deriving DecidableEq, Repr

namespace Distance

def exactly (n : Nat) : Distance := ⟨n, some n⟩

def zero : Distance := exactly 0

def unknown : Distance := ⟨0, none⟩

/-- Whether there can be nothing in between. -/
def isEmpty (d : Distance) : Bool := d.high == some 0

def add (a b : Distance) : Distance := ⟨a.low + b.low, do return (← a.high) + (← b.high)⟩

def either (a b : Distance) : Distance :=
  ⟨min a.low b.low, do return max (← a.high) (← b.high)⟩

def times (d : Distance) (r : Repetition) : Distance where
  low := r.low * d.low
  high := if d.isEmpty then some 0 else do return (← r.high) * (← d.high)

/-- How much a distance tells: a thousandth part of this for each place that it leaves open. -/
def sharpness (d : Distance) : Nat :=
  match d.high with
  | none => 0
  | some high =>
    let places := high - d.low + 1
    if places ≤ 100 then (2000 / places + 1) / 2 else 1

/-- Whether something of a worth at one distance is to be preferred to something at another. -/
def prefers (worth : Nat) (d : Distance) (otherWorth : Nat) (other : Distance) : Bool :=
  if worth == 0 then false
  else if otherWorth == 0 then true
  else
    let value := worth * d.sharpness
    let otherValue := otherWorth * other.sharpness
    otherValue < value || (otherValue == value && d.low < other.low)

end Distance

/-- What holds at the start or at the end of a match. -/
inductive Edge where
  | textStart
  | searchStart
  | lineStart
  /-- It begins with any number of characters of a line. -/
  | anyLine
  /-- It begins with any number of characters. -/
  | anyText
  /-- Something lies before it. -/
  | behind
  | textEnd
  | lastLineEnd
  | lineEnd
  /-- Something does not follow. -/
  | notAhead
  deriving DecidableEq, Repr

structure Edges where
  left : List Edge := []
  right : List Edge := []
  deriving DecidableEq, Repr

namespace Edges

def atLeft (e : Edge) : Edges := { left := [e] }

def atRight (e : Edge) : Edges := { right := [e] }

/-- The edges of two parts that follow one another, which may be known to be empty. -/
def append (a b : Edges) (aEmpty bEmpty : Bool) : Edges where
  left := if aEmpty then a.left ++ b.left else a.left
  right := b.right ++ if bEmpty then a.right else a.right.filter (· == .notAhead)

def inter (a b : Edges) : Edges where
  left := a.left.filter b.left.contains
  right := a.right.filter b.right.contains

end Edges

/-- How common a byte is in texts. -/
def byteWeight (b : UInt8) : Nat :=
  if b == 0 then 5
  else if b == 9 || b == 10 || b == 13 then 10
  else if b < 32 || b == 127 then 1
  else if b == 32 then 12
  else if b == 34 then 7
  else if b < 41 then 4
  else if b < 48 then 5
  else if b < 58 then 6
  else if b < 65 then 5
  else if b == 69 || b == 101 then 7
  else if [91, 93, 94, 95, 96, 123, 124, 125, 126].contains b then 5
  else if b < 128 then 6
  else 4

/-- A text that every match holds at a distance from its start, as the bytes of each character. -/
structure Landmark where
  distance : Distance := .zero
  edges : Edges := {}
  /-- Whether what follows goes on where the text ends. -/
  reachesEnd : Bool := false
  chars : List Bytes := []
  deriving DecidableEq, Repr

namespace Landmark

/-- The greatest number of bytes of a landmark. -/
def longest : Nat := 24

def bytes (l : Landmark) : Bytes := l.chars.flatten

def length (l : Landmark) : Nat := l.bytes.length

def isEmpty (l : Landmark) : Bool := l.length == 0

/-- The characters for which there is room, and whether these are all. -/
def fitting : Nat → List Bytes → List Bytes × Bool
  | _, [] => ([], true)
  | room, c :: rest =>
    if c.length ≤ room then
      let (taken, all) := fitting (room - c.length) rest
      (c :: taken, all)
    else ([], false)

/-- A landmark with characters that stand alone. -/
def ofChars (distance : Distance) (chars : List Bytes) : Landmark :=
  let (chars, all) := fitting longest chars
  { distance, chars, reachesEnd := all }

/-- A landmark that goes on with another one, and whether there was room for all of it. -/
def append (a b : Landmark) : Landmark × Bool :=
  let (taken, all) := fitting (longest - a.length) b.chars
  let reachesEnd := all && b.reachesEnd
  let edges := a.edges.append b.edges false false
  ({ a with
      chars := a.chars ++ taken
      reachesEnd
      edges := if reachesEnd then edges else { edges with right := [] } },
    all)

/-- As many copies as there is room for. -/
def repeated (one : Landmark) : Nat → Landmark → Landmark
  | 0, l => l
  | n + 1, l =>
    let last (l : Landmark) : Landmark := if n == 0 then l else { l with reachesEnd := false }
    if longest ≤ l.length then last l
    else
      let (l, all) := l.append one
      if all then repeated one n l else last l

def commonStart : List Bytes → List Bytes → List Bytes
  | a :: as, b :: bs => if a == b then a :: commonStart as bs else []
  | _, _ => []

/-- What two landmarks at the same distance have in common. -/
def either (a b : Landmark) : Landmark :=
  if a.isEmpty || b.isEmpty || a.distance != b.distance then {}
  else
    let chars := commonStart a.chars b.chars
    let whole := chars.length == a.chars.length && chars.length == b.chars.length
    let reachesEnd := whole && a.reachesEnd && b.reachesEnd
    let edges := a.edges.inter b.edges
    { a with chars, reachesEnd, edges := if reachesEnd then edges else { edges with right := [] } }

/-- The first so many bytes of a landmark. -/
def cut (l : Landmark) (length : Nat) : Landmark :=
  if length < l.length then { l with chars := [l.bytes.take length] } else l

/-- The one of two landmarks that tells more. -/
def better (now other : Landmark) : Landmark :=
  if other.isEmpty then now
  else if now.isEmpty then other
  else
    let rarity (l : Landmark) (against : Landmark) : Nat :=
      ((against.bytes.head?.map byteWeight).getD 0) + if 1 < l.length then 5 else 0
    let (worth, otherWorth) :=
      if now.length ≤ 2 && other.length ≤ 2 then (rarity now other, rarity other now)
      else (now.length, other.length)
    if Distance.prefers otherWorth other.distance worth now.distance then other else now

end Landmark

/-- The bytes of which one stands at a distance from the start of every match; none where nothing is
known. -/
structure ByteChoice where
  distance : Distance := .zero
  edges : Edges := {}
  bytes : List UInt8 := []
  deriving DecidableEq, Repr

namespace ByteChoice

def weight (c : ByteChoice) : Nat := c.bytes.foldr (fun b n => byteWeight b + n) 0

def isEmpty (c : ByteChoice) : Bool := c.bytes.isEmpty

/-- What makes the weights of choices comparable. -/
def scale : Nat := 32768

def better (now other : ByteChoice) : ByteChoice :=
  if other.isEmpty then now
  else if now.isEmpty then other
  else if Distance.prefers (scale / other.weight) other.distance (scale / now.weight) now.distance then
    other
  else now

/-- The bytes of both choices. -/
def either (a b : ByteChoice) : ByteChoice :=
  if a.isEmpty || b.isEmpty || a.distance.high.any (· < b.distance.low) then {}
  else
    { distance := a.distance.either b.distance
      edges := a.edges.inter b.edges
      bytes := a.bytes ++ b.bytes.filter (!a.bytes.contains ·) }

end ByteChoice

end Highlighter.Pattern

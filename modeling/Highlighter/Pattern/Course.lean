import Highlighter.Pattern.Trail

/-! The places that a search tries. A clue that every match holds rules out most places of a text; a
pattern that begins with any characters of a line is tried once in each line. -/

namespace Highlighter.Pattern

open Highlighter.Text (Bytes)

namespace Sign

/-- What is left of the wanted bytes after those of a character; `none` where they differ. -/
def dropChar? : Bytes → Bytes → Option Bytes
  | _, [] => some []
  | [], wanted => some wanted
  | b :: bytes, w :: wanted => if b == w then dropChar? bytes wanted else none

/-- Whether the wanted bytes stand at a place; the fuel is their number. -/
def bytesAt (text : Text) : Nat → Bytes → Nat → Bool
  | _, [], _ => true
  | 0, _ :: _, _ => false
  | fuel + 1, wanted, place =>
    match text[place]? with
    | none => false
    | some c =>
      match dropChar? (Text.encodeChar c) wanted with
      | some rest => bytesAt text fuel rest (place + 1)
      | none => false

def standsAt (s : Sign) (text : Text) (place : Nat) : Bool :=
  match s with
  | .text bytes => bytesAt text bytes.length bytes place
  | .oneOf table =>
    text[place]?.any fun c => ((Text.encodeChar c).head?.any fun b => table.getD b.toNat false)

end Sign

/-- Whether a line begins at a place. -/
def beginsLine (text : Text) (place : Nat) : Bool := place == 0 || text[place - 1]? == some '\n'

namespace Clue

def standsAt (c : Clue) (text : Text) (place : Nat) : Bool :=
  c.sign.standsAt text place && (!c.opensLine || beginsLine text place)

/-- Whether the clue is found on the way forward, where so many bytes are behind already. The fuel
bounds the number of characters. -/
def isAhead (c : Clue) (text : Text) : Nat → Nat → Nat → Bool
  | 0, _, _ => false
  | fuel + 1, place, passed =>
    if h : place < text.size then
      if c.distance.high.any (· < passed) then false
      else if c.distance.low ≤ passed && c.standsAt text place then true
      else isAhead c text fuel (place + 1) (passed + text[place].utf8Size)
    else false

/-- Whether the clue stands at its distance from a place. -/
def isNear (c : Clue) (text : Text) (place : Nat) : Bool :=
  c.isAhead text ((c.distance.high.map (· + 1)).getD text.size) place 0

/-- Whether a match at some place can be told from where the clue stands. -/
def isBounded (c : Clue) : Bool := c.distance.high.isSome

end Clue

/-- Which places a search tries. -/
structure Course where
  /-- Whether there may be a match at all. -/
  isOpen : Bool := true
  /-- A clue that must be near. -/
  clue : Option Clue := none
  /-- Only the first place, and those at which a line begins. -/
  lineStarts : Bool := false
  /-- The last place. -/
  last : Nat

def Course.admits (c : Course) (text : Text) (start place : Nat) : Bool :=
  c.isOpen && place ≤ c.last && (!c.lineStarts || place == start || beginsLine text place) &&
    c.clue.all (·.isNear text place)

namespace Foresight

/-- Whether a match that is not found at the first place is found nowhere. -/
def isSettledAtOnce (edges : List Edge) : Bool :=
  edges.contains .anyText &&
    !edges.any [Edge.searchStart, .textStart, .textEnd, .lastLineEnd].contains

def hasBoundedClue (f : Foresight) : Bool := f.clue.any (·.isBounded)

/-- A course on which the lines are kept to or not. -/
def courseTo (f : Foresight) (text : Text) (start last : Nat) (lineStarts : Bool) : Course :=
  match f.clue with
  | none => { lineStarts, last }
  | some c =>
    if c.isBounded then { clue := some c, lineStarts, last }
    else { isOpen := c.isAhead text (text.size - start) start 0, lineStarts, last }

/-- The course of a search for one pattern. -/
def course (f : Foresight) (text : Text) (start : Nat) : Course :=
  let isGuarded := f.edges.contains .behind || f.edges.contains .notAhead
  let lineStarts :=
    f.clue.isSome && !f.hasBoundedClue && f.edges.contains .anyLine && !isGuarded
  let last :=
    if !isSettledAtOnce f.edges then text.size
    else if f.hasBoundedClue then start
    else if text[start]?.any (·.utf8Size == 1) then start + 1
    else start
  f.courseTo text start last lineStarts

/-- The greatest number of bytes up to which a search for several patterns keeps to lines even where all
of them have clues. -/
def shortText : Nat := 500

/-- Whether the text from a place on is longer than that. -/
def isLong (text : Text) (start : Nat) : Bool :=
  let rest := text.extract start (start + shortText + 1)
  shortText < Text.byteLength rest.toList

/-- The courses of a search for several patterns at once. -/
def courses (fs : List Foresight) (text : Text) (start : Nat) : List Course :=
  let edges :=
    match fs with
    | [] => []
    | f :: rest => rest.foldl (fun edges f => edges.filter f.edges.contains) f.edges
  let atOnce := isSettledAtOnce edges
  let clueOnly := fs.all hasBoundedClue && isLong text start
  fs.map fun f =>
    let last :=
      if !atOnce then text.size else if f.hasBoundedClue then start else start + 1
    f.courseTo text start last (!clueOnly && f.edges.contains .anyLine)

end Foresight

end Highlighter.Pattern

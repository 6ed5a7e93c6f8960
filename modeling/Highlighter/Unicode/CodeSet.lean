import Highlighter.Text.Blank

/-! Sets of code points as their ranges, in order and apart from one another, and the tables by which
membership is decided quickly. Data of the Unicode standard is written as such ranges in hexadecimal,
separated by blanks. -/

namespace Highlighter.Unicode

/-- The greatest code point. -/
def lastCode : Nat := 0x10FFFF

structure CodeSet where
  ranges : List (Nat × Nat)
  deriving DecidableEq, Repr, Inhabited

namespace CodeSet

def empty : CodeSet := ⟨[]⟩

def range (low high : Nat) : CodeSet := ⟨if low ≤ high then [(low, high)] else []⟩

def single (code : Nat) : CodeSet := ⟨[(code, code)]⟩

def full : CodeSet := range 0 lastCode

def isEmpty (s : CodeSet) : Bool := s.ranges.isEmpty

def contains (s : CodeSet) (code : Nat) : Bool :=
  s.ranges.any fun r => r.1 ≤ code && code ≤ r.2

/-- Joins ranges that touch or overlap; `low` and `high` bound the range being joined. -/
def joinFrom (low high : Nat) : List (Nat × Nat) → List (Nat × Nat)
  | [] => [(low, high)]
  | r :: rest =>
    if r.1 ≤ high + 1 then joinFrom low (max high r.2) rest
    else (low, high) :: joinFrom r.1 r.2 rest

/-- Joins ranges that are in the order of their first code points. -/
def join : List (Nat × Nat) → List (Nat × Nat)
  | [] => []
  | r :: rest => joinFrom r.1 r.2 rest

def union (a b : CodeSet) : CodeSet := ⟨join (a.ranges.merge b.ranges fun x y => x.1 ≤ y.1)⟩

/-- The set of ranges in any order. -/
def ofRanges (ranges : List (Nat × Nat)) : CodeSet :=
  ⟨join (ranges.mergeSort fun x y => x.1 ≤ y.1)⟩

def ofList (codes : List Nat) : CodeSet := ofRanges (codes.map fun c => (c, c))

def unions (sets : List CodeSet) : CodeSet := ofRanges (sets.flatMap (·.ranges))

/-- What lies between the ranges, from a code point on. -/
def gapsFrom (start : Nat) : List (Nat × Nat) → List (Nat × Nat)
  | [] => if start ≤ lastCode then [(start, lastCode)] else []
  | r :: rest =>
    if start < r.1 then (start, r.1 - 1) :: gapsFrom (r.2 + 1) rest else gapsFrom (r.2 + 1) rest

def compl (s : CodeSet) : CodeSet := ⟨gapsFrom 0 s.ranges⟩

def inter (a b : CodeSet) : CodeSet := (union a.compl b.compl).compl

def diff (a b : CodeSet) : CodeSet := a.inter b.compl

/-! ### Written sets -/

def hexValue (c : Char) : Nat :=
  if c.isDigit then c.toNat - 48 else c.toNat - 87

def hexNumber (s : List Char) : Nat := s.foldl (fun n c => 16 * n + hexValue c) 0

/-- A range, or a single code point. -/
def rangeOfWord (word : List Char) : Nat × Nat :=
  let low := word.takeWhile (· != '-')
  match word.drop low.length with
  | [] => (hexNumber low, hexNumber low)
  | _ :: high => (hexNumber low, hexNumber high)

/-- Reads ranges that are written in their order. -/
def ofText (s : String) : CodeSet := ⟨(Text.wordsFrom s.toList).map rangeOfWord⟩

end CodeSet

/-- A set made ready for many questions: the answers for ASCII, and the ranges as an array. -/
structure CodeTable where
  ascii : Array Bool
  ranges : Array (Nat × Nat)
  deriving DecidableEq, Repr, Inhabited

namespace CodeTable

def ofSet (s : CodeSet) : CodeTable :=
  let low : CodeSet := ⟨s.ranges.takeWhile (·.1 < 128)⟩
  ⟨(Array.range 128).map low.contains, s.ranges.toArray⟩

/-- Whether a range between two indices contains the code point; the fuel halves with every step. -/
def search (ranges : Array (Nat × Nat)) (code : Nat) : Nat → Nat → Nat → Bool
  | 0, _, _ => false
  | fuel + 1, low, high =>
    if high ≤ low then false
    else
      let middle := (low + high) / 2
      match ranges[middle]? with
      | none => false
      | some r =>
        if code < r.1 then search ranges code fuel low middle
        else if r.2 < code then search ranges code fuel (middle + 1) high
        else true

def contains (t : CodeTable) (code : Nat) : Bool :=
  match t.ascii[code]? with
  | some answer => answer
  | none => search t.ranges code 32 0 t.ranges.size

end CodeTable

end Highlighter.Unicode

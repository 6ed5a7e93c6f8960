import Highlighter.Decimal.Binary64
import Highlighter.PropertyList.Fault

/-! Bytes and dates in property lists. Bytes are written in base 64, where characters that stand for no digit are
passed over. Dates are written as in `2001-02-03T04:05:06Z`, where the smaller units may be left out as long as
a day is named. -/

namespace Highlighter.PropertyList.Base64

open Highlighter.Text (Bytes)

/-- The value of a digit. -/
def digit? (c : Char) : Option Nat :=
  if 'A' ≤ c && c ≤ 'Z' then some (c.toNat - 65)
  else if 'a' ≤ c && c ≤ 'z' then some (c.toNat - 71)
  else if c.isDigit then some (c.toNat + 4)
  else if c == '+' then some 62
  else if c == '/' then some 63
  else none

/-- What is read so far: the bytes backwards, the place in a group of four digits, the bits of the last
digit that are not used yet, and how much padding follows it. -/
structure Progress where
  bytes : Bytes := []
  place : Nat := 0
  left : Nat := 0
  padding : Nat := 0
  deriving DecidableEq, Repr

/-- Takes in a digit. From the second digit of a group on each completes a byte. -/
def Progress.add (p : Progress) (d : Nat) : Progress :=
  match p.place with
  | 0 => { p with place := 1, left := d, padding := 0 }
  | 1 => ⟨(p.left * 4 + d / 16).toUInt8 :: p.bytes, 2, d % 16, 0⟩
  | 2 => ⟨(p.left * 16 + d / 4).toUInt8 :: p.bytes, 3, d % 4, 0⟩
  | _ => ⟨(p.left * 64 + d).toUInt8 :: p.bytes, 0, 0, 0⟩

/-- Reads on. Padding that fills a group ends the reading. -/
def readFrom (p : Progress) : List Char → Except ListError Bytes
  | [] =>
    if p.place == 0 then .ok p.bytes.reverse
    else if p.place == 1 then .error (.dataLength (p.bytes.length / 3 * 4 + 1))
    else .error .padding
  | c :: s =>
    if c == '=' then
      if p.place < 2 then readFrom p s
      else if 4 ≤ p.place + (p.padding + 1) then .ok p.bytes.reverse
      else readFrom { p with padding := p.padding + 1 } s
    else
      match digit? c with
      | some d => readFrom (p.add d) s
      | none => readFrom p s

/-- The bytes that a text stands for. -/
def read (s : List Char) : Except ListError Bytes := readFrom {} s

end Highlighter.PropertyList.Base64

namespace Highlighter.PropertyList

/-- A number of so many digits at the front. -/
def digits? (count : Nat) (s : List Char) : Option (Nat × List Char) := do
  let ds := s.take count
  guard (ds.length == count)
  return (← Decimal.plainDigits? ds, s.drop count)

/-- The further units of a date, each after its mark, up to the letter that ends it. -/
def furtherUnits? : List Char → List Char → Option (List Nat)
  | _, 'Z' :: _ => some []
  | mark :: marks, c :: s => do
    guard (c == mark)
    let (n, rest) ← digits? 2 s
    return n :: (← furtherUnits? marks rest)
  | _, _ => none

/-- The units of a date, the greatest first. What follows a date does not count. -/
def units? (s : List Char) : Option (List Nat) := do
  let (year, rest) ← digits? 4 s
  return year :: (← furtherUnits? ['-', '-', 'T', ':', ':'] rest)

def isLeap (year : Nat) : Bool := year % 4 == 0 && (year % 100 != 0 || year % 400 == 0)

def daysIn (year month : Nat) : Nat :=
  if month == 2 then if isLeap year then 29 else 28
  else if [4, 6, 9, 11].contains month then 30
  else 31

/-- The first part of a date that is out of range. -/
def outOfRange? (year month day hour minute second : Nat) : Option DatePart :=
  if year == 0 then some .year
  else if month == 0 || 12 < month then some .month
  else if day == 0 || daysIn year month < day then some .day
  else if 23 < hour then some .hour
  else if 59 < minute then some .minute
  else if 59 < second then some .second
  else none

/-- Whether a text is a date. -/
def checkDate (s : List Char) : Except Failure Unit :=
  match units? s with
  | none => .error .notADate
  | some (year :: month :: day :: rest) =>
    match outOfRange? year month day (rest.getD 0 0) (rest.getD 1 0) (rest.getD 2 0) with
    | some part => .error (.error (.date part))
    | none => .ok ()
  | some _ => .error .incompleteDate

end Highlighter.PropertyList

import Highlighter.Toml.Text
import Highlighter.Toml.Value

/-! Numbers, dates and times of TOML. -/

namespace Highlighter.Toml

open Highlighter.Decimal (Binary64)

/-- Further digits, where single underscores may stand between two of them. -/
def moreDigits (isDigit : Char → Bool) : List Char → List Char × List Char
  | '_' :: c :: rest =>
    if isDigit c then
      let (ds, after) := moreDigits isDigit rest
      (c :: ds, after)
    else ([], '_' :: c :: rest)
  | c :: rest =>
    if isDigit c then
      let (ds, after) := moreDigits isDigit rest
      (c :: ds, after)
    else ([], c :: rest)
  | [] => ([], [])

/-- A run of digits. -/
def digitRun? (isDigit : Char → Bool) : List Char → Option (List Char × List Char)
  | c :: rest =>
    if isDigit c then
      let (ds, after) := moreDigits isDigit rest
      some (c :: ds, after)
    else none
  | [] => none

/-- The base that a letter after a zero stands for. -/
def base? : Char → Option Nat
  | 'x' => some 16
  | 'o' => some 8
  | 'b' => some 2
  | _ => none

def isDigitOf (base : Nat) (c : Char) : Bool := (Text.hexDigit? c).any (· < base)

def valueOfDigits (base : Nat) (ds : List Char) : Nat :=
  ds.foldl (fun n c => base * n + (Text.hexDigit? c).getD 0) 0

/-- An integer in another base than ten. -/
def prefixed? : List Char → Option (Nat × List Char)
  | '0' :: letter :: rest => do
    let base ← base? letter
    let (ds, after) ← digitRun? (isDigitOf base) rest
    return (valueOfDigits base ds, after)
  | _ => none

/-- The whole part of a decimal number: a zero, or digits that do not start with one. -/
def wholePart? : List Char → Option (List Char × List Char)
  | '0' :: rest => some (['0'], rest)
  | s => digitRun? Char.isDigit s

def fraction? : List Char → Option (List Char × List Char)
  | '.' :: rest => digitRun? Char.isDigit rest
  | _ => none

def exponent? : List Char → Option (Int × List Char)
  | c :: rest =>
    if c == 'e' || c == 'E' then
      match rest with
      | '-' :: rest =>
        (digitRun? Char.isDigit rest).map fun (ds, after) => (-(valueOfDigits 10 ds : Int), after)
      | '+' :: rest =>
        (digitRun? Char.isDigit rest).map fun (ds, after) => ((valueOfDigits 10 ds : Int), after)
      | rest =>
        (digitRun? Char.isDigit rest).map fun (ds, after) => ((valueOfDigits 10 ds : Int), after)
    else none
  | [] => none

inductive Number where
  | int (n : Int)
  | float (x : Binary64)
  /-- A decimal integer with more digits than are accepted. -/
  | huge

def withoutSign : List Char → Bool × List Char
  | '-' :: rest => (true, rest)
  | '+' :: rest => (false, rest)
  | s => (false, s)

def decimal? (s : List Char) : Option (Number × List Char) := do
  let (negative, unsigned) := withoutSign s
  let (whole, rest) ← wholePart? unsigned
  let fraction := fraction? rest
  let exponent := exponent? (fraction.elim rest (·.2))
  match fraction, exponent with
  | none, none =>
    if Json.greatestIntegerLength < whole.length then return (.huge, rest)
    else
      let n : Int := valueOfDigits 10 whole
      return (.int (if negative then -n else n), rest)
  | _, _ =>
    let ds := fraction.elim [] (·.1)
    let e := exponent.elim 0 (·.1)
    let after := exponent.elim (fraction.elim rest (·.2)) (·.2)
    return (.float (.ofDecimal negative (valueOfDigits 10 (whole ++ ds)) (e - ds.length)), after)

/-- The words for the doubles that are not finite, with or without a sign. -/
def floatWord? (s : List Char) : Option (Number × List Char) :=
  let (negative, word) := withoutSign s
  if "inf".toList.isPrefixOf word then some (.float (.infinite negative), word.drop 3)
  else if "nan".toList.isPrefixOf word then some (.float .nan, word.drop 3)
  else none

def number? (s : List Char) : Option (Number × List Char) :=
  ((prefixed? s).map fun (n, after) => (.int n, after)) <|> decimal? s <|> floatWord? s

/-- A number of a fixed count of digits within bounds. -/
def fixedDigits? (count least greatest : Nat) (s : List Char) : Option (Nat × List Char) :=
  let ds := s.take count
  let n := valueOfDigits 10 ds
  if ds.length == count && ds.all Char.isDigit && least ≤ n && n ≤ greatest then
    some (n, s.drop count)
  else none

def skip? (c : Char) : List Char → Option (List Char)
  | d :: rest => if c == d then some rest else none
  | [] => none

/-- A time of day: hours, minutes, seconds, and a fraction of a second that may be left out. -/
def time? (s : List Char) : Option (List Char) := do
  let (_, s) ← fixedDigits? 2 0 23 s
  let (_, s) ← fixedDigits? 2 0 59 (← skip? ':' s)
  let (_, s) ← fixedDigits? 2 0 59 (← skip? ':' s)
  match s with
  | '.' :: c :: rest => return if c.isDigit then rest.dropWhile Char.isDigit else s
  | s => return s

/-- The distance of a time from universal time; it may be left out. -/
def skipOffset (s : List Char) : List Char :=
  match s with
  | c :: rest =>
    if c == 'Z' || c == 'z' then rest
    else if c == '+' || c == '-' then
      (do
        let (_, rest) ← fixedDigits? 2 0 23 rest
        let (_, rest) ← fixedDigits? 2 0 59 (← skip? ':' rest)
        return rest : Option (List Char)).getD s
    else s
  | [] => s

/-- A day of the calendar. -/
structure Day where
  year : Nat
  month : Nat
  day : Nat

def isLeapYear (year : Nat) : Bool := year % 4 == 0 && (year % 100 != 0 || year % 400 == 0)

def daysIn (year month : Nat) : Nat :=
  if month == 2 then if isLeapYear year then 29 else 28
  else if [4, 6, 9, 11].contains month then 30 else 31

/-- Years count from one. -/
def Day.exists (d : Day) : Bool := 1 ≤ d.year && d.day ≤ daysIn d.year d.month

/-- A date, with a time after it or without one. -/
def date? (s : List Char) : Option (Day × List Char) := do
  let (year, s) ← fixedDigits? 4 0 9999 s
  let (month, s) ← fixedDigits? 2 1 12 (← skip? '-' s)
  let (day, s) ← fixedDigits? 2 1 31 (← skip? '-' s)
  let after := match s with
    | c :: rest =>
      if c == 'T' || c == 't' || c == ' ' then (time? rest).elim s skipOffset else s
    | [] => s
  return (⟨year, month, day⟩, after)

end Highlighter.Toml

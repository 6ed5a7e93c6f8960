import Highlighter.Decimal.Binary64
import Highlighter.Unicode.Property
import Highlighter.Validation.Issue

/-! The checks that a library makes of single values. Numbers from outside are taken in several forms: truth
values count as one and zero, texts are read, and a double with an integral value will do for an integer. -/

namespace Highlighter.Validation

open Highlighter.Decimal (Binary64)

/-- A value as far as numbers are concerned. -/
inductive NumberForm where
  | bool (b : Bool)
  | int (n : Int)
  | float (x : Binary64)
  | text (s : Str)
  | other

def stripBlanks (s : List Char) : List Char :=
  ((s.dropWhile Unicode.isWhiteSpace).reverse.dropWhile Unicode.isWhiteSpace).reverse

/-- The text without underscores, which may stand singly between other characters. -/
def dropUnderscores? : List Char → Option (List Char)
  | [] => some []
  | ['_'] => none
  | '_' :: '_' :: _ => none
  | c :: rest => (dropUnderscores? rest).map fun rest => if c == '_' then rest else c :: rest

/-! ### Integers -/

/-- A number without zeros and underscores before it, where the first character is a zero. Of a number
that has nothing else the last character stays, and before a point the last one that was passed. -/
def afterZeros? (last : Char) : List Char → Option (List Char)
  | [] => some [last]
  | c :: s =>
    if c == '0' || c == '_' then afterZeros? c s
    else if c.isDigit || c == '-' then some (c :: s)
    else if c == '.' then some (last :: c :: s)
    else none

def withoutZeros? : List Char → Option (List Char)
  | [] => none
  | c :: s =>
    if c == '0' then afterZeros? c s
    else if c.isDigit || c == '-' then some (c :: s)
    else none

/-- A number without a fraction of zeros. -/
def withoutFraction (s : List Char) : List Char :=
  let whole := s.takeWhile (· != '.')
  let fraction := (s.drop whole.length).drop 1
  if !fraction.isEmpty && fraction.all (· == '0') then whole else s

/-- The number in a text, without what may stand around it and in it. -/
def integerText? (s : List Char) : Option (List Char) := do
  let s := stripBlanks s
  let unsigned ← match s with
    | '+' :: '-' :: _ => none
    | '+' :: rest => some rest
    | rest => some rest
  let number := withoutFraction (← withoutZeros? unsigned)
  if number.head? == some '_' then return number
  else return (dropUnderscores? number).getD number

/-- How many characters a written integer may take. -/
def greatestIntegerLength : Nat := 4300

/-- An integer as it is written without any freedom: no zero stands before other digits. -/
def strictInteger (place : List String) (s : List Char) : Checked Int :=
  let (negative, digits) : Bool × List Char := match s with
    | '-' :: rest => (true, rest)
    | rest => (false, rest)
  let run := digits.takeWhile Char.isDigit
  let length := if negative then run.length + 1 else run.length
  if run.head?.any (· != '0') && greatestIntegerLength < length then .fault place .intParsingSize
  else if run.head? == some '0' && 1 < run.length then .fault place .intParsing
  else
    match Decimal.plainDigits? digits with
    | some n => .ok (if negative then -(n : Int) else n)
    | none => .fault place .intParsing

/-- The integer a text stands for. -/
def textInteger (place : List String) (s : String) : Checked Int :=
  match integerText? s.toList with
  | some number => strictInteger place number
  | none => .fault place .intParsing

/-- Whether the integral value of a double is taken as an integer. -/
def isIntegerSized (x : Binary64) : Bool := !x.isBelow (-0x7FFFFFFFFFFFFFFF) && x.isBelow 0x8000000000000000

/-! ### Doubles -/

/-- The double a text stands for. Only a text without underscores may have blanks around it. -/
def textFloat (place : List String) (s : String) : Checked Binary64 :=
  match Decimal.literal? (stripBlanks s.toList) with
  | some x => .ok x
  | none =>
    let plain := if s.toList.head? == some '_' then none else dropUnderscores? s.toList
    match plain.bind Decimal.literal? with
    | some x => .ok x
    | none => .fault place .floatParsing

/-- What a text of characters stands for. -/
def ofText {α : Type} (place : List String) (read : String → Checked α) (s : Str) : Checked α :=
  match s.text? with
  | some text => read text
  | none => .fault place .stringUnicode

/-! ### Checks -/

/-- What should be a text, seen as one. -/
def checkText (place : List String) : Option Str → Checked String
  | some s =>
    match s.text? with
    | some text => .ok text
    | none => .fault place .stringUnicode
  | none => .fault place .stringType

def checkInteger (place : List String) : NumberForm → Checked Int
  | .bool b => .ok b.toInt
  | .int n => .ok n
  | .float x =>
    match x.truncate? with
    | none => .fault place .finiteNumber
    | some n =>
      if !x.isIntegral then .fault place .intFromFloat
      else if isIntegerSized x then .ok n
      else .fault place .intParsingSize
  | .text s => ofText place (textInteger place) s
  | .other => .fault place .intType

def checkFloat (place : List String) : NumberForm → Checked Binary64
  | .bool b => .ok (.ofInt b.toInt)
  | .int n =>
    match Binary64.ofInt n with
    | .infinite _ => .fault place .floatType
    | x => .ok x
  | .float x => .ok x
  | .text s => ofText place (textFloat place) s
  | .other => .fault place .floatType

/-- A library that checks single values. What is made of records and lists of them does not depend on which. -/
structure Checker where
  text : List String → Option Str → Checked String
  integer : List String → NumberForm → Checked Int
  float : List String → NumberForm → Checked Binary64

namespace Checker

/-- The library of the program, as it is documented for values that need not be of the very type. -/
def standard : Checker where
  text := checkText
  integer := checkInteger
  float := checkFloat

/-- What should be a list of texts, seen as a list whose items are seen as texts. -/
def texts (checker : Checker) (place : List String) : Option (List (Option Str)) → Checked (List String)
  | some items => Checked.elements (fun i => checker.text (place ++ [toString i])) 0 items
  | none => .fault place .listType

end Checker

end Highlighter.Validation

import Highlighter.Pattern.Bracket
import Highlighter.Pattern.Name
import Highlighter.Pattern.Quantifier

/-! The parts of a pattern text between brackets: single characters, signs and escapes. Comments, and
blanks where they are ignored, stand between them. -/

namespace Highlighter.Pattern.Parser

open Highlighter.Unicode (CodeSet)

inductive Token where
  | stop
  | bar
  | opening
  | closing
  | bracket
  | char (code : Nat)
  /-- A character written by its code. -/
  | code (n : Nat)
  | byte (value : Nat)
  | class (codes : CodeSet)
  | word (negated : Bool)
  | property (negated braced : Bool)
  | any (lineFeed : Bool)
  | anchor (a : Anchor)
  | backref (r : Reference)
  | call (target : CallTarget)
  | sign (s : RepeatSign)
  | keep
  | lineEnding
  | cluster

/-- The text after a comment's closing parenthesis. -/
def afterComment? : List Char → Option (List Char)
  | [] => none
  | ')' :: s => some s
  | '\\' :: _ :: s => afterComment? s
  | _ :: s => afterComment? s

def isIgnoredBlank (c : Char) : Bool :=
  c == ' ' || c == '\t' || c == '\n' || c == '\r' || c == '\x0c'

/-- Skips comments and, in an extended pattern, blanks. The fuel bounds the characters skipped. -/
def skipIgnored (opts : Options) : Nat → Parser Unit
  | 0 => return ()
  | fuel + 1 => do
    match ← rest with
    | '(' :: '?' :: '#' :: s =>
      match afterComment? s with
      | some left => setRest left; skipIgnored opts fuel
      | none => fail .endInGroup
    | '#' :: s =>
      if opts.extended then
        setRest ((s.dropWhile (· != '\n')).drop 1)
        skipIgnored opts fuel
    | c :: s =>
      if opts.extended && isIgnoredBlank c then
        setRest s
        skipIgnored opts fuel
    | [] => return ()

/-- The number of a reference by digits, if there is one: it has one digit, or its group is open or
was met before. -/
def referenceNumber? (groups : Nat) (s : List Char) : Option (Nat × List Char) :=
  let (n, _, after) := decimal s
  if n ≤ 9 || n ≤ groups then some (n, after) else none

/-- A number after a backslash: a reference, or else an octal code, or the digit itself. -/
def numberToken (opts : Options) (c : Char) : Parser Token := do
  let s ← rest
  let r ← get
  match referenceNumber? (min r.groups 1000) (c :: s) with
  | some (n, after) =>
    setRest after
    let inside := r.opened.contains n
    return .backref { groups := [n], byName := false, level := none, fold := opts.fold, inside }
  | none =>
    if c == '8' || c == '9' then return .char c.toNat
    else
      setRest (c :: s)
      match ← octalByte 3 with
      | .byte value _ => return .byte value
      | _ => return .char c.toNat

/-- A name between the delimiters that follow the letter of an escape. -/
def delimiter? : Parser (Option Char) := do
  match ← rest with
  | '<' :: s => setRest s; return some '>'
  | '\'' :: s => setRest s; return some '\''
  | _ => return none

def anchorOf? (opts : Options) (c : Char) : Option Anchor :=
  match c with
  | 'b' => some (.wordBoundary false opts.asciiWords)
  | 'B' => some (.wordBoundary true opts.asciiWords)
  | 'y' => some (.division false opts.wordDivisions)
  | 'Y' => some (.division true opts.wordDivisions)
  | 'A' => some .textStart
  | 'Z' => some .lastLineEnd
  | 'z' => some .textEnd
  | 'G' => some .searchStart
  | _ => none

def writtenToken (c : Char) : NumberEscape → Parser Token
  | .items (.code n :: items) => do
    modify fun r => { r with pending := items }
    return .code n
  | .items _ => fail .codePoint
  | .byte value _ => return .byte value
  | .letter => return .char c.toNat

/-- What an escape stands for outside brackets. -/
def escapeToken (opts : Options) : Parser Token := do
  let c ← next .endAtEscape
  if let some a := anchorOf? opts c then return .anchor a
  match c with
  | 'w' => return .word false
  | 'W' => return .word true
  | 'K' => return .keep
  | 'R' => return .lineEnding
  | 'N' => return .any false
  | 'O' => return .any true
  | 'X' => return .cluster
  | 'x' => writtenToken c (← hexEscape false false)
  | 'u' => writtenToken c (← unicodeEscape)
  | 'o' => writtenToken c (← octalCodes false false)
  | '0' => writtenToken c (← octalByte 2)
  | 'p' | 'P' =>
    match ← propertyHead? (c == 'P') with
    | some (negated, braced) => return .property negated braced
    | none => return .char c.toNat
  | 'k' =>
    match ← delimiter? with
    | some close =>
      let (naming, text, level) ← referenceName close
      return .backref (← reference opts.fold naming text level)
    | none => return .char c.toNat
  | 'g' =>
    match ← delimiter? with
    | some close =>
      let (naming, text) ← groupName true close
      return .call (← callTarget naming text)
    | none => return .char c.toNat
  | _ =>
    if let some codes := escapedClass? opts c then return .class codes
    if c.isDigit then numberToken opts c
    else
      let code ← escapedChar (← rest).length c
      return if code == c.toNat then .char code else .code code

/-- The next part of the pattern. -/
def token (opts : Options) : Parser Token := do
  match (← get).pending with
  | item :: items =>
    modify fun r => { r with pending := items }
    match item with
    | .code n => return .code n
    | .dash => fail .codePoint
  | [] =>
    skipIgnored opts ((← rest).length + 1)
    match ← next? with
    | none => return .stop
    | some '\\' => escapeToken opts
    | some '.' => return .any opts.dotAll
    | some '^' => return .anchor .lineStart
    | some '$' => return .anchor .lineEnd
    | some '[' => return .bracket
    | some '(' => return .opening
    | some ')' => return .closing
    | some '|' => return .bar
    | some c =>
      match ← repeatSign? c with
      | some sign => return .sign sign
      | none => return .char c.toNat

end Highlighter.Pattern.Parser

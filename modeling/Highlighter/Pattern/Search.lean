import Highlighter.Pattern.Course
import Highlighter.Pattern.Machine
import Highlighter.Text.Str

/-! Searching a text: the match of a pattern at a place, the first place where there is one, and the
first of several patterns there. A search may stop without an answer. Templates take the text of a
match's groups. -/

namespace Highlighter.Pattern

structure Match where
  start : Nat
  stop : Nat
  /-- The spans of the groups from number one on. -/
  groups : List (Option Span)
  deriving DecidableEq, Repr

namespace Match

/-- The span of a group, with the whole match as group zero; the outer option tells whether the
pattern has such a group, the inner one whether it took part. -/
def group? (m : Match) : Nat → Option (Option Span)
  | 0 => some (some ⟨m.start, m.stop⟩)
  | n + 1 => m.groups[n]?

end Match

def Span.text (span : Span) (text : Text) : List Char :=
  (text.extract span.start span.stop).toList

/-- The text of a group of the pattern; a group that took no part has the empty text. -/
def Match.groupText? (m : Match) (text : Text) (n : Nat) : Option (List Char) :=
  (m.group? n).map fun span => (span.map (·.text text)).getD []

/-- The text with each reference `\N` replaced by a group's text as it is. A backslash that another
one escapes starts no reference. `slashes` counts the backslashes just read, `number` is the reference
being read. -/
def expandFrom (group? : Nat → Option (List CodePoint)) :
    Nat → Option Nat → List CodePoint → Option (List CodePoint)
  | slashes, none, [] => some (List.replicate slashes (.char '\\'))
  | _, some n, [] => group? n
  | slashes, none, c :: rest =>
    if c == .char '\\' then expandFrom group? (slashes + 1) none rest
    else if c.isDigit && slashes % 2 == 1 then
      (expandFrom group? 0 (some (c.code - 48)) rest).map
        (List.replicate (slashes - 1) (.char '\\') ++ ·)
    else (expandFrom group? 0 none rest).map (List.replicate slashes (.char '\\') ++ c :: ·)
  | _, some n, c :: rest =>
    if c.isDigit then expandFrom group? 0 (some (10 * n + (c.code - 48))) rest
    else do
      let inserted ← group? n
      if c == .char '\\' then return inserted ++ (← expandFrom group? 1 none rest)
      else return inserted ++ c :: (← expandFrom group? 0 none rest)

/-- Fills a template; `none` where it refers to a group that the pattern lacks. -/
def Match.expand? (m : Match) (text : Text) (template : Str) : Option Str :=
  (expandFrom (fun n => (m.groupText? text n).map (·.map .char)) 0 none template.toList).map Str.ofList

/-- The match that was found by a run. -/
def Finding.match? (f : Finding) : Option Match :=
  f.found.map fun (start, stop, captures) =>
    { start, stop
      groups := captures.toList.tail.map fun
        | ⟨some start, some stop⟩ => some ⟨start, stop⟩
        | _ => none }

namespace Regex

/-- Counters that have not counted yet. -/
def counters (r : Regex) : Counters := Array.replicate r.program.callouts.size (0, 0)

def runAt (r : Regex) (text : Text) (searchStart attempt position : Nat) (counters : Counters) :
    Except PatternError Finding :=
  Setting.runAt ⟨r.program, text, searchStart, attempt⟩ position counters

/-- The match that begins its search at one position and starts at another. -/
def matchAt (r : Regex) (text : Text) (searchStart position : Nat) :
    Except PatternError (Option Match) :=
  return (← r.runAt text searchStart 1 position r.counters).match?

/-- The one of two matches that takes more bytes, or the first of them. -/
def longer (text : Text) (best : Option Match) (m : Match) : Match :=
  let bytes (m : Match) : Nat := Text.byteLength (text.extract m.start m.stop).toList
  match best with
  | some b => if bytes b < bytes m then m else b
  | none => m

/-- Tries the places of a course, so many from one on; `best` is the longest match so far, where that is
wanted. -/
def searchFrom (r : Regex) (text : Text) (start : Nat) (course : Course) :
    Nat → Nat → Nat → Counters → Option Match → Except PatternError (Option Match)
  | 0, _, _, _, best => .ok best
  | fuel + 1, attempt, position, counters, best =>
    if course.last < position then .ok best
    else if !course.admits text start position then
      searchFrom r text start course fuel attempt (position + 1) counters best
    else
      match r.runAt text start attempt position counters with
      | .error e => .error e
      | .ok f =>
        let next := max (position + 1) f.skip
        match f.match? with
        | none => searchFrom r text start course fuel (attempt + 1) next f.counters best
        | some m =>
          if r.program.longest then
            searchFrom r text start course fuel (attempt + 1) next f.counters
              (some (longer text best m))
          else .ok (some m)

/-- The leftmost match from a position on. -/
def search (r : Regex) (text : Text) (start : Nat) : Except PatternError (Option Match) :=
  let course := r.program.foresight.course text start
  if course.isOpen then r.searchFrom text start course (text.size + 1 - start) 1 start r.counters none
  else .ok none

end Regex

/-- The counters of those of several patterns that count, by their places in the list. -/
abbrev CounterBook := List (Nat × Counters)

/-- The first of the patterns that matches at a position, by its place in the list; each has a course of
its own. -/
def matchAnyAt (text : Text) (start attempt position : Nat) :
    List (Regex × Course) → Nat → CounterBook → Except PatternError (Option (Nat × Match) × CounterBook)
  | [], _, book => .ok (none, book)
  | (r, course) :: rest, index, book =>
    if !course.admits text start position then
      matchAnyAt text start attempt position rest (index + 1) book
    else
      let counters := if r.program.callouts.isEmpty then #[] else (book.lookup index).getD r.counters
      match r.runAt text start attempt position counters with
      | .error e => .error e
      | .ok f =>
        let book := if r.program.callouts.isEmpty then book else (index, f.counters) :: book
        match f.match? with
        | some m => .ok (some (index, m), book)
        | none => matchAnyAt text start attempt position rest (index + 1) book

/-- Tries the patterns at so many positions from one on. -/
def searchAnyFrom (rs : List (Regex × Course)) (text : Text) (start : Nat) :
    Nat → Nat → Nat → CounterBook → Except PatternError (Option (Nat × Match))
  | 0, _, _, _ => .ok none
  | fuel + 1, attempt, position, book =>
    match matchAnyAt text start attempt position rs 0 book with
    | .error e => .error e
    | .ok (some found, _) => .ok (some found)
    | .ok (none, book) => searchAnyFrom rs text start fuel (attempt + 1) (position + 1) book

/-- The leftmost match of any of the patterns; of several at one place the first pattern's. Nothing is
found at the end of the text. -/
def searchAny (rs : List Regex) (text : Text) (start : Nat) :
    Except PatternError (Option (Nat × Match)) :=
  if text.size ≤ start then .ok none
  else
    let courses := Foresight.courses (rs.map (·.program.foresight)) text start
    searchAnyFrom (rs.zip courses) text start (text.size + 1 - start) 1 start []

end Highlighter.Pattern

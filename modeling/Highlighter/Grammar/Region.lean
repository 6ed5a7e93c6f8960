import Highlighter.Grammar.Stack

/-! Regions of a line, and how the captures of a match divide it. -/

namespace Highlighter.Grammar

open Highlighter.Pattern (Match Span Text)

/-- Characters `start` to `stop` with their scope stack. -/
structure Region where
  start : Nat
  stop : Nat
  scope : Scope
  deriving DecidableEq, Repr

def Region.shift (offset : Nat) (r : Region) : Region :=
  { r with start := r.start + offset, stop := r.stop + offset }

/-- The stretch from one position to another, where there is one. -/
def gap (start stop : Nat) (scope : Scope) : List Region :=
  if start < stop then [⟨start, stop, scope⟩] else []

/-- Divides a whole text under a rule: the text, the scope around the rule, the rule. -/
abbrev Division := Text → Scope → Compiled → Compile (List Region)

/-- The region in which a position starts, between those before and those after it: going back from
the last region while the region before ends after the position. The regions come last first. -/
def holder? (position : Nat) : List Region → List Region → Option (List Region × Region × List Region)
  | [], _ => none
  | [r], after => some ([], r, after)
  | r :: before :: rest, after =>
    if position < before.stop then holder? position (before :: rest) (r :: after)
    else some ((before :: rest).reverse, r, after)

/-- What becomes of a region around a span that is divided on its own. -/
def splice (old : Region) (start stop : Nat) (inner : List Region) : List Region :=
  gap old.start start old.scope ++ inner ++ gap stop old.stop old.scope

/-- The regions of a match so far, and the position up to which the match was divided. -/
structure Progress where
  regions : List Region
  covered : Nat

/-- Adds the span of a group under a rule. One that starts before the position up to which the match
was divided lies in a region that is there already. -/
def addSpan (engine : Engine) (divide : Division) (line : Text) (scope : Scope) (span : Span)
    (rule : Rule) (p : Progress) : Compile Progress := do
  let text := line.extract span.start span.stop
  let compiled ← compileRule engine rule
  if span.start < p.covered then
    match holder? span.start p.regions.reverse [] with
    | none => throw .noRegion
    | some (before, old, after) =>
      let inner := (← divide text old.scope compiled).map (·.shift span.start)
      return { p with regions := before ++ splice old span.start span.stop inner ++ after }
  else
    let inner := (← divide text scope compiled).map (·.shift span.start)
    return ⟨p.regions ++ gap p.covered span.start scope ++ inner, span.stop⟩

/-- Adds one capture, where its group took part in the match and is not empty. -/
def addCapture (engine : Engine) (divide : Division) (line : Text) (scope : Scope) (m : Match)
    (capture : Nat × Rule) (p : Progress) : Compile Progress :=
  match m.group? capture.1 with
  | some (some span) =>
    if span.start == span.stop then return p
    else addSpan engine divide line scope span capture.2 p
  | _ => return p

/-- Divides a match by its captures in their order, given how each is added; what no capture takes has
the scope of the match. -/
def divideMatch (add : Scope → Match → Nat × Rule → Progress → Compile Progress) (scope : Scope)
    (m : Match) (captures : Captures) : Compile (List Region) := do
  let p ← captures.foldlM (fun p capture => add scope m capture p) ⟨[], m.start⟩
  return p.regions ++ gap p.covered m.stop scope

end Highlighter.Grammar

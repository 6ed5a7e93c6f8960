import Highlighter.Styling.Run

/-! Colors of brackets by nesting depth. Brackets are matched across ranges and lines by a stack of the
open ones, the innermost first. A caller may begin with a stack of its own, whose entries need not be
brackets: those are never closed. -/

namespace Highlighter.Styling

def opens (p : CodePoint) : Bool := p == .char '(' || p == .char '[' || p == .char '{'

/-- The opening bracket of a closing one. -/
def opener? : CodePoint → Option CodePoint
  | .char ')' => some (.char '(')
  | .char ']' => some (.char '[')
  | .char '}' => some (.char '{')
  | _ => none

def isBracket (p : CodePoint) : Bool := opens p || (opener? p).isSome

/-- Brackets in comments and regular expressions are left alone, and those in strings unless the text
is embedded or interpolated there. -/
def isBracketSafe (labels : List Str) : Bool :=
  let anyHas (part : Str) := labels.any (Text.mentions · part)
  if anyHas "comment" || anyHas "regex" then false
  else !anyHas "string" || anyHas "embedded" || anyHas "interpolation"

abbrev Palette := List Str

/-- The color of a depth; the palette repeats. -/
def depthColor? (palette : Palette) (depth : Nat) : Option Str :=
  palette[depth % palette.length]?

/-- How a bracket stands among the open ones. -/
def bracketText (p : CodePoint) : Str := .ofList [p]

theorem bracketText_inj {p q : CodePoint} : bracketText p = bracketText q ↔ p = q := by
  simp [bracketText]

/-- The color of a bracket, and the open brackets after it. A closing bracket takes the color of the
opening one that it closes; if it closes none, it keeps the color it has. There is no color if the
palette has none. -/
def bracketStep (palette : Palette) (own : Str) (stack : List Str) (p : CodePoint) :
    Option Str × List Str :=
  if opens p then
    match depthColor? palette stack.length with
    | none => (none, stack)
    | some color => (some color, bracketText p :: stack)
  else match stack with
    | top :: rest =>
      if (opener? p).map bracketText == some top then (depthColor? palette rest.length, rest)
      else (some own, stack)
    | [] => (some own, [])

/-- A part of a range's text, from an offset on. -/
def StyledRange.part (r : StyledRange) (offset : Nat) (text : List CodePoint) : StyledRange :=
  { r with
    startChar := r.startChar + offset
    endChar := r.startChar + offset + text.length
    text := .ofList text }

/-- The style of a bracket: its color is the last entry of the trace. -/
def ResolvedStyle.withBracket (s : ResolvedStyle) (color : Str) : ResolvedStyle :=
  { s with
    foreground := color
    trace := s.trace ++ [.bracket]
    active := s.trace.length
    colors := s.colors ++ [color] }

/-- The part of a range before a bracket, where there is one. -/
def StyledRange.plainPart (r : StyledRange) (offset : Nat) (plain : List CodePoint) : List StyledRange :=
  if plain.isEmpty then [] else [r.part (offset - plain.length) plain.reverse]

/-- Cuts a range at its brackets. The plain text read since the last one is reversed and ends at the
offset. -/
def cutBrackets (palette : Palette) (r : StyledRange) (offset : Nat) (plain : List CodePoint)
    (stack : List Str) : List CodePoint → Option (List StyledRange) × List Str
  | [] => (some (r.plainPart offset plain), stack)
  | p :: rest =>
    if isBracket p then
      match bracketStep palette r.style.foreground stack p with
      | (none, stack) => (none, stack)
      | (some color, stack) =>
        let piece := { r.part offset [p] with style := r.style.withBracket color }
        let (after, stack) := cutBrackets palette r (offset + 1) [] stack rest
        (after.map fun after => r.plainPart offset plain ++ piece :: after, stack)
    else cutBrackets palette r (offset + 1) (p :: plain) stack rest

def StyledRange.hasSafeBrackets (r : StyledRange) : Bool :=
  r.text != "" && isBracketSafe (r.style.trace.map (·.label)) && r.text.toList.any isBracket

/-- Colors the brackets of ranges, given the open brackets before them; gives the ranges, unless a
color was needed and the palette has none, and the open brackets after what was done. -/
def colorBrackets (palette : Palette) (stack : List Str) :
    List StyledRange → Option (List StyledRange) × List Str
  | [] => (some [], stack)
  | r :: rest =>
    let (pieces, stack) :=
      if r.hasSafeBrackets then cutBrackets palette r 0 [] stack r.text.toList
      else (some [r], stack)
    match pieces with
    | none => (none, stack)
    | some pieces =>
      let (after, stack) := colorBrackets palette stack rest
      (after.map (pieces ++ ·), stack)

/-- The colors of depths one, two and three, and then again from the first. -/
def standardPalette : Palette := ["#FFD700", "#DA70D6", "#179FFF"]

end Highlighter.Styling

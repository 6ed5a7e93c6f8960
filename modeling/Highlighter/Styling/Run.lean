import Highlighter.Grammar.Basic
import Highlighter.Semantic.Span
import Highlighter.Styling.Resolution

/-! Styled ranges of a line: each character gets the style of what covers it, and neighbours with the
same style are joined. A surrogate that stands alone counts as a character, here and wherever ranges are. -/

namespace Highlighter.Styling

open Highlighter.Semantic (Classification Span)
open Highlighter.Grammar (Token)

structure StyledRange where
  startLine : Int
  startChar : Int
  endLine : Int
  endChar : Int
  text : Str
  style : ResolvedStyle
  deriving DecidableEq, Repr, Inhabited

/-- What is known of a character before a theme is asked. -/
abbrev Cell := List Str × Option Classification

/-- Gives the cells in a stretch a new value; a stretch may reach beyond the line. -/
def paint {α : Type} (start stop : Int) (v : α) (cells : List α) : List α :=
  cells.mapIdx fun i old => if start ≤ i && i < stop then v else old

/-- The scopes and the classification of each character of a line: later tokens and spans lie over
earlier ones. -/
def cellsOf (length : Nat) (tokens : List Token) (spans : List Span) : List Cell :=
  let scopes := tokens.foldl (fun cells t => paint t.start t.stop t.scopes cells)
    (List.replicate length [])
  let kinds := spans.foldl (fun cells s => paint s.start s.stop (some s.kind) cells)
    (List.replicate length none)
  scopes.zip kinds

/-- The range of a line from a column on. -/
def rangeAt (line : Int) (start : Nat) (text : List CodePoint) (style : ResolvedStyle) : StyledRange :=
  ⟨line, start, line, start + text.length, .ofList text, style⟩

/-- Joins the characters that follow to the run being read while their styles agree with the first
one's; the run is reversed, and starts at a column. -/
def runsFrom (line : Int) (start : Nat) (run : List CodePoint) (style : ResolvedStyle) :
    List (CodePoint × ResolvedStyle) → List StyledRange
  | [] => [rangeAt line start run.reverse style]
  | (c, next) :: rest =>
    if next.agrees style then runsFrom line start (c :: run) style rest
    else rangeAt line start run.reverse style ::
      runsFrom line (start + run.length) [c] next rest

/-- The style of an empty line, which shows nothing. -/
def emptyLineStyle : ResolvedStyle := ⟨"", none, .textmate, [], -1, []⟩

/-- The ranges of a line whose characters have the given styles. -/
def runs (line : Int) : List (CodePoint × ResolvedStyle) → List StyledRange
  | [] => [rangeAt line 0 [] emptyLineStyle]
  | (c, style) :: rest => runsFrom line 0 [c] style rest

end Highlighter.Styling

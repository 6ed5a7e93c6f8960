import Highlighter.Styling.Bracket
import Highlighter.Text.Lines

/-! Semantic tokens laid over lexical ones: the styled ranges of a document. Styles that were resolved
for a document are remembered while it is worked on. -/

namespace Highlighter.Styling

open Highlighter.Semantic (Classification Legend Span)
open Highlighter.Grammar (Token)

structure Overlay where
  theme : Theme
  known : List (Cell × ResolvedStyle) := []
  deriving Inhabited

namespace Overlay

/-- The style of a cell: the remembered one, or else what the theme says now. -/
def resolve (o : Overlay) (cell : Cell) : ResolvedStyle × Overlay :=
  match o.known.lookup cell with
  | some style => (style, o)
  | none =>
    let style := Styling.resolve o.theme cell.1 cell.2
    (style, { o with known := (cell, style) :: o.known })

def resolveAll (o : Overlay) : List Cell → List ResolvedStyle × Overlay
  | [] => ([], o)
  | cell :: rest =>
    let (style, o) := o.resolve cell
    let (styles, o) := resolveAll o rest
    (style :: styles, o)

/-- The ranges of a line. -/
def line (o : Overlay) (number : Int) (text : Str) (tokens : List Token) (spans : List Span) :
    List StyledRange × Overlay :=
  let (styles, o) := o.resolveAll (cellsOf text.length tokens spans)
  (runs number (text.toList.zip styles), o)

/-- The ranges of lines from a number on; the spans are given by line. -/
def linesFrom (o : Overlay) (tokens : List Token) (spans : Nat → List Span) (number : Nat) :
    List Str → List StyledRange × Overlay
  | [] => ([], o)
  | text :: rest =>
    let own := tokens.filter (·.line == (number : Int))
    let (ranges, o) := o.line number text own (spans number)
    let (more, o) := linesFrom o tokens spans (number + 1) rest
    (ranges ++ more, o)

def lines (o : Overlay) (texts : List Str) (tokens : List Token) (spans : Nat → List Span) :
    List StyledRange × Overlay := o.linesFrom tokens spans 0 texts

/-- The ranges of a document with colored brackets. Semantic columns are in UTF-16 units or in
characters. -/
def document (o : Overlay) (content : Str) (tokens : List Token) (data : List Int)
    (legend : Option Legend) (utf16 : Bool) : List StyledRange × Overlay :=
  let texts := content.lines
  let spans := Semantic.decode legend (if utf16 then some texts else none) data
  let (ranges, o) := { o with known := [] }.lines texts tokens (Semantic.onLine spans)
  (((colorBrackets standardPalette [] ranges).1).getD ranges, o)

end Overlay

end Highlighter.Styling

import Highlighter.Page.Html
import Highlighter.Snapshot.Entry

/-! The page that shows highlighted text: one span for each entry, with all that is known of it. -/

namespace Highlighter.Page

open Highlighter.Snapshot (Entry)

def hasStyleWord (e : Entry) (word : String) : Bool := Text.mentions (e.fontStyle.getD "") word

/-- The look of an entry. -/
def declarations (e : Entry) : String :=
  let color := if e.foreground == "" then "inherit" else e.foreground
  " ".intercalate (s!"color: {color};" ::
    (if hasStyleWord e "italic" then ["font-style: italic;"] else []) ++
    (if hasStyleWord e "bold" then ["font-weight: bold;"] else []) ++
    (if hasStyleWord e "underline" then ["text-decoration: underline;"] else []))

/-- A line of the explanation: a scope with its color, marked if it is the active one. -/
def scopeLine (e : Entry) (index : Nat) (scope : String) : List Char :=
  let mark := if e.activeScope == (index : Int) then '*' else ' '
  let color := e.scopeColors.getD index ""
  Text.trimRight (mark :: ' ' :: scope.toList ++ ' ' :: color.toList)

/-- What is shown of an entry when it is pointed at. -/
def explanation (e : Entry) : List Char :=
  let scopes := e.scopes.mapIdx (scopeLine e)
  (e.source.toList ++ ' ' :: e.foreground.toList) ++ scopes.flatMap ('\n' :: ·)

/-- The span of an entry in a class, which may be empty. -/
def entrySpan (cls : String) (e : Entry) : List Char :=
  span
    [("class", cls.toList), ("style", (declarations e).toList), ("title", explanation e),
      ("data-line", (toString e.startLine).toList), ("data-start", (toString e.startChar).toList),
      ("data-end", (toString e.endChar).toList), ("data-source", e.source.toList),
      ("data-scopes", (", ".intercalate e.scopes).toList),
      ("data-foreground", e.foreground.toList),
      ("data-scope-colors", (",".intercalate e.scopeColors).toList),
      ("data-active-index", (toString e.activeScope).toList)]
    (escape e.text.toList)

/-- The entries that start on a line, in order. -/
def entriesOn (entries : List Entry) (line : Nat) : List Entry :=
  entries.filter (·.startLine == (line : Int))

/-- The last entry ends on the last line. -/
def lineCount (entries : List Entry) : Nat :=
  match entries.getLast? with
  | some e => (e.endLine + 1).toNat
  | none => 0

/-- Pieces with an end of line between them. -/
def joinLines : List (List Char) → List Char
  | [] => []
  | [line] => line
  | line :: rest => line ++ '\n' :: joinLines rest

/-- The page of a document. -/
def view (title : String) (entries : List Entry) : List Char :=
  let lines := (List.range (lineCount entries)).map fun n =>
    (entriesOn entries n).flatMap (entrySpan "")
  page title (heading title ++ '\n' :: preformatted (joinLines lines))

end Highlighter.Page

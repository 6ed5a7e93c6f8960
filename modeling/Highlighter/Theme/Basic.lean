import Highlighter.Json.Basic
import Highlighter.Text.Blank

/-! Color themes: rules that give styles to scopes, and styles for semantic token types. A theme is
built from documents, base themes first; what is wrong in kind in a document counts as absent. -/

namespace Highlighter

open Highlighter.Json (Value Members)

/-- The look of a piece of text; what is absent is left to the reader of the style. -/
structure Style where
  foreground : Option Str := none
  fontStyle : Option Str := none
  deriving DecidableEq, Repr, Inhabited

/-- A style and the scopes it is for. -/
structure StyleRule where
  selectors : List Str
  style : Style
  deriving DecidableEq, Repr, Inhabited

/-- Rules in the order in which they were loaded, and the styles under semantic keys such as
`variable` or `*.readonly`. -/
structure Theme where
  name : Str := ""
  rules : List StyleRule := []
  semantic : List (Str × Style) := []
  deriving DecidableEq, Repr, Inhabited

namespace Style

/-- The color of text for which a theme says nothing. -/
def defaultForeground : Str := "#D4D4D4"

/-- A missing or empty color stands for the default one. -/
def shownForeground (s : Style) : Str :=
  match s.foreground with
  | some color => if color == "" then defaultForeground else color
  | none => defaultForeground

/-- The flags that are set, in their fixed order; they count only without a font style. -/
def flagText (settings : Members) : Option Str :=
  let set := ["italic", "bold", "underline"].filter fun flag : String =>
    match Json.find? settings flag with
    | some (.bool true) => true
    | _ => false
  if set.isEmpty then none else some (" ".intercalate set)

def ofSettings (settings : Members) : Style where
  foreground := (Json.find? settings "foreground").bind (·.string?)
  fontStyle :=
    match Json.find? settings "fontStyle" with
    | none | some .null => flagText settings
    | some v => v.string?

end Style

namespace StyleRule

/-- Selectors are written in one text, between commas, or as a list of texts; blanks around them do
not count, and empty ones are left out. -/
def selectorsOf : Option Value → List Str
  | some (.string s) => kept (s.splitAt ',')
  | some (.array items) => kept (items.filterMap (·.string?))
  | _ => []
where
  kept (texts : List Str) : List Str := (texts.map (·.trimmed)).filter (· != "")

def ofEntry (entry : Members) : StyleRule where
  selectors := selectorsOf (Json.find? entry "scope")
  style := Style.ofSettings (((Json.find? entry "settings").bind (·.object?)).getD [])

end StyleRule

namespace Theme

/-- The rules of a document, in order. -/
def rulesOf (document : Members) : List StyleRule :=
  match Json.find? document "tokenColors" with
  | some (.array entries) => entries.filterMap fun e => e.object?.map StyleRule.ofEntry
  | _ => []

/-- A semantic style is a color or a set of settings. -/
def semanticStyle? : Value → Option Style
  | .string color => some { foreground := some color }
  | .object settings => some (Style.ofSettings settings)
  | _ => none

def semanticOf (document : Members) : List (Str × Style) :=
  match Json.find? document "semanticTokenColors" with
  | some (.object entries) =>
    entries.filterMap fun e => (semanticStyle? e.2).map fun style => (e.1, style)
  | _ => []

/-- Gives a semantic key a style; a later one replaces an earlier one in its place. -/
def setSemantic (entries : List (Str × Style)) (entry : Str × Style) :
    List (Str × Style) :=
  if entries.any (·.1 == entry.1) then
    entries.map fun e => if e.1 == entry.1 then entry else e
  else entries ++ [entry]

/-- Adds a document on top of what is there. -/
def addDocument (t : Theme) (document : Members) : Theme :=
  { t with
    rules := t.rules ++ rulesOf document
    semantic := (semanticOf document).foldl setSemantic t.semantic }

/-- The theme of documents, base themes first. -/
def ofDocuments (documents : List Members) : Theme := documents.foldl addDocument {}

end Theme

end Highlighter

import Highlighter.Json.Basic
import Highlighter.Styling.Bracket
import Highlighter.Text.Quoted
import Highlighter.Validation.Number

/-! Entries of a snapshot: styled ranges as they are written to files and read back. -/

namespace Highlighter.Snapshot

open Highlighter.Json (Value Members)
open Highlighter.Styling (StyledRange)
open Highlighter.Validation (Checked Checker NumberForm)

structure Entry where
  startLine : Int
  startChar : Int
  endLine : Int
  endChar : Int
  text : String
  foreground : String
  fontStyle : Option String
  source : String
  scopes : List String
  scopeColors : List String
  activeScope : Int
  deriving DecidableEq, Repr, Inhabited

namespace Entry

/-- The trace of a style is written as the labels of its entries. Texts that cannot be written in bytes, which no
entry has, are taken as they are shown. -/
def ofRange (r : StyledRange) : Entry where
  startLine := r.startLine
  startChar := r.startChar
  endLine := r.endLine
  endChar := r.endChar
  text := r.text.shown
  foreground := r.style.foreground.shown
  fontStyle := r.style.fontStyle.map (·.shown)
  source := r.style.source.label
  scopes := r.style.trace.map (·.label.shown)
  scopeColors := r.style.colors.map (·.shown)
  activeScope := r.style.active

/-- An entry of a range whose texts can be written in bytes. -/
def ofRange? (checker : Checker) (r : StyledRange) : Checked Entry :=
  let text (place : String) (s : Str) : Checked String := checker.text [place] (some s)
  let texts (place : String) (ss : List Str) : Checked (List String) :=
    checker.texts [place] (some (ss.map some))
  (fun _ _ _ _ _ => ofRange r) <$> text "text" r.text <*> text "foreground" r.style.foreground <*>
    Validation.optional "" (text "font_style") r.style.fontStyle <*>
    texts "scopes" (r.style.trace.map (·.label)) <*> texts "scope_colors" r.style.colors

/-- A font style is written only where there is one. -/
def toJson (e : Entry) : Value :=
  let front : Members := [("startLine", .int e.startLine), ("startChar", .int e.startChar),
    ("endLine", .int e.endLine), ("endChar", .int e.endChar), ("text", .string e.text),
    ("foreground", .string e.foreground)]
  let font : Members := match e.fontStyle with
    | some s => [("fontStyle", .string s)]
    | none => []
  let back : Members := [("source", .string e.source), ("scopes", .ofStrings e.scopes),
    ("scopeColors", .ofStrings e.scopeColors), ("activeScopeIndex", .int e.activeScope)]
  .object (front ++ font ++ back)

/-- A member under either of its two names, with the name it was found under. -/
def member (members : Members) (name other : String) : String × Option Value :=
  match Json.find? members name, Json.find? members other with
  | some v, _ => (name, some v)
  | none, some v => (other, some v)
  | none, none => (name, none)

def numberForm : Value → NumberForm
  | .bool b => .bool b
  | .int n => .int n
  | .float x => .float x
  | .string s => .text s
  | _ => .other

section
variable (checker : Checker)

def checkInteger (place : List String) (v : Value) : Checked Int :=
  checker.integer place (numberForm v)

def checkText (place : List String) (v : Value) : Checked String :=
  checker.text place v.string?

def checkTexts (place : List String) (v : Value) : Checked (List String) :=
  checker.texts place (v.array?.map fun items => items.map (·.string?))

def checkFontStyle (place : List String) : Value → Checked (Option String)
  | .null => .ok none
  | v => some <$> checkText checker place v

/-- An entry from its members; others than its own do not matter. -/
def ofMembers (place : List String) (members : Members) : Checked Entry :=
  let integer (name other : String) : Checked Int :=
    let (name, v) := member members name other
    Validation.required (place ++ [name]) (checkInteger checker (place ++ [name])) v
  let text (name : String) : Checked String :=
    Validation.required (place ++ [name]) (checkText checker (place ++ [name])) (Json.find? members name)
  let texts (name other : String) : Checked (List String) :=
    let (name, v) := member members name other
    Validation.optional [] (checkTexts checker (place ++ [name])) v
  let (fontName, font) := member members "fontStyle" "font_style"
  let (activeName, active) := member members "activeScopeIndex" "active_scope_index"
  Entry.mk <$> integer "startLine" "start_line" <*> integer "startChar" "start_char" <*>
    integer "endLine" "end_line" <*> integer "endChar" "end_char" <*> text "text" <*>
    text "foreground" <*>
    Validation.optional none (checkFontStyle checker (place ++ [fontName])) font <*>
    text "source" <*> texts "scopes" "scopes" <*> texts "scopeColors" "scope_colors" <*>
    Validation.optional (-1) (checkInteger checker (place ++ [activeName])) active

def ofJson (place : List String) : Value → Checked Entry
  | .object members => ofMembers checker place members
  | _ => .fault place .modelType

end

end Entry

/-- The entries of ranges, up to the first that cannot be written. -/
def ofRanges (checker : Checker) (ranges : List StyledRange) : Checked (List Entry) :=
  ranges.mapM (m := Except (List Validation.Issue)) (Entry.ofRange? checker)

/-- The entries of a snapshot from their JSON form. -/
def entriesOf (checker : Checker) : Value → Checked (List Entry)
  | .array items => Checked.elements (fun i => Entry.ofJson checker [toString i]) 0 items
  | _ => .fault [] .listType

/-- The JSON form of a snapshot. -/
def toJson (entries : List Entry) : Value := .array (entries.map Entry.toJson)

/-- Whether a stored value means the same as the entries that were made. -/
def agrees (expected : Value) (actual : List Entry) : Bool := expected.agrees (toJson actual)

end Highlighter.Snapshot

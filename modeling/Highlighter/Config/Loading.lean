import Highlighter.Config.Model
import Highlighter.Files.Tree
import Highlighter.Toml.Reader

/-! Loading the configuration of a run. Its paths are taken from the directory of its file. -/

namespace Highlighter

open Highlighter.Config (Model)
open Highlighter.Decimal (Binary64)
open Highlighter.Files (Path PathFault Tree FileError)
open Highlighter.Validation (Issue)

structure Config where
  file : Path
  grammar : Path
  scopeName : String
  extraGrammars : List (String × Path)
  theme : String
  files : List Path
  outDir : Path
  snapshotDir : Path
  languageId : String
  command : List String
  rootUri : String
  timeout : Binary64
  tokenTypes : List String
  tokenModifiers : List String
  deriving Repr

inductive ConfigError where
  | missing (path : Path)
  | unreadable (path : Path) (cause : FileError)
  /-- The text is no TOML. -/
  | malformed (path : Path)
  | invalid (path : Path) (issues : List Issue)
  deriving Repr

/-- What stops the loading of a configuration: a fault that is reported as such, or one that is
not. -/
inductive ConfigFailure where
  | config (e : ConfigError)
  /-- The bytes are no text. -/
  | undecodable
  | hugeInteger
  | path (f : PathFault)
  deriving Repr

/-- The text of an error. The details of a text that cannot be read, or of data with faults, are left
to the reader of the message. -/
def ConfigError.message (detail : String) : ConfigError → String
  | .missing path => s!"Config file not found: {path.toString}"
  | .unreadable path cause => s!"Failed to read config file {path.toString}: {cause.message}"
  | .malformed path => s!"Failed to parse config file {path.toString}: {detail}"
  | .invalid path _ => s!"Invalid config file {path.toString}:\n{detail}"

namespace Config

/-- The name of a configuration file that is looked for where none is named. -/
def defaultName : String := "tintscope.toml"

/-- The language of a scope is the part after its last dot. -/
def languageOfScope (scope : String) : String :=
  let last := String.ofList (scope.toList.reverse.takeWhile (· != '.')).reverse
  if last == "" then "plaintext" else last

def directory (c : Config) : Path := c.file.parent

/-- A text that is not empty. -/
def filled (s : Option String) : Option String := s.filter (· != "")

/-- The configuration of a file, from its settings. An empty setting counts as none. -/
def ofModel (file : Path) (m : Model) : Except PathFault Config := do
  let base := file.parent
  let place (s : String) : Except PathFault Path := Path.resolve base (Path.ofString s)
  let placeOr (absent : String) (s : Option String) : Except PathFault Path :=
    match filled s with
    | some s => place s
    | none => .ok (base.child absent)
  return {
    file
    grammar := ← place m.grammar
    scopeName := m.scopeName
    extraGrammars := ← m.extraGrammars.mapM fun (scope, path) => return (scope, ← place path)
    theme := m.theme
    files := ← m.files.mapM place
    outDir := ← placeOr "out" m.outDir
    snapshotDir := ← placeOr "snapshots" m.snapshotDir
    languageId := (filled m.languageId).getD (languageOfScope m.scopeName)
    command := m.server.command
    rootUri := (filled m.server.rootUri).getD base.toUri
    timeout := m.server.timeout
    tokenTypes := m.server.tokenTypes
    tokenModifiers := m.server.tokenModifiers }

/-- The text of a configuration file. -/
def readText (tree : Tree) (path : Path) : Except ConfigFailure (List Char) :=
  match tree.readText path with
  | .error e =>
    .error (.config (if e.fault == .missing then .missing path else .unreadable path e))
  | .ok none => .error .undecodable
  | .ok (some text) => .ok text

/-- The configuration of a file. -/
def load (tree : Tree) (cwd path : Path) : Except ConfigFailure Config := do
  let path ← (Path.resolve cwd path).mapError .path
  let text ← readText tree path
  match Toml.read text with
  | .error .hugeInteger => throw .hugeInteger
  | .error .malformed => throw (.config (.malformed path))
  | .ok table =>
    match Model.check .standard table with
    | .error issues => throw (.config (.invalid path issues))
    | .ok m => (ofModel path m).mapError .path

/-- The configuration file of a directory. -/
def fileIn (directory : Path) : Path := directory.child defaultName

end Config

end Highlighter

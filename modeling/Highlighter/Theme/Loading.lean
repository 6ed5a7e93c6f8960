import Highlighter.Theme.Basic
import Highlighter.Json.Reader
import Highlighter.Files.Disk

/-! Loading a theme from its file and the files it includes. Theme files are JSON with two liberties: lines that
hold only a comment, and a comma before a closing bracket. Both are taken out of the text before it is read as
JSON. -/

namespace Highlighter

namespace Theme

/-- Where the reader of comments stands: in text, at the front of a line or not; among the blanks
before a comment, which go with it; or in a comment. -/
inductive CommentPlace where
  | text (atLineFront : Bool)
  | blanksBefore
  | comment
  deriving DecidableEq, Repr

/-- Whether two slashes come after any blanks, ends of lines among them. -/
def startsComment (s : List Char) : Bool := ['/', '/'].isPrefixOf (Text.trimLeft s)

/-- Leaves out every comment that follows nothing but blanks since the front of a line, together with
those blanks, up to the end of its line. -/
def stripComments : CommentPlace → List Char → List Char
  | _, [] => []
  | .comment, c :: rest =>
    if c == '\n' then c :: stripComments (.text true) rest else stripComments .comment rest
  | .blanksBefore, c :: rest =>
    stripComments (if c == '/' then .comment else .blanksBefore) rest
  | .text atLineFront, c :: rest =>
    if atLineFront && startsComment (c :: rest) then
      stripComments (if c == '/' then .comment else .blanksBefore) rest
    else c :: stripComments (.text (c == '\n')) rest

/-- Whether a closing bracket or brace is the next character that is not blank. -/
def closesNext (s : List Char) : Bool :=
  match Text.trimLeft s with
  | c :: _ => c == '}' || c == ']'
  | [] => false

/-- Leaves out every comma right before a closing bracket. -/
def stripCommas : List Char → List Char
  | [] => []
  | c :: rest =>
    if c == ',' && closesNext rest then stripCommas rest else c :: stripCommas rest

/-- The JSON text of a theme file. -/
def plainJson (s : List Char) : List Char := stripCommas (stripComments (.text true) s)

end Theme

open Highlighter.Json (Members)
open Highlighter.Files (Disk FileError Path PathFault Route)

inductive ThemeError where
  | unreadable (path : Route) (cause : FileError)
  | malformed (path : Route) (cause : Json.ReadError)
  | notObject (path : Route)
  | includeCycle (path : Route)
  /-- A theme is named, and no directory is known in which to look for it. -/
  | noDirectory (name : String)
  | unknownName (name : String) (directory file : Path)
  deriving Repr

/-- What stops the loading of a theme: a fault that is reported as such, or one that is not. -/
inductive ThemeFailure where
  | theme (e : ThemeError)
  /-- The bytes of a file are no text. -/
  | undecodable
  | hugeInteger
  | path (f : PathFault)
  /-- The search for a file failed. -/
  | file (e : FileError)
  deriving Repr

def ThemeError.message : ThemeError → String
  | .unreadable path cause => s!"Failed to read theme {path.toStr.shown}: {cause.message}"
  | .malformed path cause => s!"Failed to parse theme {path.toStr.shown}: {cause.message}"
  | .notObject path => s!"Theme {path.toStr.shown} is not a JSON object"
  | .includeCycle path => s!"Theme include cycle at {path.toStr.shown}"
  | .noDirectory name =>
    s!"Theme '{name}' is not a path and no VS Code theme directory was found (set VSCODE_PATH)"
  | .unknownName name directory _ => s!"Theme '{name}' not found in {directory.toString}"

/-- The path an error carries beside its text. -/
def ThemeError.path? : ThemeError → Option Route
  | .unreadable path _ | .malformed path _ | .notObject path | .includeCycle path => some path
  | .noDirectory _ => none
  | .unknownName _ _ file => some (file : Route)

namespace Theme

/-- The text of a file with uniform line ends; `none` where the bytes are no text. -/
def readText (disk : Disk) (path : Route) : Except ThemeFailure (Option (List Char)) := do
  let name ← path.toStr.name.mapError .path
  match disk.read name with
  | .error f => throw (.theme (.unreadable path ⟨f, path.toStr⟩))
  | .ok content => return (Text.decodeUtf8? content).map Text.unifyLineEnds

def readDocument (disk : Disk) (path : Route) : Except ThemeFailure Members := do
  match ← readText disk path with
  | none => throw .undecodable
  | some text =>
    match Json.read (plainJson text) with
    | .error (.hugeInteger _) => throw .hugeInteger
    | .error e => throw (.theme (.malformed path e))
    | .ok (.object members) => return members
    | .ok _ => throw (.theme (.notObject path))

/-- The text by which a document names the file it builds on. -/
def includeText? (document : Members) : Option Str :=
  ((Json.find? document "include").bind (·.string?)).filter (· != "")

/-- The file a document builds on. -/
def includeOf (disk : Disk) (cwd path : Route) (document : Members) : Except PathFault (Option Route) :=
  (includeText? document).mapM fun other => disk.resolve cwd (path.parent.join (.ofStr other))

/-- The documents of a file and of those it includes, base first. The chain holds the files on the
way here. Each one on it was read under a name that is not too long, so a chain without repetition is no longer
than there are such names, and the fuel is not used up. -/
def includeChain (disk : Disk) (cwd : Route) : Nat → List Route → Route → Except ThemeFailure (List Members)
  | 0, _, path => .error (.theme (.includeCycle path))
  | fuel + 1, chain, path => do
    if chain.contains path then throw (.theme (.includeCycle path))
    let document ← readDocument disk path
    match ← (includeOf disk cwd path document).mapError .path with
    | none => return [document]
    | some base => return (← includeChain disk cwd fuel (chain ++ [path]) base) ++ [document]

/-- The name a theme document gives itself. -/
def ownName? (document : Members) : Option Str := (Json.find? document "name").bind (·.string?)

/-- The theme of a file. Its name is the one its own document gives, or else that of the file. The chain of
included files may have any length: a limit on calls within calls is left out. -/
def load (disk : Disk) (cwd path : Route) : Except ThemeFailure Theme := do
  let file ← (disk.resolve cwd path).mapError .path
  let documents ← includeChain disk cwd (Disk.nameBound + 1) [] file
  let name := (documents.getLast?.bind ownName?).getD path.stem
  return { ofDocuments documents with name }

end Theme

end Highlighter

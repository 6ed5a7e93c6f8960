import Highlighter.Grammar.Reader
import Highlighter.Grammar.Tokenizer
import Highlighter.PropertyList.Reader
import Highlighter.Json.Reader
import Highlighter.Files.Tree

/-! Loading grammars from files, and the tokenizer made of them. -/

namespace Highlighter

open Highlighter.Files (Path PathFault Tree FileError)
open Highlighter.Grammar (Compiler Compiled Engine Failure Stack Token)
open Highlighter.Pattern (PatternError)

inductive GrammarError where
  | unreadable (path : Path) (cause : FileError) (scope : Option String)
  /-- The bytes are no text. -/
  | undecodable (path : Path) (scope : Option String)
  | badJson (path : Path) (cause : Json.ReadError) (scope : Option String)
  | badList (path : Path) (cause : PropertyList.ListError) (scope : Option String)
  | notObject (path : Path) (scope : Option String)
  | noScopeName
  | badPattern (scope : String) (cause : PatternError)
  /-- A rule that was read only when it was needed has a bad pattern. -/
  | badPatternAtLine (scope : String) (line : Nat) (cause : PatternError)
  deriving Repr

/-- What stops the loading of a grammar: a fault that is reported as such, or one that is not. -/
inductive LoadFailure where
  | grammar (e : GrammarError)
  | list (f : PropertyList.Failure)
  | groupNumber
  | tooDeep
  | path (f : PathFault)
  /-- The search for a file failed. -/
  | file (e : FileError)
  | rule (f : Failure)
  deriving Repr

namespace Grammar

/-- The document of a grammar file; its suffix tells property lists from JSON. -/
def readDocument (path : Path) (scope : Option String) (bytes : Text.Bytes) :
    Except LoadFailure Json.Value :=
  if path.suffix == ".tmLanguage" || path.suffix == ".plist" then
    (PropertyList.read bytes).mapError fun f =>
      match f with
      | .error e => .grammar (.badList path e scope)
      | f => .list f
  else
    match Text.decodeUtf8? bytes with
    | none => .error (.grammar (.undecodable path scope))
    | some s => (Json.read s).mapError fun e => .grammar (.badJson path e scope)

/-- The grammar of a file under a number. -/
def load (tree : Tree) (number : Nat) (path : Path) (scope : Option String) :
    Except LoadFailure Grammar := do
  if let some f := path.fault? then throw (.path f)
  let bytes ← (tree.read path).mapError fun e => .grammar (.unreadable path e scope)
  match ← readDocument path scope bytes with
  | .object members =>
    (ofDocument number scope members).mapError fun e =>
      match e with
      | .noScope => .grammar .noScopeName
      | .groupNumber _ => .groupNumber
      | .tooDeep => .tooDeep
  | _ => throw (.grammar (.notObject path scope))

end Grammar

/-- A tokenizer with everything it has made ready so far. -/
structure Tokenizer where
  engine : Engine
  scope : String
  compiler : Compiler
  root : Compiled
  deriving Inhabited

namespace Tokenizer

/-- Adds the extra grammars that exist, in order; the others are noted. A scope given twice goes to
the later grammar. -/
def loadExtras (tree : Tree) : Nat → List (String × Path) → List (Str × Grammar) →
    List (String × Path) → Except LoadFailure (List (Str × Grammar)) × List (String × Path)
  | _, [], grammars, absent => (.ok grammars, absent)
  | number, (scope, path) :: rest, grammars, absent =>
    match tree.has path with
    | .error e => (.error (.file e), absent)
    | .ok false => loadExtras tree (number + 1) rest grammars (absent ++ [(scope, path)])
    | .ok true =>
      match Grammar.load tree number path (some scope) with
      | .error e => (.error e, absent)
      | .ok g =>
        let entry : Str × Grammar := (scope, g)
        let grammars := if grammars.any (·.1 == entry.1) then
            grammars.map fun e => if e.1 == entry.1 then entry else e
          else grammars ++ [entry]
        loadExtras tree (number + 1) rest grammars absent

/-- What stops a tokenizer, as it is reported. A pattern's fault about which nothing can be said is not
reported as one of the grammar. -/
def failureAt (scope : String) (line : Option Nat) : Failure → LoadFailure
  | .pattern e =>
    match e.message?, line with
    | none, _ => .rule (.pattern e)
    | some _, none => .grammar (.badPattern scope e)
    | some _, some n => .grammar (.badPatternAtLine scope (n + 1) e)
  | f => .rule f

/-- A tokenizer over loaded grammars. -/
def ofLibrary (engine : Engine) (scope : String) (library : Library) :
    Except LoadFailure Tokenizer × Compiler :=
  let start : Compiler := { library }
  match library.mainGrammar? with
  | none => (.error (.rule .noBase), start)
  | some g =>
    match (Grammar.compileRoot engine g).run.run start with
    | (.ok root, compiler) => (.ok ⟨engine, scope, compiler, root⟩, compiler)
    | (.error f, compiler) => (.error (failureAt scope none f), compiler)

/-- The notes a tokenizer leaves: an include or an extra grammar that is not there. -/
inductive Note where
  | absentGrammar (scope : String) (path : Path)
  | missingInclude (what : Str)
  deriving DecidableEq, Repr

def Note.message : Note → String
  | .absentGrammar scope path => s!"Extra grammar for scope '{scope}' not found at '{path.toString}'"
  | .missingInclude what => s!"Unresolved grammar include: {what.shown}"

/-- The tokenizer for a main grammar and extra ones over an engine, and the notes taken while it was
made. -/
def loadWith (engine : Engine) (tree : Tree) (path : Path) (scope : String)
    (extras : List (String × Path)) : Except LoadFailure Tokenizer × List Note :=
  match Grammar.load tree 0 path (some scope) with
  | .error e => (.error e, [])
  | .ok main =>
    let (loaded, absent) := loadExtras tree 1 extras [(scope, main)] []
    let notes := absent.map fun (scope, path) => Note.absentGrammar scope path
    match loaded with
    | .error e => (.error e, notes)
    | .ok grammars =>
      let (result, compiler) := ofLibrary engine scope ⟨scope, grammars⟩
      (result, notes ++ compiler.missing.map .missingInclude)

def load : Tree → Path → String → List (String × Path) → Except LoadFailure Tokenizer × List Note :=
  loadWith .standard

/-- The stack at the start of a document. -/
def rootStack (t : Tokenizer) : Stack := { top := ⟨t.root.name, t.root, none⟩ }

/-- The tokens of a document, given how a line is divided, the tokenizer afterwards, and the includes
newly found missing. -/
def tokenizeBy (divide : Stack → Pattern.Text → Grammar.Compile (Stack × List Grammar.Region))
    (t : Tokenizer) (content : Str) : Except LoadFailure (List Token) × Tokenizer × List Note :=
  let (result, compiler) :=
    (Grammar.tokenizeLines divide t.rootStack 0 content.lines).run.run t.compiler
  let notes := (compiler.missing.drop t.compiler.missing.length).map .missingInclude
  (result.mapError fun (f, line) => failureAt t.scope (some line) f, { t with compiler }, notes)

def tokenize (t : Tokenizer) (content : Str) :
    Except LoadFailure (List Token) × Tokenizer × List Note :=
  t.tokenizeBy (Grammar.divideLine t.engine Grammar.searchBound Grammar.captureDepth) content

end Tokenizer

/-- The scope an error carries beside its text. -/
def GrammarError.scope? : GrammarError → Option String
  | .unreadable _ _ scope | .undecodable _ scope | .badJson _ _ scope | .badList _ _ scope
  | .notObject _ scope => scope
  | .noScopeName => none
  | .badPattern scope _ | .badPatternAtLine scope _ _ => some scope

/-- The text of an error. What the decoder of a text says is left to the reader of the message. -/
def GrammarError.message (decoding : String) : GrammarError → String
  | .unreadable path cause _ => s!"Failed to read grammar {path.toString}: {cause.message}"
  | .undecodable path _ => s!"Failed to parse grammar {path.toString}: {decoding}"
  | .badJson path cause _ => s!"Failed to parse grammar {path.toString}: {cause.message}"
  | .badList path cause _ => s!"Failed to parse grammar {path.toString}: {cause.message}"
  | .notObject path _ => s!"Grammar {path.toString} is not an object"
  | .noScopeName => "Grammar has no scopeName"
  | .badPattern scope cause => s!"Failed to compile grammar {scope}: " ++ cause.message?.getD ""
  | .badPatternAtLine scope line cause =>
    s!"Failed to compile grammar {scope} at line {line}: " ++ cause.message?.getD ""

end Highlighter

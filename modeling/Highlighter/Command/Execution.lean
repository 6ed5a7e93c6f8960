import Highlighter.Command.Arguments
import Highlighter.Command.Console

/-! The commands: highlighting the files of a configuration, and comparing two snapshots. -/

namespace Highlighter.Command

open Highlighter.Files (FileError Path PathFault Tree)
open Highlighter.Protocol (Conversation.ProcessId Host)
open Highlighter.Run (Failure Mode Remark Session)
open Highlighter.Snapshot (Entry)

/-- What surrounds a command: the machine, the number of the program's own process, and what is said
where the details of foreign data are not known. -/
structure Setting where
  machine : Machine
  process : Conversation.ProcessId
  detail : String

/-- What is left when a command is over. A failure that is not reported ends the program. -/
structure Outcome (σ : Type) where
  lines : List Line
  remarks : List Remark := []
  failure : Option Failure := none
  succeeded : Bool
  tree : Tree
  server : σ

namespace Outcome

variable {σ : Type}

/-- The number a command hands to its caller. -/
def exitCode (o : Outcome σ) : Nat := if o.succeeded && o.failure.isNone then 0 else 1

end Outcome

/-! ### Highlighting -/

/-- A run under way: its engines and files, what it printed, and whether a file failed. -/
structure Work (σ : Type) where
  session : Session σ
  tree : Tree
  lines : List Line
  failed : Bool := false

namespace Work

variable {σ : Type}

def print (w : Work σ) (lines : List Line) : Work σ := { w with lines := w.lines ++ lines }

/-- Processes a file. A failure that is reported counts against the run, and the run goes on. -/
def file (h : Host σ) (s : Setting) (mode : Mode) (w : Work σ) (path : Path) :
    Option Failure × Work σ :=
  match w.tree.has path with
  | .error e => (some (.search e), w)
  | .ok false => (none, w.print [.output s!"Skipping missing file: {path.toString}"])
  | .ok true =>
    let display := shown path w.session.config.directory
    let w := w.print [.output s!"Processing {display}..."]
    let (result, session, tree) := w.session.process h mode w.tree path
    let w := { w with session, tree }
    match result with
    | .ok r =>
      (none, { w.print (reportLines s.detail display r) with failed := w.failed || r.isFailure })
    | .error f =>
      match f.report? s.detail with
      | some text =>
        (none,
          { w.print [.error s!"Failed to process {display}: {text}"] with failed := true })
      | none => (some f, w)

/-- Processes files in order, up to a failure that is not reported. -/
def files (h : Host σ) (s : Setting) (mode : Mode) : List Path → Work σ → Option Failure × Work σ
  | [], w => (none, w)
  | path :: rest, w =>
    match w.file h s mode path with
    | (none, w) => files h s mode rest w
    | (some f, w) => (some f, w)

/-- The line that closes a run with failed files. -/
def verdictLine (mode : Mode) : Line :=
  .error (if mode == .verify then "\nVerification failed." else "\nSome files failed.")

/-- Ends the run: the server is shut down in any case. -/
def finish (h : Host σ) (mode : Mode) (failure : Option Failure) (w : Work σ) : Outcome σ :=
  let session := w.session.close h
  let closing := if w.failed && failure.isNone then [verdictLine mode] else []
  { lines := w.lines ++ closing, remarks := session.remarks, failure, succeeded := !w.failed
    tree := w.tree, server := session.talk.server }

end Work

variable {σ : Type}

/-- What is left when a run does not get to its files. -/
def stopped (s : Setting) (lines : List Line) (remarks : List Remark) (tree : Tree) (server : σ)
    (f : Failure) : Outcome σ :=
  match f.report? s.detail with
  | some text => { lines := lines ++ [.error text], remarks, succeeded := false, tree, server }
  | none => { lines, remarks, failure := some f, succeeded := false, tree, server }

/-- The directories that a run writes to. -/
def makePlaces (tree : Tree) (c : Config) (mode : Mode) : Except FileError Tree := do
  let tree ← tree.makeDirectories c.outDir
  if mode == .update then tree.makeDirectories c.snapshotDir else return tree

/-- Starts the server of a session and processes the files. A server that fails to start with a failure
that is reported is shut down. -/
def runSession (h : Host σ) (s : Setting) (mode : Mode) (tree : Tree) (lines : List Line)
    (session : Session σ) : Outcome σ :=
  match session.start h s.process with
  | (.ok (), session) =>
    let (failure, w) := Work.files h s mode session.config.files { session, tree, lines }
    w.finish h mode failure
  | (.error f, session) =>
    let session := if (f.report? s.detail).isSome then session.close h else session
    stopped s lines session.remarks tree session.talk.server f

/-- Highlights the files of a configuration. -/
def runConfig (h : Host σ) (s : Setting) (mode : Mode) (tree : Tree) (server : σ) (c : Config) :
    Outcome σ :=
  match makePlaces tree c mode with
  | .error e => stopped s [] [] tree server (.file e)
  | .ok tree =>
    let lines := [Line.output "Initializing engines..."]
    match Session.prepare tree s.machine c server with
    | (.error f, remarks) => stopped s lines remarks tree server f
    | (.ok session, _) =>
      let starting := Line.output ("Starting LSP: " ++ " ".intercalate c.command)
      runSession h s mode tree (lines ++ [starting]) session

/-- Highlights the files of the configuration at a path. -/
def run (h : Host σ) (s : Setting) (mode : Mode) (config : String) (tree : Tree) (server : σ) :
    Outcome σ :=
  match Config.load tree s.machine.cwd (.ofString config) with
  | .error f => stopped s [] [] tree server (.config f)
  | .ok c => runConfig h s mode tree server c

/-! ### Comparing -/

/-- What is left when a comparison is refused. -/
def refused (text : String) (tree : Tree) (server : σ) : Outcome σ :=
  { lines := [.error text], succeeded := false, tree, server }

/-- What is left when a comparison ends with a failure that is not reported. -/
def broken (tree : Tree) (server : σ) (f : Failure) : Outcome σ :=
  { lines := [], failure := some f, succeeded := false, tree, server }

/-- Writes the page of two snapshots. -/
def writeComparison (page : Path) (left right : List Entry) (tree : Tree) (server : σ) : Outcome σ :=
  match tree.makeDirectories page.parent with
  | .error e => broken tree server (.file e)
  | .ok tree =>
    match Page.comparison "Snapshot" "Generated" left right with
    | .error g => broken tree server (.gap g)
    | .ok text =>
      match tree.writeText page (some (String.ofList text)) with
      | .error (.file e) => broken tree server (.file e)
      | .error (.unencodable left) => broken left server .unencodable
      | .ok tree =>
        { lines := [.output s!"Diff generated at: {page.toString}"], succeeded := true, tree, server }

/-- Both snapshots, the first of which is read first. -/
def loadBoth (tree : Tree) (left right : Path) :
    Except Snapshot.LoadFault (List Entry × List Entry) := do
  let l ← Snapshot.load .standard tree left
  let r ← Snapshot.load .standard tree right
  return (l, r)

/-- What is said of the first file that is not there. -/
def absentOf (tree : Tree) : List (String × Path) → Except FileError (Option String)
  | [] => .ok none
  | (label, path) :: rest => do
    if ← tree.has path then absentOf tree rest
    else return some s!"{label} file not found: {path.toString}"

/-- Compares two snapshots on a page, which lies in the current directory if no place is given. -/
def diff (s : Setting) (snapshot generated : String) (page : Option String) (tree : Tree)
    (server : σ) : Outcome σ :=
  let place (name : String) : Except PathFault Path := Path.resolve s.machine.cwd (.ofString name)
  match place snapshot, place generated with
  | .error f, _ | _, .error f => broken tree server (.path f)
  | .ok left, .ok right =>
    match absentOf tree [("Snapshot", left), ("Generated", right)] with
    | .error e => broken tree server (.search e)
    | .ok (some text) => refused text tree server
    | .ok none =>
      match loadBoth tree left right with
      | .error f => refused s!"Failed to read token JSON: {f.message s.detail}" tree server
      | .ok (l, r) =>
        match page.mapM place with
        | .error f => broken tree server (.path f)
        | .ok page =>
          writeComparison (page.getD (s.machine.cwd.child "diff.html")) l r tree server

/-! ### Requests -/

/-- How the program is used. -/
def usage : List Line :=
  [.output "Usage: [-v] run CONFIG [--verify | --update]",
    .output "       [-v] diff SNAPSHOT GENERATED [OUTPUT]"]

/-- Does what is requested. -/
def execute (h : Host σ) (s : Setting) (request : Request) (tree : Tree) (server : σ) : Outcome σ :=
  match request with
  | .run config mode => run h s mode config tree server
  | .diff snapshot generated page => diff s snapshot generated page tree server
  | .help => { lines := usage, succeeded := true, tree, server }

end Highlighter.Command

import Highlighter.Command.Execution

/-! The program. It takes in the files around the place where it is started, does what its command line
asks for, and puts back what is new or changed. -/

namespace Highlighter.Program

open Highlighter.Command (Invocation Outcome Request Setting)
open Highlighter.Files (Path Tree)
open Highlighter.Protocol (Host NoteLevel)
open Highlighter.Run (Remark)

/-- No language server can be started here: a run reports that its command was not found. -/
def noServers : Host Unit where
  spawn command u := (.error ⟨.missing, command.headD ""⟩, u)
  write _ u := (.error .closedInput, u)
  closeInput u := u
  hasExited _ := true
  terminate u := ({}, u)
  wait u := (true, u)
  kill u := ({}, u)

/-- Adds a file to a tree. One that cannot be read is left out. -/
def takeFile (tree : Tree) (place : String) : IO Tree := do
  let path := Path.ofString place
  let parents := (tree.makeDirectories path.parent).toOption.getD tree
  try
    let content ← IO.FS.readBinFile place
    return (parents.write path content.toList).toOption.getD parents
  catch _ => return tree

def takeParents (tree : Tree) (place : String) : Tree :=
  (tree.makeDirectories (.ofString place)).toOption.getD tree

/-- Adds everything below a directory to a tree. One that is not there adds nothing. -/
def takeDirectory (start : Tree) (place : String) : IO Tree :=
  try
    let root ← IO.FS.realPath place
    let mut tree := takeParents start root.toString
    for found in ← root.walkDir do
      tree ← if ← found.isDir then pure (takeParents tree found.toString)
        else takeFile tree found.toString
    return tree
  catch _ => return start

/-- The directories whose files a request may ask for. -/
def neededDirectories (machine : Machine) (request : Request) : List Path :=
  let parentOf (name : String) : Path :=
    (((Path.resolve machine.cwd (.ofString name)).toOption).getD machine.cwd).parent
  let named := match request with
    | .run config _ => parentOf config :: Theme.directoryCandidates machine
    | .diff snapshot generated page => [snapshot, generated, page.getD ""].map parentOf
    | .help => []
  machine.cwd :: named

/-- Puts back the entries of a tree that are new or changed. -/
def putBack (before after : Tree) : IO Unit := do
  for (place, entry) in after.entries do
    if before.entry? place != some entry then
      let path := "/" ++ "/".intercalate place
      match entry with
      | .directory => IO.FS.createDirAll path
      | .file content => IO.FS.writeBinFile path ⟨content.toArray⟩

def remarkText (detail : String) : Remark → NoteLevel × String
  | .tokenizer n => (.warning, n.message)
  | .client n => (n.level, n.message detail)

def levelWord : NoteLevel → String
  | .debug => "DEBUG"
  | .warning => "WARNING"
  | .error => "ERROR"

/-- Prints what a command says; details are told only where they are asked for. -/
def tell (verbose : Bool) (detail : String) (o : Outcome Unit) : IO Unit := do
  for remark in o.remarks do
    let (level, text) := remarkText detail remark
    if verbose || level != .debug then IO.eprintln s!"{levelWord level}: {text}"
  IO.print (Command.printed .output o.lines)
  IO.eprint (Command.printed .errors o.lines)
  if o.failure.isSome then IO.eprintln "The command ended with an internal failure."

def machineHere : IO Machine := do
  let names := ["VSCODE_PATH", "LOCALAPPDATA", "ProgramFiles"]
  let environment ← names.filterMapM fun name => return (← IO.getEnv name).map fun v => (name, v)
  let home := ((← IO.getEnv "HOME").map Path.ofString).getD default
  return { environment, home, cwd := .ofString (← IO.currentDir).toString }

def perform (invocation : Invocation) : IO UInt32 := do
  let machine ← machineHere
  let mut tree := Tree.empty
  for directory in neededDirectories machine invocation.request do
    tree ← takeDirectory tree (machine.cwd.join directory).toString
  let setting : Setting := { machine, process := 0, detail := "the content is not valid" }
  let outcome := Command.execute noServers setting invocation.request tree ()
  putBack tree outcome.tree
  tell invocation.verbose setting.detail outcome
  return outcome.exitCode.toUInt32

end Highlighter.Program

def main (arguments : List String) : IO UInt32 :=
  match Highlighter.Command.read false arguments with
  | some invocation => Highlighter.Program.perform invocation
  | none => do
    for line in Highlighter.Command.usage do IO.eprintln line.text
    return 2

import Highlighter.Run.Session

/-! What a command prints: lines, for one of two channels. -/

namespace Highlighter.Command

open Highlighter.Files (Path)
open Highlighter.Run (Session.FileReport Verdict)

inductive Channel where
  | output
  | errors
  deriving DecidableEq, Repr

structure Line where
  channel : Channel
  text : String
  deriving DecidableEq, Repr

def Line.output (text : String) : Line := ⟨.output, text⟩

def Line.error (text : String) : Line := ⟨.errors, text⟩

/-- The rest of a terminal's control sequence, from its parameters on; `none` where it is none. -/
def afterControl? : List Char → Option (List Char)
  | [] => none
  | c :: rest =>
    if c == ';' || c == '?' || c.isDigit then afterControl? rest
    else if c.isAlpha then some rest
    else none

/-- A text without the control sequences of terminals. The fuel is the length of the text. -/
def withoutControls : Nat → List Char → List Char
  | 0, s => s
  | _, [] => []
  | fuel + 1, '\x1b' :: '[' :: rest =>
    match afterControl? rest with
    | some after => withoutControls fuel after
    | none => '\x1b' :: withoutControls fuel ('[' :: rest)
  | fuel + 1, c :: rest => c :: withoutControls fuel rest

/-- The text that lines put out on a channel. -/
def printed (channel : Channel) (lines : List Line) : String :=
  let own := lines.filter (·.channel == channel)
  String.join (own.map fun l =>
    String.ofList (withoutControls l.text.length l.text.toList) ++ "\n")

/-- A path below a directory is shown from there. -/
def shown (path base : Path) : String := ((path.below? base).getD path).toString

/-- The lines of a snapshot that does not agree. -/
def mismatchLines (name : String) (more : Line) : List Line :=
  [.error s!"  Snapshot mismatch for {name}", more, .error "     (Use --update to overwrite)"]

def verdictLines (detail : String) (r : Session.FileReport) : Verdict → List Line
  | .updated => [.output s!"  Updated snapshot: {r.places.snapshot.toString}"]
  | .verified => [.output "  Snapshot verified"]
  | .missing => [.error s!"  Missing snapshot: {r.places.snapshot.toString}"]
  | .unreadable f =>
    mismatchLines r.source.name (.error s!"     Unreadable snapshot: {f.message detail}")
  | .different page =>
    mismatchLines r.source.name (.error s!"     Diff report: {page.toString}")
  | .incomparable f =>
    mismatchLines r.source.name
      (.error s!"     Failed to generate diff report: {f.message detail}")

/-- The lines of a file that was processed. -/
def reportLines (detail display : String) (r : Session.FileReport) : List Line :=
  (if r.hasSemantic then [] else [.output s!"  No semantic tokens returned for {display}"]) ++
    [.output s!"  Generated: {r.places.tokens.toString}",
      .output s!"  Generated: {r.places.view.toString}"] ++
    (r.verdict.map (verdictLines detail r)).getD []

end Highlighter.Command

import Highlighter.Config.Loading
import Highlighter.Page.Comparison
import Highlighter.Snapshot.File

/-! The files a run writes for a source file, and the comparison with the snapshot that was kept of
it. -/

namespace Highlighter.Run

open Highlighter.Files (FileError Path Tree WriteFault)
open Highlighter.Page (GapFault)
open Highlighter.Snapshot (Entry)

/-- What a run does with snapshots. -/
inductive Mode where
  | plain
  | verify
  | update
  deriving DecidableEq, Repr, Inhabited

/-- The files that belong to a source file. -/
structure Places where
  tokens : Path
  view : Path
  comparison : Path
  snapshot : Path
  deriving DecidableEq, Repr

/-- They are named for the name of the source alone, wherever it is. -/
def placesOf (c : Config) (source : Path) : Places where
  tokens := c.outDir.child (source.name ++ ".tokens.json")
  view := c.outDir.child (source.name ++ ".html")
  comparison := c.outDir.child (source.name ++ ".diff.html")
  snapshot := c.snapshotDir.child (source.name ++ ".tokens.json")

/-- Why a snapshot and the entries that were made cannot be compared on a page. -/
inductive ComparisonFault where
  | refused (r : Snapshot.Refusal)
  | file (e : FileError)

def ComparisonFault.message (detail : String) : ComparisonFault → String
  | .refused r => r.message detail
  | .file e => e.message

/-- What became of a snapshot. -/
inductive Verdict where
  | updated
  | verified
  | missing
  | unreadable (f : Snapshot.ReadFault)
  | different (page : Path)
  | incomparable (f : ComparisonFault)

namespace Verdict

/-- Whether the snapshot is there and does not agree. -/
def isMismatch : Verdict → Bool
  | .unreadable _ | .different _ | .incomparable _ => true
  | .updated | .verified | .missing => false

def isFailure (v : Verdict) : Bool := v matches .missing || v.isMismatch

end Verdict

/-- Why the files of a source could not all be written. -/
inductive DeliveryFault where
  | file (e : FileError)
  /-- A text cannot be written in bytes. -/
  | unencodable
  | gap (g : GapFault)
  deriving DecidableEq, Repr

/-- Writes the page that compares a snapshot with the entries that were made. -/
def compareWith (tree : Tree) (page : Path) (stored made : List Entry) :
    Except DeliveryFault Verdict × Tree :=
  match tree.makeDirectories page.parent with
  | .error e => (.ok (.incomparable (.file e)), tree)
  | .ok tree =>
    match Page.comparison "Snapshot" "Generated" stored made with
    | .error g => (.error (.gap g), tree)
    | .ok text =>
      match tree.writeText page (some (String.ofList text)) with
      | .error (.file e) => (.ok (.incomparable (.file e)), tree)
      | .error (.unencodable left) => (.error .unencodable, left)
      | .ok tree => (.ok (.different page), tree)

/-- Compares the entries that were made with the snapshot. -/
def verify (tree : Tree) (places : Places) (made : List Entry) :
    Except DeliveryFault Verdict × Tree :=
  match tree.has places.snapshot with
  | .error e => (.error (.file e), tree)
  | .ok false => (.ok .missing, tree)
  | .ok true =>
    match Snapshot.readValue tree places.snapshot with
    | .error f => (.ok (.unreadable f), tree)
    | .ok expected =>
      if Snapshot.agrees expected made then (.ok .verified, tree)
      else
        match Snapshot.ofValue .standard expected with
        | .error r => (.ok (.incomparable (.refused r)), tree)
        | .ok stored => compareWith tree places.comparison stored made

/-- What is left when a text was not written. -/
def undelivered {α : Type} (tree : Tree) : WriteFault → Except DeliveryFault α × Tree
  | .file e => (.error (.file e), tree)
  | .unencodable left => (.error .unencodable, left)

/-- Does with the snapshot what the mode asks. -/
def settle (tree : Tree) (places : Places) (made : List Entry) :
    Mode → Except DeliveryFault (Option Verdict) × Tree
  | .plain => (.ok none, tree)
  | .update =>
    match Snapshot.save tree places.snapshot made with
    | .error f => undelivered tree f
    | .ok tree => (.ok (some .updated), tree)
  | .verify =>
    let (verdict, tree) := verify tree places made
    (verdict.map some, tree)

/-- Writes the entries of a source and the page that shows them, and then sees to the snapshot. -/
def deliver (tree : Tree) (places : Places) (title : Str) (made : List Entry) (mode : Mode) :
    Except DeliveryFault (Option Verdict) × Tree :=
  match Snapshot.save tree places.tokens made with
  | .error f => undelivered tree f
  | .ok tree =>
    let view := title.text?.map fun title => String.ofList (Page.view title made)
    match tree.store places.view view with
    | .error f => undelivered tree f
    | .ok tree => settle tree places made mode

end Highlighter.Run

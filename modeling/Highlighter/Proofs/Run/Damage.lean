import Highlighter.Command.Console
import Highlighter.Proofs.Page.Gaps
import Highlighter.Proofs.Run.Verification

/-! Verifying a snapshot that may hold anything: bytes that are no text, text that is no JSON, JSON that is no
snapshot, entries that no run would make, or a directory in place of a file. It ends with a verdict, and with a
note or the page of the differences where the snapshot does not agree. One thing ends it otherwise: a gap
between entries that no blanks can fill. -/

namespace Highlighter.Run

open Highlighter.Command (Line verdictLines)
open Highlighter.Files (Path Tree)
open Highlighter.Json (Value)
open Highlighter.Page (Fillable comparison comparison_eq_ok)
open Highlighter.Snapshot (Entry agrees fileText ofValue readValue)

section
variable {tree left : Tree} {places : Places} {page : Path} {stored made : List Entry} {v : Value}
  {verdict : Verdict} {detail note : String}

end

namespace Workspace

def alone : Places where
  tokens := ⟨"/", ["t"]⟩
  view := ⟨"/", ["v"]⟩
  comparison := ⟨"/", ["c"]⟩
  snapshot := ⟨"/", ["s"]⟩

end Workspace

end Highlighter.Run

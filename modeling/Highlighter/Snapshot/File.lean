import Highlighter.Files.Tree
import Highlighter.Json.Display
import Highlighter.Json.Reader
import Highlighter.Snapshot.Entry

/-! Snapshots in files: how they are stored, and what can be wrong with a stored one. -/

namespace Highlighter.Snapshot

open Highlighter.Files (FileError Path Tree WriteFault)
open Highlighter.Json (Value)
open Highlighter.Validation (Checker Issue)

/-- Why a file holds no JSON value. -/
inductive ReadFault where
  | file (e : FileError)
  /-- The bytes are no text. -/
  | undecodable
  | json (e : Json.ReadError)
  deriving Repr

/-- The text of a fault. What the decoder of a text says is left to the reader of the message. -/
def ReadFault.message (decoding : String) : ReadFault → String
  | .file e => e.message
  | .undecodable => decoding
  | .json e => e.message

/-- A value that is no snapshot, with the faults in it. -/
structure Refusal where
  value : Value
  issues : List Issue

/-- The characters in front that make up at most a number of bytes. -/
def frontBytes : Nat → List Char → List Char
  | _, [] => []
  | n, c :: rest => if c.utf8Size ≤ n then c :: frontBytes (n - c.utf8Size) rest else []

/-- A long text is shown by its ends. -/
def abridged (s : List Char) : List Char :=
  if (Text.encodeUtf8 s).length ≤ 50 then s
  else frontBytes 25 s ++ "...".toList ++ (frontBytes 24 s.reverse).reverse

/-- The text of a refusal. Faults inside a list are left to the reader of the message. -/
def Refusal.message (detail : String) (r : Refusal) : String :=
  match r.value with
  | .array _ => detail
  | v =>
    let shown := String.ofList (abridged (Json.display v))
    s!"1 validation error for list[StyledRangeDTO]\n  Input should be a valid list " ++
      s!"[type=list_type, input_value={shown}, input_type={v.kindWord}]\n" ++
      "    For further information visit https://errors.pydantic.dev/2.14/v/list_type"

/-- Why a file holds no snapshot. -/
inductive LoadFault where
  | unreadable (f : ReadFault)
  | refused (r : Refusal)

def LoadFault.message (detail : String) : LoadFault → String
  | .unreadable f => f.message detail
  | .refused r => r.message detail

/-- The JSON value in a file. -/
def readValue (tree : Tree) (path : Path) : Except ReadFault Value :=
  match tree.readText path with
  | .error e => .error (.file e)
  | .ok none => .error .undecodable
  | .ok (some text) => (Json.read text).mapError .json

/-- The entries a value stands for. -/
def ofValue (checker : Checker) (v : Value) : Except Refusal (List Entry) :=
  match entriesOf checker v with
  | .ok entries => .ok entries
  | .error issues => .error ⟨v, issues⟩

/-- The snapshot in a file. -/
def load (checker : Checker) (tree : Tree) (path : Path) : Except LoadFault (List Entry) :=
  match readValue tree path with
  | .error f => .error (.unreadable f)
  | .ok v => (ofValue checker v).mapError .refused

/-- The text of the file of a snapshot. -/
def fileText (entries : List Entry) : String := (toJson entries).fileText

/-- Stores a snapshot. -/
def save (tree : Tree) (path : Path) (entries : List Entry) : Except WriteFault Tree :=
  tree.store path (toJson entries).fileText?

end Highlighter.Snapshot

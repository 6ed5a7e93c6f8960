import Highlighter.Json.Basic
import Highlighter.Markup.Event
import Highlighter.PropertyList.Binary
import Highlighter.PropertyList.Scalar
import Highlighter.Text.Number

/-! Property lists of either form, which the first bytes tell, read as JSON values. In markup dates and bytes,
which JSON lacks, become truth values: true, unless there are no bytes. -/

namespace Highlighter.PropertyList

open Highlighter.Json (Value Members)
open Highlighter.Markup (Event Events SourceFault)
open Highlighter.Text (Bytes)

/-- A container that is still open, its contents in order. -/
inductive Holder where
  | dict (members : Members)
  | array (items : List Value)

def Holder.value : Holder → Value
  | .dict members => .object members
  | .array items => .array items

/-- The open containers, the innermost first, each with the key under which it is to be stored; the key
that waits for a value; the text since the last tag that opened an element or was read; and the
finished value. -/
structure Building where
  holders : List (Holder × Option String) := []
  key : Option String := none
  text : List Char := []
  root : Value := .null

namespace Building

/-- Whether a value may come now. One with a key belongs into a dictionary, one without into an array or
stands outside of all containers. -/
def checkPlace (b : Building) (line : Nat) : Except Failure Unit :=
  match b.key, b.holders with
  | some _, [] => .error .noContainer
  | some _, (.dict _, _) :: _ | none, [] | none, (.array _, _) :: _ => .ok ()
  | some _, (.array _, _) :: _ | none, (.dict _, _) :: _ =>
    .error (.error (.unexpectedElement line))

/-- Stores a value under a key, or at the end. -/
def store (b : Building) (key : Option String) (v : Value) : Building :=
  match b.holders, key with
  | (.dict members, k) :: rest, some key =>
    { b with holders := (.dict (Json.put members key v), k) :: rest }
  | (.array items, k) :: rest, _ => { b with holders := (.array (items ++ [v]), k) :: rest }
  | _, _ => { b with root := v }

def add (b : Building) (line : Nat) (v : Value) : Except Failure Building := do
  b.checkPlace line
  return { b.store b.key v with key := none }

def openHolder (b : Building) (line : Nat) (h : Holder) : Except Failure Building := do
  b.checkPlace line
  return { b with holders := (h, b.key) :: b.holders, key := none, text := [] }

/-- Ends the innermost container. A key that waits goes on waiting. -/
def closeHolder (b : Building) : Building :=
  match b.holders with
  | [] => b
  | (h, key) :: rest => { b with holders := rest }.store key h.value

/-- Ends a dictionary. Only the empty key may be left without a value. -/
def closeDict (b : Building) (line : Nat) : Except Failure Building :=
  match b.key with
  | some key =>
    if key == "" then .ok b.closeHolder else .error (.error (.missingValue key line))
  | none => .ok b.closeHolder

/-- Ends a key. Only the empty key may give way to another. -/
def closeKey (b : Building) (line : Nat) : Except Failure Building :=
  let replaced := { b with key := some (String.ofList b.text), text := [] }
  if b.key.any (· != "") then .error (.error (.unexpectedKey line))
  else
    match b.holders with
    | [] => .error .noContainer
    | (.dict _, _) :: _ => .ok replaced
    | (.array _, _) :: _ => .error (.error (.unexpectedKey line))

def integer (s : List Char) : Except Failure Value :=
  if Text.isHexMarked s then
    match Text.hexInteger? s with
    | some n => .ok (.int n)
    | none => .error (.error (.integer 16 (String.ofList s)))
  else
    match Text.readInteger s with
    | .ok n => .ok (.int n)
    | .error .notANumber => .error (.error (.integer 10 (String.ofList s)))
    | .error (.tooLong digits) => .error (.error (.longInteger digits))

def real (s : List Char) : Except Failure Value :=
  match Text.real? s with
  | some x => .ok (.float x)
  | none => .error (.error (.real (String.ofList s)))

/-- The value of an element with a text. -/
def ofText (read : List Char → Except Failure Value) (b : Building) (line : Nat) :
    Except Failure Building := do
  ({ b with text := [] } : Building).add line (← read b.text)

def step (b : Building) : Event → Except Failure Building
  | .declaration => .error (.error .entity)
  | .text s => .ok { b with text := b.text ++ s }
  | .opens name line =>
    match name with
    | "dict" => b.openHolder line (.dict [])
    | "array" => b.openHolder line (.array [])
    | _ => .ok { b with text := [] }
  | .closes name line =>
    match name with
    | "dict" => b.closeDict line
    | "array" => .ok b.closeHolder
    | "key" => b.closeKey line
    | "true" => b.add line (.bool true)
    | "false" => b.add line (.bool false)
    | "string" => b.ofText (fun s => .ok (.string (String.ofList s))) line
    | "integer" => b.ofText integer line
    | "real" => b.ofText real line
    | "data" =>
      b.ofText (fun s => (Base64.read s).map (fun bytes => .bool !bytes.isEmpty) |>.mapError .error)
        line
    | "date" => b.ofText (fun s => (checkDate s).map fun _ => .bool true) line
    | _ => .ok b

/-- The value of a list. A fault of the list counts only up to where the markup breaks. -/
def ofEvents (es : Events) : Except Failure Value := do
  let b ← es.events.foldlM (fun b e => b.step e) ({} : Building)
  if es.wellFormed then return b.root else throw .notWellFormed

end Building

/-! ### Whole lists -/

/-- How a list in markup begins in each of the forms of text it may have. -/
def openings : List Bytes :=
  ["<?xml", "<plist"].flatMap fun opening =>
    let bytes := Text.encodeUtf8 opening.toList
    [bytes, [0xEF, 0xBB, 0xBF] ++ bytes, [0xFE, 0xFF] ++ bytes.flatMap fun b => [0, b],
      [0xFF, 0xFE] ++ bytes.flatMap fun b => [b, 0]]

def binaryOpening : Bytes := Text.encodeUtf8 "bplist00".toList

/-- The value of a list in markup. -/
def readMarkup (bytes : Bytes) : Except Failure Value :=
  match Markup.sourceOf bytes with
  | .ok source => Building.ofEvents (Events.ofSource source)
  | .error .notWellFormed => .error .notWellFormed
  | .error .unknownCharset => .error .unknownCharset
  | .error (.refusedCharset message) => .error (.error (.charset message))

/-- The value of a list. -/
def read (bytes : Bytes) : Except Failure Value :=
  if openings.any (·.isPrefixOf bytes) then readMarkup bytes
  else if binaryOpening.isPrefixOf bytes then
    match Binary.read? bytes with
    | some v => .ok v
    | none => .error (.error .notRecognised)
  else .error (.error .notRecognised)

end Highlighter.PropertyList

import Highlighter.Files.Tree
import Highlighter.Json.Display
import Highlighter.Protocol.Frame
import Highlighter.Semantic.Span

/-! The client's side of a conversation with a language server: which requests are open, what became
of them, and how arriving bytes are turned into answers. -/

namespace Highlighter.Protocol

open Highlighter.Decimal (Binary64)
open Highlighter.Json (Value Members)
open Highlighter.Semantic (Legend)
open Highlighter.Text (Bytes)

/-- Why bytes could not be written to a server. -/
inductive WriteFault where
  | system (f : Files.Fault)
  | closedInput
  deriving DecidableEq, Repr

def WriteFault.message : WriteFault → String
  | .system f => f.header
  | .closedInput => "write to closed file"

inductive ClientError where
  | notStarted (command : List String) (cause : Files.FileError)
  | withoutPipes (command : List String)
  | unexpectedResult (result : Value)
  | streamClosed
  /-- The server answered with an error. -/
  | refused (error : Value)
  | notRunning
  | notWritten (cause : WriteFault)
  | timedOut (method : String)

def commandText (command : List String) : String := (Value.ofStrings command).displayText

def ClientError.message : ClientError → String
  | .notStarted command cause => s!"Failed to start LSP {commandText command}: {cause.message}"
  | .withoutPipes command => s!"LSP {commandText command} was started without stdio pipes"
  | .unexpectedResult result => s!"Unexpected initialize result: {result.kindWord}"
  | .streamClosed => "LSP stream closed"
  | .refused error => s!"LSP error: {error.sentenceText.shown}"
  | .notRunning => "LSP process not running"
  | .notWritten cause => s!"Failed to write to LSP: {cause.message}"
  | .timedOut method => s!"LSP request '{method}' timed out"

/-- What the server said about an error, where it said something. -/
def ClientError.data : ClientError → Value
  | .refused error => error
  | _ => .null

/-- What became of a request. -/
inductive Outcome where
  | waiting
  | answered (result : Value)
  | failed (e : ClientError)

/-- What a client remarks on. -/
inductive Note where
  | ignored (method : Value)
  | unusable (e : FrameError)
  | unreadable (e : Json.ReadError)
  | tokensFailed (uri : String) (e : ClientError)
  | shutdownFailed (e : ClientError)

inductive NoteLevel where
  | debug
  | warning
  | error
  deriving DecidableEq, Repr

def Note.level : Note → NoteLevel
  | .ignored _ => .debug
  | .unusable _ | .tokensFailed _ _ | .shutdownFailed _ => .warning
  | .unreadable _ => .error

def Note.message (decoding : String) : Note → String
  | .ignored method => s!"Ignoring server message {method.sentenceText.shown}"
  | .unusable e => e.message decoding
  | .unreadable e => s!"Error reading from LSP stdout: {e.message}"
  | .tokensFailed uri e => s!"Semantic tokens request failed for {uri}: {e.message}"
  | .shutdownFailed e => s!"Error during LSP shutdown: {e.message}"

/-- The pipes to a server's process that there are. -/
structure Pipes where
  input : Bool
  output : Bool
  deriving DecidableEq, Repr

/-- The open requests are listed by number; each request ever made has an outcome. -/
structure Client where
  command : List String
  timeout : Binary64 := .ofInt 30
  tokenTypes : List String := []
  tokenModifiers : List String := []
  process : Option Pipes := none
  legend : Option Legend := none
  encoding : Str := "utf-16"
  nextId : Nat := 1
  pending : List Nat := []
  outcomes : List (Nat × Outcome) := []
  /-- What has arrived and is not used yet: the front of a frame. -/
  unread : Bytes := []
  listening : Bool := false
  closed : Bool := false
  notes : List Note := []

namespace Client

def remark (c : Client) (n : Note) : Client := { c with notes := c.notes ++ [n] }

/-- A new request with a number of its own. -/
def register (c : Client) : Nat × Client :=
  (c.nextId,
    { c with
      nextId := c.nextId + 1
      pending := c.pending ++ [c.nextId]
      outcomes := c.outcomes ++ [(c.nextId, .waiting)] })

def forget (c : Client) (id : Nat) : Client := { c with pending := c.pending.filter (· != id) }

def outcome (c : Client) (id : Nat) : Outcome := (c.outcomes.lookup id).getD .waiting

def settle (c : Client) (id : Nat) (o : Outcome) : Client :=
  { c with outcomes := c.outcomes.map fun e => if e.1 == id then (id, o) else e }

/-- The number of the request that a message answers: an integer, or a truth value, which counts as
one or zero. -/
def answeredId? (message : Members) : Option Int :=
  match Json.find? message "id" with
  | some (.int n) => some n
  | some (.bool b) => some b.toInt
  | _ => none

/-- An answer: an error if there is one that is not empty, and else the result. -/
def outcomeOf (message : Members) : Outcome :=
  let error := (Json.find? message "error").getD .null
  if error.isPresent then .failed (.refused error)
  else .answered ((Json.find? message "result").getD .null)

/-- Takes a message in: one with a method is none of the client's, and others answer the open request
of their number, if there is one. -/
def dispatch (c : Client) (message : Members) : Client :=
  match Json.find? message "method" with
  | some method => c.remark (.ignored method)
  | none =>
    match answeredId? message with
    | none => c
    | some id =>
      if 0 ≤ id && c.pending.contains id.toNat then
        (c.forget id.toNat).settle id.toNat (outcomeOf message)
      else c

/-- The end of the stream: every open request fails. -/
def close (c : Client) : Client :=
  let failed := c.pending.foldl (fun c id => c.settle id (.failed .streamClosed)) c
  { failed with closed := true, pending := [], listening := false, unread := [] }

/-- Uses the frames that have arrived in full. The fuel is more than the number of bytes. -/
def useFrames : Nat → Client → Client
  | 0, c => c
  | fuel + 1, c =>
    match readFrame { unread := c.unread, cut := fun _ => c.unread.length } with
    | (.ended, _) => c
    | (.message members, s) => useFrames fuel ({ c with unread := s.unread }.dispatch members)
    | (.unusable e, s) => useFrames fuel ({ c with unread := s.unread }.remark (.unusable e))
    | (.hugeInteger digits, _) => (c.remark (.unreadable (.hugeInteger digits))).close
    | (.oversized, _) => c.close

end Client

/-- What a server sends: bytes, and after them possibly the end of its stream. -/
structure Inbound where
  bytes : Bytes := []
  ends : Bool := false
  deriving Repr

/-- Takes in what a server sends while the client listens. -/
def Client.receive (c : Client) (inbound : Inbound) : Client :=
  if !c.listening then c
  else
    let unread := c.unread ++ inbound.bytes
    let c := Client.useFrames (unread.length + 1) { c with unread }
    if inbound.ends && c.listening then c.close else c

end Highlighter.Protocol

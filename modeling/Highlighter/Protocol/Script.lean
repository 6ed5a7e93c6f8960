import Highlighter.Protocol.Conversation
import Highlighter.Text.Lines

/-! A server that follows a script: it answers each message by the first rule that fits. It stands in
for a real server in rehearsals, and keeps what it was sent and what was done to it. -/

namespace Highlighter.Protocol

open Highlighter.Json (Value Members)
open Highlighter.Text (Bytes)

inductive Reply where
  /-- An answer to the message, with a result, an error, or both. -/
  | response (result error : Option Value)
  | message (m : Value)
  | bytes (bs : Bytes)
  | closing
  deriving Inhabited

/-- A rule fits messages of a method whose parameters mention a text, a number of times. -/
structure Rule where
  method : String
  replies : List Reply
  times : Option Nat := none
  mention : String := ""
  deriving Inhabited

inductive Spawning where
  | normal
  | missing
  | withoutInput
  | withoutOutput
  deriving DecidableEq, Repr

inductive ProcessEvent where
  | inputClosed
  | terminated
  | killed
  | waited
  deriving DecidableEq, Repr

structure ScriptedServer where
  rules : List Rule
  spawning : Spawning := .normal
  broken : List String := []
  stubborn : Bool := false
  exited : Bool := false
  inputClosed : Bool := false
  killed : Bool := false
  received : List Members := []
  events : List ProcessEvent := []

namespace ScriptedServer

/-- What a message without a rule gets. -/
def customary (method : Str) : List Reply :=
  if method == "initialize" then
    [.response (some (.object [("capabilities", .object [])])) none]
  else if method == "textDocument/semanticTokens/full" || method == "shutdown" then
    [.response (some .null) none]
  else []

def responseTo (id : Value) (result error : Option Value) : Value :=
  let front : Members := [("jsonrpc", .string "2.0"), ("id", id)]
  let part (name : Str) (v : Option Value) : Members := (v.map fun v => (name, v)).toList
  .object (front ++ part "result" result ++ part "error" error)

def before (bs : Bytes) (i : Inbound) : Inbound := { i with bytes := bs ++ i.bytes }

/-- What replies send, up to the end of the stream. -/
def send (id : Value) : List Reply → Inbound
  | [] => {}
  | .closing :: _ => { ends := true }
  | .response result error :: rest => before (frame (responseTo id result error)) (send id rest)
  | .message m :: rest => before (frame m) (send id rest)
  | .bytes bs :: rest => before bs (send id rest)

def fits (r : Rule) (method : Str) (params : String) : Bool :=
  method == r.method && r.times != some 0 && Text.mentions params r.mention

/-- The replies of the first rule that fits, and the rules with one use of it less. -/
def takeRule (method : Str) (params : String) : List Rule → Option (List Reply × List Rule)
  | [] => none
  | r :: rest =>
    if fits r method params then
      some (r.replies, { r with times := r.times.map (· - 1) } :: rest)
    else (takeRule method params rest).map fun (replies, rest) => (replies, r :: rest)

def textOf (message : Members) (name : String) : Str :=
  ((Json.find? message name).bind (·.string?)).getD ""

def record (s : ScriptedServer) (e : ProcessEvent) : ScriptedServer :=
  { s with events := s.events ++ [e] }

def write (message : Members) (s : ScriptedServer) : Except WriteFault Inbound × ScriptedServer :=
  let method := textOf message "method"
  if s.inputClosed then (.error .closedInput, s)
  else if s.broken.any (method == ·) then (.error (.system .brokenPipe), s)
  else
    let s := { s with received := s.received ++ [message] }
    let params := ((Json.find? message "params").getD .null).compactText
    let id := (Json.find? message "id").getD .null
    match takeRule method params s.rules with
    | some (replies, rules) => (.ok (send id replies), { s with rules })
    | none => (.ok (send id (customary method)), s)

/-- The host on which scripted servers run. -/
def host : Host ScriptedServer where
  spawn command s :=
    match s.spawning with
    | .normal => (.ok ⟨true, true⟩, { s with inputClosed := false })
    | .missing => (.error ⟨.missing, command.headD ""⟩, s)
    | .withoutInput => (.ok ⟨false, true⟩, s)
    | .withoutOutput => (.ok ⟨true, false⟩, { s with inputClosed := false })
  write := write
  closeInput s := { s with inputClosed := true }.record .inputClosed
  hasExited s := s.exited
  terminate s := ({ ends := true }, s.record .terminated)
  wait s := (!s.stubborn || s.killed, s.record .waited)
  kill s := ({ ends := true }, { s with killed := true }.record .killed)

end ScriptedServer

end Highlighter.Protocol

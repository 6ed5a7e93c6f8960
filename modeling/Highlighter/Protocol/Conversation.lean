import Highlighter.Protocol.Client

/-! Conversations with a language server: starting it, asking it, and ending it. A server is anything
that takes messages and may send bytes back; nothing is assumed about what it sends. -/

namespace Highlighter.Protocol

open Highlighter.Decimal (Binary64)
open Highlighter.Json (Value Members)
open Highlighter.Semantic (Legend)

/-- What can be done with the process of a server. What it sends in return has arrived when an action
is over; a process that is killed ends. -/
structure Host (σ : Type) where
  spawn : List String → σ → Except Files.FileError Pipes × σ
  write : Members → σ → Except WriteFault Inbound × σ
  closeInput : σ → σ
  hasExited : σ → Bool
  terminate : σ → Inbound × σ
  /-- Waits a while; whether the process has ended then. -/
  wait : σ → Bool × σ
  kill : σ → Inbound × σ

/-- A client and the server it talks to. -/
structure Conversation (σ : Type) where
  client : Client
  server : σ

/-- Why a call gives no value: an error of the client, or one that is not reported as such. -/
inductive CallFailure where
  | client (e : ClientError)
  /-- The time to wait is beyond what can be waited for. -/
  | endlessWait

namespace Conversation

variable {σ : Type}

/-- A message as it is written. -/
def requestMessage (id : Nat) (method : String) (params : Value) : Members :=
  [("jsonrpc", .string "2.0"), ("id", .int id), ("method", .string method), ("params", params)]

def noticeMessage (method : String) (params : Value) : Members :=
  [("jsonrpc", .string "2.0"), ("method", .string method), ("params", params)]

/-- Writes a message; what the server sends back is taken in. -/
def write (h : Host σ) (t : Conversation σ) (message : Members) :
    Except ClientError Unit × Conversation σ :=
  match t.client.process with
  | some ⟨true, _⟩ =>
    match h.write message t.server with
    | (.error fault, server) => (.error (.notWritten fault), { t with server })
    | (.ok inbound, server) => (.ok (), ⟨t.client.receive inbound, server⟩)
  | _ => (.error .notRunning, t)

def notify (h : Host σ) (t : Conversation σ) (method : String) (params : Value) :
    Except ClientError Unit × Conversation σ := t.write h (noticeMessage method params)

/-- Sends a request; its number, by which its outcome is known. A request that cannot be written is
not left open. -/
def send (h : Host σ) (t : Conversation σ) (method : String) (params : Value) :
    Except ClientError Nat × Conversation σ :=
  let (id, client) := t.client.register
  if client.closed then (.error .streamClosed, { t with client := client.forget id })
  else
    match { t with client }.write h (requestMessage id method params) with
    | (.error e, t) => (.error e, { t with client := t.client.forget id })
    | (.ok (), t) => (.ok id, t)

/-- From here on nanoseconds are not counted in words of 64 bits with a sign. They are rounded to a double before,
so the bound is half a step of the doubles there below `2 ^ 63`. -/
def uncountedNanoseconds : Int := 0x7FFFFFFFFFFFFE00

/-- Whether so many seconds cannot be waited for. -/
def isEndless (timeout : Binary64) : Bool :=
  match timeout, timeout.toQuotient? with
  | .infinite negative, _ => !negative
  | _, some (num, den) => uncountedNanoseconds * den ≤ num * 1000000000
  | _, none => false

/-- Sends a request and waits for its outcome. One that is still open then is given up. -/
def request (h : Host σ) (t : Conversation σ) (method : String) (params : Value)
    (timeout : Binary64) : Except CallFailure Value × Conversation σ :=
  match t.send h method params with
  | (.error e, t) => (.error (.client e), t)
  | (.ok id, t) =>
    match t.client.outcome id with
    | .answered result => (.ok result, t)
    | .failed e => (.error (.client e), t)
    | .waiting =>
      if isEndless timeout then (.error .endlessWait, t)
      else (.error (.client (.timedOut method)), { t with client := t.client.forget id })

/-- Ends the process: its input is closed, it is told to terminate, and killed if it does not. -/
def kill (h : Host σ) (t : Conversation σ) : Conversation σ :=
  match t.client.process with
  | none => t
  | some pipes =>
    let server := if pipes.input then h.closeInput t.server else t.server
    if h.hasExited server then { t with server }
    else
      let (inbound, server) := h.terminate server
      let client := t.client.receive inbound
      match h.wait server with
      | (true, server) => ⟨client, server⟩
      | (false, server) =>
        let (inbound, server) := h.kill server
        ⟨client.receive inbound, (h.wait server).2⟩

/-- The number by which the client's own process is known to the server. -/
abbrev ProcessId := Nat

/-- What the client tells about itself. -/
def initializeParams (c : Client) (process : ProcessId) (rootUri : String) : Value :=
  .object [("processId", .int process), ("rootUri", .string rootUri),
    ("capabilities", .object [
      ("textDocument", .object [
        ("semanticTokens", .object [
          ("dynamicRegistration", .bool false), ("tokenTypes", .ofStrings c.tokenTypes),
          ("tokenModifiers", .ofStrings c.tokenModifiers),
          ("formats", .ofStrings ["relative"]),
          ("requests", .object [("range", .bool false),
            ("full", .object [("delta", .bool false)])])]),
        ("synchronization", .object [
          ("dynamicRegistration", .bool false), ("willSave", .bool false),
          ("willSaveWaitUntil", .bool false), ("didSave", .bool false)])]),
      ("workspace", .object [("workspaceFolders", .bool true)])])]

/-- The names a list gives; other than texts are taken as they would be shown. -/
def namesOf : Option Value → List Str
  | some (.array items) => items.map (·.sentenceText)
  | _ => []

/-- The legend that a server announces. -/
def legendOf (capabilities : Members) : Option Legend := do
  let provider ← (Json.find? capabilities "semanticTokensProvider").bind (·.object?)
  let legend ← (Json.find? provider "legend").bind (·.object?)
  return ⟨namesOf (Json.find? legend "tokenTypes"), namesOf (Json.find? legend "tokenModifiers")⟩

/-- Keeps what a server announces of itself. -/
def noteCapabilities (c : Client) (result : Members) : Client :=
  match (Json.find? result "capabilities").bind (·.object?) with
  | none => c
  | some capabilities =>
    { c with
      legend := legendOf capabilities
      encoding :=
        ((Json.find? capabilities "positionEncoding").bind (·.string?)).getD c.encoding }

/-- Starts the server and introduces the client to it; what the server answers. -/
def start (h : Host σ) (t : Conversation σ) (process : ProcessId) (rootUri : String) :
    Except CallFailure Members × Conversation σ :=
  match h.spawn t.client.command t.server with
  | (.error e, server) =>
    (.error (.client (.notStarted t.client.command e)), { t with server })
  | (.ok pipes, server) =>
    let t : Conversation σ := ⟨{ t.client with process := some pipes }, server⟩
    if !(pipes.input && pipes.output) then
      (.error (.client (.withoutPipes t.client.command)), t.kill h)
    else
      let t := { t with client := { t.client with listening := true } }
      match t.request h "initialize" (initializeParams t.client process rootUri)
          t.client.timeout with
      | (.error e, t) => (.error e, t)
      | (.ok (.object result), t) =>
        let t := { t with client := noteCapabilities t.client result }
        match t.notify h "initialized" (.object []) with
        | (.error e, t) => (.error (.client e), t)
        | (.ok (), t) => (.ok result, t)
      | (.ok other, t) => (.error (.client (.unexpectedResult other)), t)

/-- A time to wait, cut to five seconds. -/
def atMostFive (timeout : Binary64) : Binary64 :=
  if timeout == .nan || timeout.isBelow 5 then timeout else .ofInt 5

/-- Ends the conversation: the server is asked to shut down and told to exit, and its process is ended
in any case. -/
def shutdown (h : Host σ) (t : Conversation σ) : Conversation σ :=
  if t.client.process.isNone then t
  else if t.client.closed then t.kill h
  else
    match t.request h "shutdown" .null (atMostFive t.client.timeout) with
    | (.error (.client e), t) => { t with client := t.client.remark (.shutdownFailed e) }.kill h
    | (.error .endlessWait, t) => t.kill h
    | (.ok _, t) =>
      match t.notify h "exit" .null with
      | (.error e, t) => { t with client := t.client.remark (.shutdownFailed e) }.kill h
      | (.ok (), t) => t.kill h

end Conversation

end Highlighter.Protocol

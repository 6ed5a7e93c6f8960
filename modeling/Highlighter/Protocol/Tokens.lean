import Highlighter.Protocol.Conversation
import Highlighter.Text.Number

/-! Asking a server for the semantic tokens of a document. -/

namespace Highlighter.Protocol

open Highlighter.Json (Value Members)

/-- The numbers of an answer, and its name if it has one. -/
structure Tokens where
  data : List Int
  resultId : Option Str
  deriving DecidableEq, Repr

/-- Why an item of an answer is no integer. -/
inductive ItemFault where
  | wrongKind
  /-- A text that is no integer, or a NaN. -/
  | unreadable
  | infinite
  deriving DecidableEq, Repr

inductive TokensFailure where
  | item (f : ItemFault)
  | endlessWait
  deriving DecidableEq, Repr

/-- The integer of an item: fractions are cut off, and texts are read. -/
def itemInteger : Value → Except ItemFault Int
  | .int n => .ok n
  | .bool b => .ok b.toInt
  | .float (.infinite _) => .error .infinite
  | .float x => x.truncate?.elim (.error .unreadable) .ok
  | .string s => (s.text?.bind fun text => Text.integer? text.toList).elim (.error .unreadable) .ok
  | .null | .array _ | .object _ => .error .wrongKind

/-- The tokens in an answer; an answer of another form holds none. -/
def tokensOf (answer : Value) : Except ItemFault (Option Tokens) :=
  match answer.get? "data" with
  | some (.array items) => do
    let data ← items.mapM itemInteger
    return some ⟨data, (answer.get? "resultId").bind (·.string?)⟩
  | _ => .ok none

namespace Conversation

variable {σ : Type}

def openParams (uri text language : String) : Value :=
  .object [("textDocument", .object [("uri", .string uri), ("languageId", .string language),
    ("version", .int 1), ("text", .string text)])]

def documentParams (uri : String) : Value :=
  .object [("textDocument", .object [("uri", .string uri)])]

/-- A call that went wrong leaves a document without tokens and a note. -/
def withoutTokens (t : Conversation σ) (uri : String) (e : ClientError) :
    Except TokensFailure (Option Tokens) × Conversation σ :=
  (.ok none, { t with client := t.client.remark (.tokensFailed uri e) })

/-- Shows a document to the server and asks for its tokens. -/
def tokens (h : Host σ) (t : Conversation σ) (uri text language : String) :
    Except TokensFailure (Option Tokens) × Conversation σ :=
  match t.notify h "textDocument/didOpen" (openParams uri text language) with
  | (.error e, t) => t.withoutTokens uri e
  | (.ok (), t) =>
    match t.request h "textDocument/semanticTokens/full" (documentParams uri)
        t.client.timeout with
    | (.error (.client e), t) => t.withoutTokens uri e
    | (.error .endlessWait, t) => (.error .endlessWait, t)
    | (.ok answer, t) => ((tokensOf answer).mapError .item, t)

end Conversation

end Highlighter.Protocol

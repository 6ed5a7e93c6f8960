import Highlighter.Proofs.Run.Highlighting
import Highlighter.Protocol.Script
import Highlighter.Protocol.Tokens

/-! Two conversations and two sessions side by side. Servers that answer every message alike lead a client to the
same answers and to the same state, and sessions with one configuration, one tokenizer, one theme and servers
that answer alike make the same of the same texts. -/

namespace Highlighter.Protocol

open Highlighter.Decimal (Binary64)
open Highlighter.Json (Value Members)

/-- Messages that are the same but for the number by which the client's process is known. -/
inductive SameMessage : Members → Members → Prop
  | same (m : Members) : SameMessage m m
  | introduction (id : Nat) (c : Client) (process process' : Conversation.ProcessId) (rootUri : String) :
    SameMessage
      (Conversation.requestMessage id "initialize" (Conversation.initializeParams c process rootUri))
      (Conversation.requestMessage id "initialize" (Conversation.initializeParams c process' rootUri))

/-- Servers that are alike behave alike when they are started and when they are written to, and stay
alike. -/
structure AnswerAlike {σ τ : Type} (h : Host σ) (h' : Host τ) (R : σ → τ → Prop) : Prop where
  spawn : ∀ command a b, R a b →
    (h.spawn command a).1 = (h'.spawn command b).1 ∧ R (h.spawn command a).2 (h'.spawn command b).2
  write : ∀ m m' a b, SameMessage m m' → R a b →
    (h.write m a).1 = (h'.write m' b).1 ∧ R (h.write m a).2 (h'.write m' b).2

/-- Scripted servers without rules that differ in what they were sent. -/
def Unruled (a b : ScriptedServer) : Prop := a.rules = [] ∧ ∃ received, b = { a with received }

/-- Without rules the answer is up to the method of a message. -/
theorem answerAlike_unruled : AnswerAlike ScriptedServer.host ScriptedServer.host Unruled where
  spawn := by
    rintro command ⟨rules, spawning, broken, stubborn, exited, inputClosed, killed, before, events⟩ _
      ⟨hrules, received, rfl⟩
    cases spawning <;> exact ⟨rfl, hrules, received, rfl⟩
  write := by
    rintro m m' ⟨rules, spawning, broken, stubborn, exited, inputClosed, killed, before, events⟩ _ hm
      ⟨hrules, received, rfl⟩
    have hmethod : ScriptedServer.textOf m' "method" = ScriptedServer.textOf m "method" := by
      cases hm <;> rfl
    have hid : Json.find? m' "id" = Json.find? m "id" := by cases hm <;> rfl
    cases hrules
    unfold ScriptedServer.host ScriptedServer.write
    dsimp only [ScriptedServer.takeRule]
    rw [hmethod, hid]
    split
    · exact ⟨rfl, rfl, received, rfl⟩
    split
    · exact ⟨rfl, rfl, received, rfl⟩
    · exact ⟨rfl, rfl, received ++ [m'], rfl⟩

namespace Conversation

variable {σ τ : Type} {R : σ → τ → Prop}

/-- Two conversations in one state of the client, with servers that are alike. -/
structure Alike (R : σ → τ → Prop) (t : Conversation σ) (t' : Conversation τ) : Prop where
  client : t.client = t'.client
  server : R t.server t'.server

theorem Alike.of (client : Client) {a : σ} {b : τ} (h : R a b) :
    Alike R ⟨client, a⟩ ⟨client, b⟩ := ⟨rfl, h⟩

/-- Two steps with one answer, after which the conversations are alike. -/
structure Both {α : Type} (R : σ → τ → Prop) (x : α × Conversation σ) (y : α × Conversation τ) : Prop where
  answer : x.1 = y.1
  alike : Alike R x.2 y.2

@[elab_as_elim]
theorem Both.elim {α : Type} {P : α × Conversation σ → α × Conversation τ → Prop}
    {x : α × Conversation σ} {y : α × Conversation τ} (hxy : Both R x y)
    (hP : ∀ r client a b, R a b → P (r, ⟨client, a⟩) (r, ⟨client, b⟩)) : P x y := by
  obtain ⟨r, ⟨client, a⟩⟩ := x
  obtain ⟨_, ⟨_, b⟩⟩ := y
  obtain ⟨rfl, rfl, hR⟩ := hxy
  exact hP r client a b hR

section
variable {h : Host σ} {h' : Host τ} {t : Conversation σ} {t' : Conversation τ} {m m' : Members}
  {method uri text language rootUri : String} {params params' : Value} {timeout : Binary64}
  {process process' : ProcessId}

theorem write_both (hh : AnswerAlike h h' R) (hm : SameMessage m m') (ht : t.Alike R t') :
    Both R (t.write h m) (t'.write h' m') := by
  obtain ⟨client, a⟩ := t
  obtain ⟨_, b⟩ := t'
  obtain ⟨rfl, hR⟩ := ht
  unfold write
  dsimp only
  split
  · have hwrite := hh.write m m' a b hm hR
    generalize h.write m a = x at hwrite
    generalize h'.write m' b = y at hwrite
    obtain ⟨r, a'⟩ := x
    obtain ⟨_, b'⟩ := y
    obtain ⟨rfl, hR⟩ := hwrite
    cases r <;> exact ⟨rfl, rfl, hR⟩
  · exact ⟨rfl, rfl, hR⟩

theorem notify_both (method : String) (params : Value) (hh : AnswerAlike h h' R) (ht : t.Alike R t') :
    Both R (t.notify h method params) (t'.notify h' method params) :=
  write_both hh (.same _) ht

/-- Requests are sent alike, if they are the same message under every number. -/
theorem send_both (hh : AnswerAlike h h' R) (ht : t.Alike R t')
    (hm : ∀ id, SameMessage (requestMessage id method params) (requestMessage id method params')) :
    Both R (t.send h method params) (t'.send h' method params') := by
  obtain ⟨client, a⟩ := t
  obtain ⟨_, b⟩ := t'
  obtain ⟨rfl, hR⟩ := ht
  unfold send
  dsimp only
  split
  · exact ⟨rfl, rfl, hR⟩
  · have hwrite := write_both hh (hm client.register.1) (.of client.register.2 hR)
    refine hwrite.elim fun r client a b hR => ?_
    cases r <;> exact ⟨rfl, rfl, hR⟩

theorem request_both (method : String) (params params' : Value) (timeout : Binary64)
    (hh : AnswerAlike h h' R) (ht : t.Alike R t')
    (hm : ∀ id, SameMessage (requestMessage id method params) (requestMessage id method params')) :
    Both R (t.request h method params timeout) (t'.request h' method params' timeout) := by
  unfold request
  refine (send_both hh ht hm).elim fun r client a b hR => ?_
  cases r with
  | error e => exact ⟨rfl, rfl, hR⟩
  | ok id =>
    dsimp only
    split
    · exact ⟨rfl, rfl, hR⟩
    · exact ⟨rfl, rfl, hR⟩
    · split <;> exact ⟨rfl, rfl, hR⟩

theorem tokens_both (hh : AnswerAlike h h' R) (ht : t.Alike R t') :
    Both R (t.tokens h uri text language) (t'.tokens h' uri text language) := by
  unfold tokens
  refine (notify_both _ _ hh ht).elim fun r client a b hR => ?_
  cases r with
  | error e => exact ⟨rfl, rfl, hR⟩
  | ok u =>
    dsimp only
    have hrequest := request_both "textDocument/semanticTokens/full" (documentParams uri)
      (documentParams uri) client.timeout hh (.of client hR) fun _ => .same _
    refine hrequest.elim fun r client a b hR => ?_
    cases r with
    | error f => cases f <;> exact ⟨rfl, rfl, hR⟩
    | ok answer => exact ⟨rfl, rfl, hR⟩

/-- Where a server is started, one that is alike is started as well, and announces the same. -/
theorem start_both {answer : Members} {after : Conversation σ} (process' : ProcessId)
    (hh : AnswerAlike h h' R) (ht : t.Alike R t')
    (hstart : t.start h process rootUri = (.ok answer, after)) :
    ∃ after', t'.start h' process' rootUri = (.ok answer, after') ∧ after.Alike R after' := by
  obtain ⟨client, a⟩ := t
  obtain ⟨_, b⟩ := t'
  obtain ⟨rfl, hR⟩ := ht
  have hspawn := hh.spawn client.command a b hR
  unfold start at hstart ⊢
  dsimp only at hstart ⊢
  generalize h.spawn client.command a = x at hspawn hstart
  generalize h'.spawn client.command b = y at hspawn ⊢
  obtain ⟨r, a⟩ := x
  obtain ⟨_, b⟩ := y
  obtain ⟨rfl, hR⟩ := hspawn
  cases r with
  | error e => cases hstart
  | ok pipes =>
    dsimp only at hstart ⊢
    split at hstart
    · cases hstart
    rename_i hpipes
    rw [if_neg hpipes]
    have ht := Alike.of { client with process := some pipes, listening := true } hR
    have hrequest := request_both _ _ _ client.timeout hh ht fun id =>
      .introduction id { client with process := some pipes, listening := true } process process' rootUri
    revert hstart
    refine hrequest.elim fun r client a b hR hstart => ?_
    cases r with
    | error e => cases hstart
    | ok result =>
      cases result with
      | object capabilities =>
        dsimp only at hstart ⊢
        have hnotify := notify_both "initialized" (.object []) hh
          (.of (noteCapabilities client capabilities) hR)
        revert hstart
        refine hnotify.elim fun r client a b hR hstart => ?_
        cases r with
        | error e => cases hstart
        | ok u =>
          cases hstart
          exact ⟨_, rfl, rfl, hR⟩
      | null | bool _ | int _ | float _ | string _ | array _ => cases hstart

end

end Conversation

end Highlighter.Protocol

namespace Highlighter.Run.Session

open Highlighter.Files (Path Tree)
open Highlighter.Protocol (AnswerAlike Conversation Host)

variable {σ τ : Type} {R : σ → τ → Prop}

/-- Sessions that differ at most in the styles they remember and in what they remarked on. -/
structure Alike (R : σ → τ → Prop) (s : Session σ) (s' : Session τ) : Prop where
  config : s.config = s'.config
  tokenizer : s.tokenizer = s'.tokenizer
  theme : s.overlay.theme = s'.overlay.theme
  talk : s.talk.Alike R s'.talk

/-- Two steps with one result, after which the sessions are alike. -/
structure Both {α : Type} (R : σ → τ → Prop) (x : α × Session σ) (y : α × Session τ) : Prop where
  result : x.1 = y.1
  alike : Alike R x.2 y.2

@[elab_as_elim]
theorem Both.elim {α : Type} {P : α × Session σ → α × Session τ → Prop} {x : α × Session σ}
    {y : α × Session τ} (hxy : Both R x y) (hP : ∀ r s s', Alike R s s' → P (r, s) (r, s')) : P x y := by
  obtain ⟨r, s⟩ := x
  obtain ⟨_, s'⟩ := y
  obtain ⟨rfl, hs⟩ := hxy
  exact hP r s s' hs

section
variable {h : Host σ} {h' : Host τ} {s : Session σ} {s' : Session τ} {tree tree' : Tree} {path : Path}
  {content : String} {talk : Conversation σ} {talk' : Conversation τ} {tokens : List Grammar.Token}
  {spans : Option Protocol.Tokens} {process process' : Conversation.ProcessId} {mode : Mode}

theorem Alike.title (hs : s.Alike R s') : s.title = s'.title := by
  rw [Session.title, Session.title, hs.theme, hs.config]

theorem Alike.withTalk (hs : s.Alike R s') (ht : talk.Alike R talk') :
    (s.withTalk talk).Alike R (s'.withTalk talk') where
  config := hs.config
  tokenizer := hs.tokenizer
  theme := hs.theme
  talk := ⟨congrArg (fun c => { c with notes := [] }) ht.client, ht.server⟩

theorem lexical_both (content : String) (hs : s.Alike R s') : Both R (s.lexical content) (s'.lexical content) := by
  unfold lexical
  rw [← hs.tokenizer]
  exact ⟨rfl, hs.config, rfl, hs.theme, hs.talk⟩

theorem semantic_both (path : Path) (content : String) (hh : AnswerAlike h h' R) (hs : s.Alike R s') :
    Both R (s.semantic h path content) (s'.semantic h' path content) := by
  unfold semantic
  rw [← hs.config]
  refine (Conversation.tokens_both hh hs.talk).elim fun r client a b hR => ?_
  exact ⟨rfl, hs.withTalk ⟨rfl, hR⟩⟩

/-- Styles are remembered within a document only. -/
theorem styled_both (content : String) (tokens : List Grammar.Token) (spans : Option Protocol.Tokens)
    (hs : s.Alike R s') : Both R (s.styled content tokens spans) (s'.styled content tokens spans) := by
  have hdocument (data : List Int) (legend : Option Semantic.Legend) (utf16 : Bool) :
      s.overlay.document content tokens data legend utf16 =
        s'.overlay.document content tokens data legend utf16 := by
    unfold Styling.Overlay.document
    rw [hs.theme]
  unfold styled
  rw [hdocument, hs.talk.client]
  generalize s'.overlay.document content tokens _ _ _ = x
  exact ⟨rfl, hs.config, hs.tokenizer, rfl, hs.talk⟩

theorem highlightText_both (hh : AnswerAlike h h' R) (hs : s.Alike R s') :
    Both R (s.highlightText h path content) (s'.highlightText h' path content) := by
  unfold highlightText
  have hlexical := lexical_both content hs
  generalize s.lexical content = x, s'.lexical content = y at hlexical ⊢
  refine hlexical.elim fun r s s' hs => ?_
  cases r with
  | error f => exact ⟨rfl, hs⟩
  | ok tokens =>
    have hsemantic := semantic_both path content hh hs
    dsimp only
    generalize s.semantic h path content = x, s'.semantic h' path content = y at hsemantic ⊢
    refine hsemantic.elim fun r s s' hs => ?_
    cases r with
    | error f => exact ⟨rfl, hs⟩
    | ok spans =>
      have hstyled := styled_both content tokens spans hs
      dsimp only
      generalize s.styled content tokens spans = x, s'.styled content tokens spans = y at hstyled ⊢
      refine hstyled.elim fun ranges s s' hs => ?_
      dsimp only
      split <;> exact ⟨rfl, hs⟩

/-- Sources that are read alike are highlighted alike. -/
theorem highlight_both (hh : AnswerAlike h h' R) (hs : s.Alike R s') (hread : tree.read path = tree'.read path) :
    Both R (s.highlight h tree path) (s'.highlight h' tree' path) := by
  unfold highlight sourceText
  rw [hread]
  split
  · exact ⟨rfl, hs⟩
  · exact highlightText_both hh hs

/-- Sessions that are made ready of the same grammars and theme are alike. -/
theorem prepare_both {machine : Machine} {c : Config} {server : σ} {server' : τ} {remarks : List Remark}
    (hgrammars : Tokenizer.load tree' c.grammar c.scopeName c.extraGrammars =
      Tokenizer.load tree c.grammar c.scopeName c.extraGrammars)
    (htheme : themeOf tree' machine c = themeOf tree machine c) (hserver : R server server')
    (hprepare : prepare tree machine c server = (.ok s, remarks)) :
    ∃ s', prepare tree' machine c server' = (.ok s', remarks) ∧ s.Alike R s' := by
  obtain ⟨tokenizer, notes, theme, htokenizer, hloaded, rfl, rfl⟩ := prepare_eq_ok.mp hprepare
  refine ⟨_, prepare_eq_ok.mpr ⟨tokenizer, notes, theme, hgrammars.trans htokenizer,
    htheme.trans hloaded, rfl, rfl⟩, ?_⟩
  exact { config := rfl, tokenizer := rfl, theme := rfl, talk := ⟨rfl, hserver⟩ }

/-- Where one session gets its server started, the other does. -/
theorem start_both {after : Session σ} (process' : Conversation.ProcessId) (hh : AnswerAlike h h' R)
    (hs : s.Alike R s') (hstart : s.start h process = (.ok (), after)) :
    ∃ after', s'.start h' process' = (.ok (), after') ∧ after.Alike R after' := by
  unfold start at hstart ⊢
  split at hstart
  · rename_i answer talk heq
    obtain ⟨talk', heq', htalk⟩ := Conversation.start_both process' hh hs.talk heq
    rw [← hs.config, heq']
    cases hstart
    exact ⟨_, rfl, hs.withTalk htalk⟩
  · cases hstart

end

end Highlighter.Run.Session

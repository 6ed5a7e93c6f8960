import Highlighter.Proofs.Protocol.Asking
import Highlighter.Protocol.Script

/-! How a conversation ends. The client asks the server to shut down and waits for a while, tells it to exit if it
agreed, and ends its process in any case. All the while the reader goes on: whatever arrives, the end of the
stream too, may be taken in between any two things that the client does. -/

namespace Highlighter.Protocol

open Highlighter.Decimal (Binary64)
open Highlighter.Json (Members Value)

/-! ### What is done to a server -/

/-- There is a pipe to the process through which it can be told something. -/
def Client.HasInput (c : Client) : Prop := ∃ output, c.process = some ⟨true, output⟩

/-- What a client does to the process of a server. -/
inductive Act where
  | told (m : Members) (written : Bool)
  | closedInput
  | terminated
  /-- The client has waited a while, and the process has ended then or has not. -/
  | waited (ended : Bool)
  | killed

/-- A host that keeps a record of what is done. -/
def Host.recording {σ : Type} (h : Host σ) : Host (σ × List Act) where
  spawn command s := ((h.spawn command s.1).1, (h.spawn command s.1).2, s.2)
  write m s := ((h.write m s.1).1, (h.write m s.1).2, s.2 ++ [.told m (h.write m s.1).1.isOk])
  closeInput s := (h.closeInput s.1, s.2 ++ [.closedInput])
  hasExited s := h.hasExited s.1
  terminate s := ((h.terminate s.1).1, (h.terminate s.1).2, s.2 ++ [.terminated])
  wait s := ((h.wait s.1).1, (h.wait s.1).2, s.2 ++ [.waited (h.wait s.1).1])
  kill s := ((h.kill s.1).1, (h.kill s.1).2, s.2 ++ [.killed])

/-- What the reader takes in while a client ends its conversation. -/
structure Meanwhile where
  /-- Once the client has seen that the stream goes on. -/
  looked : List Inbound := []
  registered : List Inbound := []
  /-- Once it has looked again, with the request registered. -/
  cleared : List Inbound := []
  waiting : List Inbound := []
  /-- Once the request has failed, before it is given up. -/
  failed : List Inbound := []

/-- Why a conversation would not end. -/
inductive PartingFailure where
  | endlessWait
  /-- The process goes on though it was killed. -/
  | notEnding

namespace Conversation

section
variable {σ : Type}

def recorded (t : Conversation σ) (acts : List Act) : Conversation (σ × List Act) := ⟨t.client, t.server, acts⟩

def hear (t : Conversation σ) (arrivals : List Inbound) : Conversation σ :=
  { t with client := t.client.hear arrivals }

def remark (t : Conversation σ) (n : Note) : Conversation σ := { t with client := t.client.remark n }

/-- A request is given up, after what arrives before that. -/
def giveUp (t : Conversation σ) (arrivals : List Inbound) (id : Nat) : Conversation σ :=
  { t with client := (t.client.hear arrivals).forget id }

/-- A request that could not be written is given up. -/
def written (w : Meanwhile) (id : Nat) :
    Except ClientError Unit × Conversation σ → Except ClientError Nat × Conversation σ
  | (.error e, t) => (.error e, t.giveUp w.failed id)
  | (.ok (), t) => (.ok id, t)

/-- Sends a request while the reader goes on. -/
def sendAmid (h : Host σ) (w : Meanwhile) (t : Conversation σ) (method : String) (params : Value) :
    Except ClientError Nat × Conversation σ :=
  let id := t.client.nextId
  let t : Conversation σ := { t with client := t.client.register.2.hear w.registered }
  if t.client.closed then (.error .streamClosed, t.giveUp w.failed id)
  else written w id ((t.hear w.cleared).write h (requestMessage id method params))

/-- What a request comes to that was waited for. One that is still open is given up. -/
def await (w : Meanwhile) (t : Conversation σ) (id : Nat) (method : String) (timeout : Binary64) :
    Except CallFailure Value × Conversation σ :=
  match t.client.outcome id with
  | .answered result => (.ok result, t)
  | .failed e => (.error (.client e), t)
  | .waiting =>
    if isEndless timeout then (.error .endlessWait, t)
    else (.error (.client (.timedOut method)), t.giveUp w.failed id)

def sent (w : Meanwhile) (method : String) (timeout : Binary64) :
    Except ClientError Nat × Conversation σ → Except CallFailure Value × Conversation σ
  | (.error e, t) => (.error (.client e), t)
  | (.ok id, t) => (t.hear w.waiting).await w id method timeout

/-- Sends a request and waits for its outcome while the reader goes on. -/
def requestAmid (h : Host σ) (w : Meanwhile) (t : Conversation σ) (method : String) (params : Value)
    (timeout : Binary64) : Except CallFailure Value × Conversation σ :=
  sent w method timeout (t.sendAmid h w method params)

def toldToExit : Except ClientError Unit × Conversation σ → Except PartingFailure Unit × Conversation σ
  | (.error e, t) => (.ok (), t.remark (.shutdownFailed e))
  | (.ok (), t) => (.ok (), t)

/-- What a client does once it has asked its server to shut down: if the server agreed, it is told to exit. -/
def farewell (h : Host σ) : Except CallFailure Value × Conversation σ → Except PartingFailure Unit × Conversation σ
  | (.error (.client e), t) => (.ok (), t.remark (.shutdownFailed e))
  | (.error .endlessWait, t) => (.error .endlessWait, t)
  | (.ok _, t) => toldToExit (t.notify h "exit" .null)

/-- What is said before the process is ended. -/
def handshake (h : Host σ) (w : Meanwhile) (t : Conversation σ) : Except PartingFailure Unit × Conversation σ :=
  if t.client.closed then (.ok (), t)
  else farewell h ((t.hear w.looked).requestAmid h w "shutdown" .null (atMostFive t.client.timeout))

/-- Ends a process that can be told nothing more; whether it has ended where the client waited for that to the
last. -/
def putDown (h : Host σ) (t : Conversation σ) : Bool × Conversation σ :=
  if h.hasExited t.server then (true, t)
  else
    let (inbound, server) := h.terminate t.server
    let client := t.client.receive inbound
    match h.wait server with
    | (true, server) => (true, ⟨client, server⟩)
    | (false, server) =>
      let (inbound, server) := h.kill server
      let (ended, server) := h.wait server
      (ended, ⟨client.receive inbound, server⟩)

def stop (h : Host σ) (t : Conversation σ) : Bool × Conversation σ :=
  match t.client.process with
  | none => (true, t)
  | some pipes => putDown h { t with server := if pipes.input then h.closeInput t.server else t.server }

/-- A client fails in the end with a process that goes on though it was killed. -/
def stopped (r : Except PartingFailure Unit) : Bool × Conversation σ → Except PartingFailure Unit × Conversation σ
  | (true, t) => (r, t)
  | (false, t) => (.error .notEnding, t)

def finish (h : Host σ) : Except PartingFailure Unit × Conversation σ → Except PartingFailure Unit × Conversation σ
  | (r, t) => stopped r (t.stop h)

/-- Ends the conversation while the reader goes on. -/
def shutdownAmid (h : Host σ) (w : Meanwhile) (t : Conversation σ) : Except PartingFailure Unit × Conversation σ :=
  if t.client.process.isNone then (.ok (), t) else finish h (t.handshake h w)

end

variable {σ : Type} {h : Host σ} {w : Meanwhile} {t t' : Conversation σ} {m : Members} {method : String}
  {params : Value} {timeout : Binary64} {pipes : Pipes}

/-! ### Without arrivals of its own the reader leaves a call as it is -/

theorem sendAmid_quiet : t.sendAmid h {} method params = t.send h method params := by
  unfold sendAmid send
  rw [show t.client.register.2.hear ({} : Meanwhile).registered = t.client.register.2 from rfl]
  dsimp only
  split
  · rfl
  · rw [show hear ⟨t.client.register.2, t.server⟩ ({} : Meanwhile).cleared =
      ⟨t.client.register.2, t.server⟩ from rfl]
    unfold written
    rfl

theorem requestAmid_quiet : t.requestAmid h {} method params timeout = t.request h method params timeout := by
  unfold requestAmid request
  rw [sendAmid_quiet]
  rcases t.send h method params with ⟨_ | _, t⟩ <;> rfl

theorem stop_kill : (t.stop h).2 = t.kill h := by
  unfold stop kill
  cases t.client.process with
  | none => rfl
  | some pipes =>
    dsimp only [putDown]
    generalize (if pipes.input = true then h.closeInput t.server else t.server) = server
    split
    · rfl
    · rcases h.wait (h.terminate server).2 with ⟨_ | _, server⟩ <;> rfl

theorem handshake_quiet (hprocess : t.client.process.isNone = false) :
    (t.handshake h {}).2.kill h = t.shutdown h := by
  unfold handshake shutdown
  rw [hprocess, if_neg Bool.false_ne_true]
  split
  · rfl
  rw [show t.hear ({} : Meanwhile).looked = t from rfl, requestAmid_quiet]
  rcases t.request h "shutdown" .null (atMostFive t.client.timeout) with ⟨(_ | _) | _, t⟩
  · rfl
  · rfl
  · dsimp only [farewell]
    rcases t.notify h "exit" .null with ⟨_ | _, t⟩ <;> rfl

theorem finish_kill (r : Except PartingFailure Unit) (t : Conversation σ) : (finish h (r, t)).2 = t.kill h := by
  rw [← stop_kill, finish]
  rcases t.stop h with ⟨_ | _, t⟩ <;> rfl

theorem shutdownAmid_quiet : (t.shutdownAmid h {}).2 = t.shutdown h := by
  unfold shutdownAmid
  cases hprocess : t.client.process.isNone with
  | true =>
    rw [shutdown, hprocess]
    rfl
  | false => exact (finish_kill _ _).trans (handshake_quiet hprocess)

/-! ### What a call gives and does -/

/-- A call, made alone and with a record: what it gives, how it leaves the conversation, and what is done. -/
structure Does {α : Type} (alone : α × Conversation σ) (onRecord : List Act → α × Conversation (σ × List Act))
    (r : α) (after : Conversation σ) (acts : List Act) : Prop where
  alone : alone = (r, after)
  onRecord : ∀ before, onRecord before = (r, after.recorded (before ++ acts))

theorem Does.pure {α : Type} (r : α) (t : Conversation σ) :
    Does (r, t) (fun before => (r, t.recorded before)) r t [] :=
  ⟨rfl, fun before => by rw [List.append_nil]⟩

theorem Does.congr {α : Type} {alone alone' : α × Conversation σ}
    {onRecord onRecord' : List Act → α × Conversation (σ × List Act)} {r : α} {after : Conversation σ}
    {acts : List Act}
    (hcall : Does alone' onRecord' r after acts) (halone : alone = alone')
    (honRecord : ∀ before, onRecord before = onRecord' before) : Does alone onRecord r after acts :=
  ⟨halone.trans hcall.alone, fun before => (honRecord before).trans (hcall.onRecord before)⟩

/-- What follows a call on what it gives. -/
theorem Does.andThen {α β : Type} {alone : α × Conversation σ}
    {onRecord : List Act → α × Conversation (σ × List Act)} {r : α} {r' : β} {t' after : Conversation σ}
    {acts acts' : List Act} {k : α × Conversation σ → β × Conversation σ}
    {l : α × Conversation (σ × List Act) → β × Conversation (σ × List Act)} (hcall : Does alone onRecord r t' acts)
    (hnext : Does (k (r, t')) (fun before => l (r, t'.recorded before)) r' after acts') :
    Does (k alone) (fun before => l (onRecord before)) r' after (acts ++ acts') where
  alone := by
    rw [hcall.alone]
    exact hnext.alone
  onRecord before := by
    rw [hcall.onRecord before, ← List.append_assoc]
    exact hnext.onRecord (before ++ acts)

inductive Writes (h : Host σ) (t : Conversation σ) (m : Members) :
    Except ClientError Unit → Conversation σ → List Act → Prop
  | unable (none : ¬ t.client.HasInput) : Writes h t m (.error .notRunning) t []
  | unwritten {fault : WriteFault} {server : σ} (faulty : h.write m t.server = (.error fault, server)) :
    Writes h t m (.error (.notWritten fault)) { t with server } [.told m false]
  | written {inbound : Inbound} {server : σ} (able : t.client.HasInput)
    (sent : h.write m t.server = (.ok inbound, server)) :
    Writes h t m (.ok ()) ⟨t.client.receive inbound, server⟩ [.told m true]

theorem write_able (hable : t.client.HasInput) : t.write h m =
    match h.write m t.server with
    | (.error fault, server) => (.error (.notWritten fault), { t with server })
    | (.ok inbound, server) => (.ok (), ⟨t.client.receive inbound, server⟩) := by
  obtain ⟨output, hprocess⟩ := hable
  unfold write
  rewrite [hprocess]
  rfl

theorem write_unable (hunable : ¬ t.client.HasInput) : t.write h m = (.error .notRunning, t) := by
  unfold write
  split
  · rename_i output heq
    exact absurd ⟨output, heq⟩ hunable
  · rfl

theorem write_does : ∃ r t' acts,
    Does (t.write h m) (fun before => (t.recorded before).write h.recording m) r t' acts ∧
      Writes h t m r t' acts := by
  by_cases hable : t.client.HasInput
  · have halone := @write_able _ h t m hable
    have honRecord (before : List Act) := @write_able _ h.recording (t.recorded before) m hable
    dsimp only [recorded, Host.recording] at honRecord
    rcases hwrite : h.write m t.server with ⟨fault | inbound, server⟩
    · rw [hwrite] at halone honRecord
      exact ⟨_, _, _, ⟨halone, honRecord⟩, .unwritten hwrite⟩
    · rw [hwrite] at halone honRecord
      exact ⟨_, _, _, ⟨halone, honRecord⟩, .written hable hwrite⟩
  · exact ⟨_, _, _, (Does.pure _ t).congr (write_unable hable) fun before => write_unable hable, .unable hable⟩

/-- Sending a request while the reader goes on. -/
inductive Sends (h : Host σ) (w : Meanwhile) (t : Conversation σ) (m : Members) :
    Except ClientError Nat → Conversation σ → List Act → Prop
  | unsent {e : ClientError} {arrivals : List Inbound}
    (stopped : (t.client.register.2.hear w.registered).closed = true ∨ ¬ t.client.HasInput) :
    Sends h w t m (.error e) ⟨(t.client.register.2.hear arrivals).forget t.client.nextId, t.server⟩ []
  | unwritten {e : ClientError} {arrivals : List Inbound} {server : σ} :
    Sends h w t m (.error e) ⟨(t.client.register.2.hear arrivals).forget t.client.nextId, server⟩ [.told m false]
  | sent {inbound : Inbound} {t' : Conversation σ} (able : t.client.HasInput)
    (sent : h.write m t.server = (.ok inbound, t'.server))
    (client : t'.client = t.client.register.2.hear (w.registered ++ w.cleared ++ [inbound])) :
    Sends h w t m (.ok t.client.nextId) t' [.told m true]

theorem sendAmid_does : ∃ r t' acts,
    Does (t.sendAmid h w method params) (fun before => (t.recorded before).sendAmid h.recording w method params)
        r t' acts ∧
      Sends h w t (requestMessage t.client.nextId method params) r t' acts := by
  cases hclosed : (t.client.register.2.hear w.registered).closed with
  | true =>
    have hunsent := @Sends.unsent _ h w t (requestMessage t.client.nextId method params) .streamClosed
      (w.registered ++ w.failed) (.inl hclosed)
    rw [Client.hear_append] at hunsent
    exact ⟨_, _, _, (Does.pure _ _).congr (if_pos hclosed) fun before => if_pos hclosed, hunsent⟩
  | false =>
    have hopened : ¬ (t.client.register.2.hear w.registered).closed = true := Bool.eq_false_iff.mp hclosed
    have hprocess : ((t.client.register.2.hear w.registered).hear w.cleared).process = t.client.process :=
      (((Client.register_goesOn t.client).trans (Client.hear_keeps _ w.registered).toGoesOn).trans
        (Client.hear_keeps _ w.cleared).toGoesOn).process
    obtain ⟨r, t', acts, hdoes, hwrites⟩ := @write_does _ h
      ⟨(t.client.register.2.hear w.registered).hear w.cleared, t.server⟩
      (requestMessage t.client.nextId method params)
    have hthen {r' : Except ClientError Nat} {after : Conversation σ} {acts' : List Act}
        (hnext : Does (written w t.client.nextId (r, t'))
          (fun before => written w t.client.nextId (r, t'.recorded before)) r' after acts') :
        Does (t.sendAmid h w method params)
          (fun before => (t.recorded before).sendAmid h.recording w method params) r' after (acts ++ acts') :=
      (hdoes.andThen (k := written w _) (l := written w _) hnext).congr (if_neg hopened)
        fun before => if_neg hopened
    cases hwrites with
    | unable hunable =>
      have hunsent := @Sends.unsent _ h w t (requestMessage t.client.nextId method params) .notRunning
        (w.registered ++ w.cleared ++ w.failed)
        (.inr fun hable => hunable (hable.imp fun output => hprocess.trans))
      rw [Client.hear_append, Client.hear_append] at hunsent
      exact ⟨_, _, _, hthen (.pure _ _), hunsent⟩
    | @unwritten fault server _ =>
      have hunwritten := @Sends.unwritten _ h w t (requestMessage t.client.nextId method params)
        (.notWritten fault) (w.registered ++ w.cleared ++ w.failed) server
      rw [Client.hear_append, Client.hear_append] at hunwritten
      exact ⟨_, _, _, hthen (.pure _ _), hunwritten⟩
    | written hable hsent =>
      refine ⟨_, _, _, hthen (.pure _ _), .sent (hable.imp fun output => hprocess.symm.trans) hsent ?_⟩
      rw [Client.hear_append, Client.hear_append]
      rfl

theorem Sends.goesOn {r : Except ClientError Nat} {acts : List Act} (hsends : Sends h w t m r t' acts) :
    t.client.GoesOn t'.client := by
  have hregistered := Client.register_goesOn t.client
  cases hsends with
  | unsent => exact hregistered.trans ((Client.hear_keeps _ _).trans (Client.forget_keeps _ _)).toGoesOn
  | unwritten => exact hregistered.trans ((Client.hear_keeps _ _).trans (Client.forget_keeps _ _)).toGoesOn
  | sent _ _ hclient =>
    rw [hclient]
    exact hregistered.trans (Client.hear_keeps _ _).toGoesOn

theorem await_keeps (w : Meanwhile) (t : Conversation σ) (id : Nat) :
    t.client.Keeps (t.await w id method timeout).2.client := by
  unfold await
  split
  · exact .refl _
  · exact .refl _
  split
  · exact .refl _
  · exact (Client.hear_keeps _ w.failed).trans (Client.forget_keeps _ _)

/-- The server gets a request, and the first message to answer it, among what the client has by then and what
arrives, has no error or an empty one. -/
inductive AnsweredAmid (h : Host σ) (w : Meanwhile) (t : Conversation σ) (method : String) (params : Value) : Prop
  | intro {inbound : Inbound} {server : σ} {m : Members} (listening : t.client.listening = true)
    (able : t.client.HasInput)
    (sent : h.write (requestMessage t.client.nextId method params) t.server = (.ok inbound, server))
    (first : answerTo t.client.nextId (messagesIn (t.client.unread ++
      (Inbound.joined (w.registered ++ w.cleared ++ inbound :: w.waiting)).bytes)).1 = some m)
    (plain : ((Json.find? m "error").getD .null).isPresent = false)

/-- Asking for something while the reader goes on. -/
inductive Asks (h : Host σ) (w : Meanwhile) (t : Conversation σ) (method : String) (params : Value) :
    Except CallFailure Value → List Act → Prop
  | unsent {e : ClientError}
    (stopped : (t.client.register.2.hear w.registered).closed = true ∨ ¬ t.client.HasInput) :
    Asks h w t method params (.error (.client e)) []
  | unwritten {e : ClientError} :
    Asks h w t method params (.error (.client e)) [.told (requestMessage t.client.nextId method params) false]
  | refused {e : ClientError} (unanswered : ¬ AnsweredAmid h w t method params) :
    Asks h w t method params (.error (.client e)) [.told (requestMessage t.client.nextId method params) true]
  | granted {v : Value} (answered : AnsweredAmid h w t method params) :
    Asks h w t method params (.ok v) [.told (requestMessage t.client.nextId method params) true]

theorem answeredAmid_iff {inbound : Inbound} {server : σ} (hn : t.client.Numbered) (hable : t.client.HasInput)
    (hsent : h.write (requestMessage t.client.nextId method params) t.server = (.ok inbound, server)) :
    AnsweredAmid h w t method params ↔ ∃ v, (t.client.register.2.hear
      (w.registered ++ w.cleared ++ inbound :: w.waiting)).outcome t.client.nextId = .answered v := by
  rw [hn.open_register.hear_answered (by simp)]
  constructor
  · rintro ⟨hlistening, -, hsent', hfirst, hplain⟩
    rw [hsent] at hsent'
    cases hsent'
    exact ⟨hlistening, _, hfirst, hplain⟩
  · rintro ⟨hlistening, m, hfirst, hplain⟩
    exact ⟨hlistening, hable, hsent, hfirst, hplain⟩

theorem await_does (w : Meanwhile) (t : Conversation σ) (id : Nat) :
    Does (t.await w id method timeout) (fun before => (t.recorded before).await w id method timeout)
      (t.await w id method timeout).1 (t.await w id method timeout).2 [] := by
  refine ⟨rfl, ?_⟩
  intro before
  rw [List.append_nil]
  unfold await
  rw [show (t.recorded before).client = t.client from rfl]
  split
  · rfl
  · rfl
  split <;> rfl

/-- A request that is waited for is open no more. -/
theorem await_gone {id : Nat} (htracked : t.client.Tracked id) (hfinite : isEndless timeout = false) :
    id ∉ (t.await w id method timeout).2.client.pending := by
  unfold await
  split
  · rename_i result hresult
    exact htracked.gone (by rw [hresult]; nofun)
  · rename_i e hfailed
    exact htracked.gone (by rw [hfailed]; nofun)
  · rw [hfinite]
    exact Client.not_mem_forget _ id

theorem await_result {id : Nat} (hfinite : isEndless timeout = false) :
    (∃ v, t.client.outcome id = .answered v ∧ (t.await w id method timeout).1 = .ok v) ∨
      (¬ ∃ v, t.client.outcome id = .answered v) ∧ ∃ e, (t.await w id method timeout).1 = .error (.client e) := by
  unfold await
  cases t.client.outcome id with
  | answered v => exact .inl ⟨v, rfl, rfl⟩
  | failed e => exact .inr ⟨nofun, e, rfl⟩
  | waiting =>
    rw [hfinite]
    exact .inr ⟨nofun, _, rfl⟩

/-- A request that can be waited for has come to something, and is open no more. -/
theorem requestAmid_does (hn : t.client.Numbered) (hfinite : isEndless timeout = false) : ∃ r t' acts,
    Does (t.requestAmid h w method params timeout)
        (fun before => (t.recorded before).requestAmid h.recording w method params timeout) r t' acts ∧
      Asks h w t method params r acts ∧
      t.client.Keeps t'.client ∧ t.client.nextId ∉ t'.client.pending := by
  obtain ⟨r, t', acts, hdoes, hsends⟩ := @sendAmid_does _ h w t method params
  have hthen {r' : Except CallFailure Value} {after : Conversation σ} {acts' : List Act}
      (hnext : Does (sent w method timeout (r, t')) (fun before => sent w method timeout (r, t'.recorded before))
        r' after acts') :=
    hdoes.andThen (k := sent w method timeout) (l := sent w method timeout) hnext
  cases hsends with
  | unsent stopped => exact ⟨_, _, _, hthen (.pure _ _), .unsent stopped, Client.register_gone⟩
  | unwritten => exact ⟨_, _, _, hthen (.pure _ _), .unwritten, Client.register_gone⟩
  | @sent inbound _ hable hsent hclient =>
    -- All that the reader takes in from the request on decides it as if it had come at once.
    have hheard : (t'.hear w.waiting).client =
        t.client.register.2.hear (w.registered ++ w.cleared ++ inbound :: w.waiting) := by
      show t'.client.hear w.waiting = _
      rw [hclient, ← Client.hear_append, List.append_assoc _ [inbound], List.singleton_append]
    have hanswered := @answeredAmid_iff _ h w t method params inbound t'.server hn hable hsent
    rw [← hheard] at hanswered
    have htracked : (t'.hear w.waiting).client.Tracked t.client.nextId := by
      rw [hheard]
      exact Client.Tracked.hear (.inl hn.open_register)
    have hawaited := @await_does _ method timeout w (t'.hear w.waiting) t.client.nextId
    have hkeeps := @await_keeps _ method timeout w (t'.hear w.waiting) t.client.nextId
    have hgone := @await_gone _ w _ method timeout _ htracked hfinite
    have hresult := @await_result _ w (t'.hear w.waiting) method timeout t.client.nextId hfinite
    refine ⟨_, _, _, hthen hawaited, ?_, .of_register ?_ hgone, hgone⟩
    · rcases hresult with ⟨v, hv, hresult⟩ | ⟨hnone, e, hresult⟩
      · rw [hresult]
        exact .granted (hanswered.mpr ⟨v, hv⟩)
      · rw [hresult]
        exact .refused fun hcontra => hnone (hanswered.mp hcontra)
    · rw [hheard] at hkeeps
      exact (Client.hear_keeps _ _).trans hkeeps

/-! ### The handshake -/

/-- What is said before a process is ended: nothing where the stream is over or nothing can be said, and otherwise
a request to shut down, and where that was written and answered without an error, the order to exit. -/
inductive Handshake (h : Host σ) (w : Meanwhile) (t : Conversation σ) : List Act → Prop
  | silent (stopped : t.client.closed = true ∨
      ((t.hear w.looked).client.register.2.hear w.registered).closed = true ∨ ¬ t.client.HasInput) :
    Handshake h w t []
  | unwritten : Handshake h w t [.told (requestMessage t.client.nextId "shutdown" .null) false]
  | refused (unanswered : ¬ AnsweredAmid h w (t.hear w.looked) "shutdown" .null) :
    Handshake h w t [.told (requestMessage t.client.nextId "shutdown" .null) true]
  | granted (answered : AnsweredAmid h w (t.hear w.looked) "shutdown" .null) (written : Bool) :
    Handshake h w t [.told (requestMessage t.client.nextId "shutdown" .null) true,
      .told (noticeMessage "exit" .null) written]

/-- Seconds below a number whose nanoseconds are counted can be waited for. -/
theorem isEndless_of_isBelow {x : Binary64} {n : Int} (hx : x.isBelow n = true)
    (hn : n * 1000000000 ≤ uncountedNanoseconds) : isEndless x = false := by
  cases x with
  | nan => rfl
  | infinite negative => simpa [Binary64.isBelow, isEndless] using hx
  | finite negative m q =>
    simp only [Binary64.isBelow, Binary64.toQuotient?, decide_eq_true_eq] at hx
    simp only [isEndless, Binary64.toQuotient?, decide_eq_false_iff_not, not_le]
    calc _ < n * (Nat.pow 2 (-q).toNat : Nat) * 1000000000 := by gcongr
      _ = n * 1000000000 * (Nat.pow 2 (-q).toNat : Nat) := mul_right_comm _ _ _
      _ ≤ uncountedNanoseconds * (Nat.pow 2 (-q).toNat : Nat) := by gcongr

/-- Five seconds can be waited for. -/
theorem atMostFive_finite (timeout : Binary64) : isEndless (atMostFive timeout) = false := by
  unfold atMostFive
  split
  · rename_i hshort
    rcases Bool.or_eq_true_iff.mp hshort with hnan | hbelow
    · rw [beq_iff_eq.mp hnan]
      rfl
    · exact isEndless_of_isBelow hbelow (by decide)
  · decide

theorem Writes.keeps {r : Except ClientError Unit} {acts : List Act} (hwrites : Writes h t m r t' acts) :
    t.client.Keeps t'.client := by
  cases hwrites with
  | unable => exact .refl _
  | unwritten => exact .refl _
  | written => exact Client.receive_keeps _ _

theorem farewell_refused (e : ClientError) : Does (farewell h (.error (.client e), t))
    (fun before => farewell h.recording (.error (.client e), t.recorded before)) (.ok ())
    (t.remark (.shutdownFailed e)) [] := .pure _ _

theorem farewell_granted (v : Value) (hable : t.client.HasInput) : ∃ written t',
    Does (farewell h (.ok v, t)) (fun before => farewell h.recording (.ok v, t.recorded before)) (.ok ()) t'
        [.told (noticeMessage "exit" .null) written] ∧
      t.client.Keeps t'.client := by
  obtain ⟨r, t', acts, hdoes, hwrites⟩ := @write_does _ h t (noticeMessage "exit" .null)
  have hkeeps := hwrites.keeps
  cases hwrites with
  | unable hunable => exact absurd hable hunable
  | @unwritten fault server _ =>
    have htold := hdoes.andThen (k := toldToExit) (l := toldToExit) (.pure (Except.ok ()) _)
    exact ⟨false, _, htold, hkeeps.trans (Client.remark_keeps _ _)⟩
  | written =>
    have htold := hdoes.andThen (k := toldToExit) (l := toldToExit) (.pure (Except.ok ()) _)
    exact ⟨true, _, htold, hkeeps⟩

theorem handshake_does (hn : t.client.Numbered) : ∃ t' acts,
    Does (t.handshake h w) (fun before => (t.recorded before).handshake h.recording w) (.ok ()) t' acts ∧
      Handshake h w t acts ∧ t.client.Keeps t'.client ∧ t.client.nextId ∉ t'.client.pending := by
  cases hclosed : t.client.closed with
  | true =>
    exact ⟨t, [], (Does.pure _ t).congr (if_pos hclosed) fun before => if_pos hclosed,
      .silent (.inl hclosed), .refl _, fun hid => Nat.lt_irrefl _ (hn.pending _ hid)⟩
  | false =>
    have hlooked := Client.hear_keeps t.client w.looked
    have hnextId : (t.hear w.looked).client.nextId = t.client.nextId := Client.hear_nextId _ _
    have hinput : (t.hear w.looked).client.HasInput ↔ t.client.HasInput := by
      unfold Client.HasInput
      rw [show (t.hear w.looked).client.process = t.client.process from hlooked.process]
    obtain ⟨r, t', acts, hdoes, hasks, hkeeps, hgone⟩ := @requestAmid_does _ h w (t.hear w.looked) "shutdown" .null
      (atMostFive t.client.timeout) (hlooked.numbered hn) (atMostFive_finite _)
    rw [hnextId] at hgone
    have hopened : ¬ t.client.closed = true := Bool.eq_false_iff.mp hclosed
    -- Whatever comes of the request, what is done after it completes the handshake.
    have hthen {after : Conversation σ} {acts' : List Act}
        (hnext : Does (farewell h (r, t')) (fun before => farewell h.recording (r, t'.recorded before)) (.ok ())
          after acts') (hshake : Handshake h w t (acts ++ acts')) (hafter : t'.client.Keeps after.client) :
        ∃ t' acts,
          Does (t.handshake h w) (fun before => (t.recorded before).handshake h.recording w) (.ok ()) t' acts ∧
          Handshake h w t acts ∧ t.client.Keeps t'.client ∧ t.client.nextId ∉ t'.client.pending := by
      have hall := hdoes.andThen (k := farewell h) (l := farewell h.recording) hnext
      exact ⟨after, acts ++ acts', hall.congr (if_neg hopened) fun before => if_neg hopened, hshake,
        (hlooked.trans hkeeps).trans hafter, fun hid => hgone (hafter.pending hid)⟩
    cases hasks with
    | unsent stopped =>
      refine hthen (farewell_refused _) (.silent (.inr ?_)) (Client.remark_keeps _ _)
      exact stopped.imp_right fun hunable hable => hunable (hinput.mpr hable)
    | unwritten =>
      have hshake := @Handshake.unwritten _ h w t
      rw [← hnextId] at hshake
      exact hthen (farewell_refused _) hshake (Client.remark_keeps _ _)
    | refused unanswered =>
      have hshake := @Handshake.refused _ h w t unanswered
      rw [← hnextId] at hshake
      exact hthen (farewell_refused _) hshake (Client.remark_keeps _ _)
    | @granted v answered =>
      -- What was asked through a pipe can be told through it.
      have hable : t'.client.HasInput := by
        obtain ⟨-, hable, -, -, -⟩ := answered
        exact hable.imp fun output => hkeeps.process.trans
      obtain ⟨written, after, hnext, hafter⟩ := @farewell_granted _ h t' v hable
      have hshake := Handshake.granted answered written
      rw [← hnextId] at hshake
      exact hthen hnext hshake hafter

/-! ### The end of the process -/

/-- How a process is ended: its input is closed, and it has exited by then, or it is told to terminate, and killed
where it does not. -/
inductive Ending (h : Host σ) (input : Bool) (after : σ) : List Act → Prop
  | exited (exited : h.hasExited after = true) : Ending h input after (if input then [.closedInput] else [])
  | obeyed : Ending h input after ((if input then [.closedInput] else []) ++ [.terminated, .waited true])
  | killed :
    Ending h input after
      ((if input then [.closedInput] else []) ++ [.terminated, .waited false, .killed, .waited true])

theorem putDown_hears : ∃ arrivals, (t.putDown h).2.client = t.client.hear arrivals := by
  unfold putDown
  split
  · exact ⟨[], rfl⟩
  dsimp only
  split
  · exact ⟨[(h.terminate t.server).1], rfl⟩
  · rename_i server _
    exact ⟨[(h.terminate t.server).1, (h.kill server).1], rfl⟩

theorem stop_hears : ∃ arrivals, (t.stop h).2.client = t.client.hear arrivals := by
  unfold stop
  split
  · exact ⟨[], rfl⟩
  · exact putDown_hears

theorem putDown_does (hmortal : ∀ s, (h.wait (h.kill s).2).1 = true) : ∃ t' acts,
    Does (t.putDown h) (fun before => (t.recorded before).putDown h.recording) true t' acts ∧
      (acts = [] ∧ h.hasExited t'.server = true ∨ acts = [.terminated, .waited true] ∨
        acts = [.terminated, .waited false, .killed, .waited true]) := by
  cases hexited : h.hasExited t.server with
  | true =>
    exact ⟨t, [], (Does.pure _ t).congr (if_pos hexited) fun before => if_pos hexited, .inl ⟨rfl, hexited⟩⟩
  | false =>
    have hrunning : ¬ h.hasExited t.server = true := Bool.eq_false_iff.mp hexited
    rcases hwait : h.wait (h.terminate t.server).2 with ⟨_ | _, server⟩
    · refine ⟨⟨(t.client.receive (h.terminate t.server).1).receive (h.kill server).1,
        (h.wait (h.kill server).2).2⟩, _, ⟨?_, ?_⟩, .inr (.inr rfl)⟩
      · refine (if_neg hrunning).trans ?_
        dsimp only
        rw [hwait]
        dsimp only
        rw [hmortal server]
      · intro before
        refine (if_neg hrunning).trans ?_
        simp [recorded, Host.recording, hwait, hmortal server]
    · refine ⟨⟨t.client.receive (h.terminate t.server).1, server⟩, _, ⟨?_, ?_⟩, .inr (.inl rfl)⟩
      · refine (if_neg hrunning).trans ?_
        dsimp only
        rw [hwait]
      · intro before
        refine (if_neg hrunning).trans ?_
        simp [recorded, Host.recording, hwait]

theorem stop_does (hprocess : t.client.process = some pipes) (hmortal : ∀ s, (h.wait (h.kill s).2).1 = true) :
    ∃ t' acts, Does (t.stop h) (fun before => (t.recorded before).stop h.recording) true t' acts ∧
      Ending h pipes.input t'.server acts := by
  obtain ⟨t', acts, hdoes, hends⟩ := @putDown_does _ h
    { t with server := if pipes.input then h.closeInput t.server else t.server } hmortal
  refine ⟨t', (if pipes.input then [.closedInput] else []) ++ acts, ⟨?_, ?_⟩, ?_⟩
  · unfold stop
    rw [hprocess]
    exact hdoes.alone
  · intro before
    have hclosed : (if pipes.input then h.recording.closeInput (t.recorded before).server
          else (t.recorded before).server) =
        (if pipes.input then h.closeInput t.server else t.server,
          before ++ if pipes.input then [.closedInput] else []) := by
      cases pipes.input with
      | true => rfl
      | false => simp [recorded]
    unfold stop
    rw [show (t.recorded before).client.process = some pipes from hprocess, ← List.append_assoc]
    dsimp only
    rw [hclosed]
    exact hdoes.onRecord _
  · rcases hends with ⟨rfl, hexited⟩ | rfl | rfl
    · rw [List.append_nil]
      exact .exited hexited
    · exact .obeyed
    · exact .killed

theorem finish_does {after : Conversation σ} {acts : List Act} (r : Except PartingFailure Unit)
    (hstopped : Does (t.stop h) (fun before => (t.recorded before).stop h.recording) true after acts) :
    Does (finish h (r, t)) (fun before => finish h.recording (r, t.recorded before)) r after acts := by
  have hfinished := hstopped.andThen (k := stopped r) (l := stopped r) (.pure r after)
  rwa [List.append_nil] at hfinished

/-! ### Clients that were started -/

/-- The conversation of a client that has spawned its server, after anything that was done with the client and that
has arrived. -/
inductive Launched (h : Host σ) : Conversation σ → Prop
  | spawn {t : Conversation σ} {pipes : Pipes} {server : σ} (unused : t.client.Unused)
    (idle : t.client.pending = []) (spawned : h.spawn t.client.command t.server = (.ok pipes, server)) :
    Launched h ⟨{ t.client with process := some pipes, listening := pipes.input && pipes.output }, server⟩
  | send {t : Conversation σ} (w : Meanwhile) (method : String) (params : Value) (before : Launched h t) :
    Launched h (t.sendAmid h w method params).2
  | giveUp {t : Conversation σ} (id : Nat) (before : Launched h t) : Launched h (t.giveUp [] id)
  | notify {t : Conversation σ} (method : String) (params : Value) (before : Launched h t) :
    Launched h (t.notify h method params).2
  | arrive {t : Conversation σ} (inbound : Inbound) (server : σ) (before : Launched h t) :
    Launched h ⟨t.client.receive inbound, server⟩
  | note {t : Conversation σ} (notes : List Note) (before : Launched h t) :
    Launched h { t with client := { t.client with notes } }
  | announce {t : Conversation σ} (result : Members) (before : Launched h t) :
    Launched h { t with client := noteCapabilities t.client result }
  | shutdown {t : Conversation σ} (w : Meanwhile) (before : Launched h t) : Launched h (t.shutdownAmid h w).2
  | kill {t : Conversation σ} (before : Launched h t) : Launched h (t.kill h)

theorem write_keeps : t.client.Keeps (t.write h m).2.client := by
  obtain ⟨r, t', acts, hdoes, hwrites⟩ := @write_does _ h t m
  rw [hdoes.alone]
  exact hwrites.keeps

theorem sendAmid_goesOn : t.client.GoesOn (t.sendAmid h w method params).2.client := by
  obtain ⟨r, t', acts, hdoes, hsends⟩ := @sendAmid_does _ h w t method params
  rw [hdoes.alone]
  exact hsends.goesOn

theorem stop_keeps : t.client.Keeps (t.stop h).2.client := by
  obtain ⟨arrivals, hclient⟩ := @stop_hears _ h t
  rw [hclient]
  exact Client.hear_keeps _ _

theorem kill_keeps : t.client.Keeps (t.kill h).client := by
  rw [← stop_kill]
  exact stop_keeps

theorem shutdownAmid_keeps (hn : t.client.Numbered) : t.client.Keeps (t.shutdownAmid h w).2.client := by
  unfold shutdownAmid
  split
  · exact .refl _
  · obtain ⟨t', acts, hdoes, -, hkeeps, -⟩ := @handshake_does _ h w t hn
    rw [hdoes.alone, finish_kill]
    exact hkeeps.trans kill_keeps

theorem noteCapabilities_keeps (c : Client) (result : Members) : c.Keeps (noteCapabilities c result) := by
  refine (noteCapabilities_takes c result).keeps ?_
  unfold noteCapabilities
  split <;> exact List.Subset.refl _

theorem Launched.numbered (ht : Launched h t) : t.client.Numbered := by
  induction ht with
  | spawn unused idle =>
    constructor
    · simp [unused.outcomes]
    · simp [idle]
  | send w method params _ ih => exact sendAmid_goesOn.numbered ih
  | giveUp id _ ih => exact (Client.forget_keeps _ id).numbered ih
  | notify method params _ ih => exact write_keeps.numbered ih
  | arrive inbound server _ ih => exact (Client.receive_keeps _ inbound).numbered ih
  | note notes _ ih => exact ⟨ih.outcomes, ih.pending⟩
  | announce result _ ih => exact (noteCapabilities_keeps _ result).numbered ih
  | shutdown w _ ih => exact (shutdownAmid_keeps ih).numbered ih
  | kill _ ih => exact kill_keeps.numbered ih

/-- A request with its wait is one that is sent and may be given up. -/
theorem Launched.request (ht : Launched h t) : Launched h (t.request h method params timeout).2 := by
  have hsent := ht.send {} method params
  rw [sendAmid_quiet] at hsent
  unfold Conversation.request
  split
  · rename_i heq
    rwa [heq] at hsent
  · rename_i id t' heq
    rw [heq] at hsent
    split
    · exact hsent
    · exact hsent
    split
    · exact hsent
    · exact hsent.giveUp id

/-- A start is covered, whether it goes well or not. -/
theorem Launched.of_start {process : ProcessId} {rootUri : String} {server : σ} (hc : t.client.Unused)
    (hidle : t.client.pending = []) (hspawn : h.spawn t.client.command t.server = (.ok pipes, server)) :
    Launched h (t.start h process rootUri).2 := by
  have hspawned := Launched.spawn hc hidle hspawn
  unfold start
  rw [hspawn]
  dsimp only
  cases hpiped : pipes.input && pipes.output with
  | false =>
    rw [hpiped, ← hc.listening] at hspawned
    exact hspawned.kill
  | true =>
    rw [hpiped] at hspawned
    have hasked := @Launched.request _ h _ "initialize"
      (initializeParams { t.client with process := some pipes, listening := true } process rootUri)
      t.client.timeout hspawned
    rw [if_neg (by simp)]
    split
    · rename_i heq
      rwa [heq] at hasked
    · rename_i result asked heq
      rw [heq] at hasked
      have htold := (hasked.announce result).notify "initialized" (.object [])
      split <;> rename_i heq <;> rwa [heq] at htold
    · rename_i heq
      rwa [heq] at hasked

/-- A client that was started ends its conversation whatever the server does and whatever arrives in the
meantime, where a process ends that is killed. That the acts themselves come to an end is taken for granted: a
host's `write`, `terminate` and `kill` return, as functions do, so a pipe that stays full and a process that may
not be signalled are none of the cases here. The conversation fails with nothing; the server is told to exit only
where it answered the request to shut down without an error; that request is open no more, and no other is that
was not before; the process has no input any longer and has exited, or has been told to terminate. It may be
ended again. -/
theorem shutdown_ends (ht : Launched h t) (hprocess : t.client.process = some pipes)
    (hmortal : ∀ s, (h.wait (h.kill s).2).1 = true) :
    (t.shutdownAmid h {}).2 = t.shutdown h ∧
      ∀ w, ∃ after said ending,
        t.shutdownAmid h w = (.ok (), after) ∧
          (t.recorded []).shutdownAmid h.recording w = (.ok (), after.recorded (said ++ ending)) ∧
          Handshake h w t said ∧ Ending h pipes.input after.server ending ∧
          after.client.pending ⊆ t.client.pending ∧ t.client.nextId ∉ after.client.pending ∧
          Launched h after ∧ after.client.process = some pipes := by
  refine ⟨shutdownAmid_quiet, ?_⟩
  intro w
  obtain ⟨t', said, hshook, hsaid, hkeeps, hgone⟩ := @handshake_does _ h w t ht.numbered
  obtain ⟨after, ending, hstopped, hending⟩ := @stop_does _ h t' pipes (hkeeps.process.trans hprocess) hmortal
  have hall := hshook.andThen (k := finish h) (l := finish h.recording) (finish_does (.ok ()) hstopped)
  have hstop : t'.client.Keeps after.client := by
    have hstop := @stop_keeps _ h t'
    rwa [hstopped.alone] at hstop
  have hafter := hkeeps.trans hstop
  have hgoes : ¬ t.client.process.isNone = true := by simp [hprocess]
  have halone : t.shutdownAmid h w = (.ok (), after) := (if_neg hgoes).trans hall.alone
  have honRecord : (t.recorded []).shutdownAmid h.recording w = (.ok (), after.recorded (said ++ ending)) :=
    (if_neg hgoes).trans (hall.onRecord [])
  have hlaunched : Launched h after := by
    have hshut := ht.shutdown w
    rwa [halone] at hshut
  exact ⟨after, said, ending, halone, honRecord, hsaid, hending, hafter.pending,
    fun hid => hgone (hstop.pending hid), hlaunched, hafter.process.trans hprocess⟩

/-- A client that was started with a server that is silent on the request to shut down, cannot be told to exit and
does not terminate. -/
def beforeStubborn : Conversation ScriptedServer :=
  (start ScriptedServer.host ⟨{ command := ["server"] },
    { rules := [⟨"shutdown", [], none, ""⟩], broken := ["exit"], stubborn := true }⟩ 1 "file:///w").2

/-- The answer arrives late, with an empty error. -/
def lateAnswer : Meanwhile where
  waiting := [⟨frame (.object [("id", .int 2), ("error", .object [])]), false⟩]

theorem evaluated_beforeStubborn : beforeStubborn.client.process = some ⟨true, true⟩ ∧
    beforeStubborn.client.nextId = 2 ∧
    ((beforeStubborn.recorded []).shutdownAmid ScriptedServer.host.recording lateAnswer).2.server.2.map
        (fun | .told _ written => written | _ => true) =
      [true, false, true, true, true, true, true] := by
  decide +kernel

/-- The server is asked, told to exit in vain, and killed in the end. -/
theorem shutdown_ends_stubborn :
    Launched ScriptedServer.host beforeStubborn ∧ beforeStubborn.client.process = some ⟨true, true⟩ ∧
      (∀ s, (ScriptedServer.host.wait (ScriptedServer.host.kill s).2).1 = true) ∧
      ∃ after, beforeStubborn.shutdownAmid ScriptedServer.host lateAnswer = (.ok (), after) ∧
        (beforeStubborn.recorded []).shutdownAmid ScriptedServer.host.recording lateAnswer =
          (.ok (), after.recorded [.told (requestMessage 2 "shutdown" .null) true,
            .told (noticeMessage "exit" .null) false, .closedInput, .terminated, .waited false, .killed,
            .waited true]) ∧
        2 ∉ after.client.pending := by
  have hlaunched : Launched ScriptedServer.host beforeStubborn := .of_start ⟨rfl, rfl, rfl⟩ rfl rfl
  have hmortal (s : ScriptedServer) : (ScriptedServer.host.wait (ScriptedServer.host.kill s).2).1 = true :=
    Bool.or_true _
  obtain ⟨hprocess, hnextId, hwritten⟩ := evaluated_beforeStubborn
  obtain ⟨-, hends⟩ := shutdown_ends hlaunched hprocess hmortal
  obtain ⟨after, said, ending, halone, honRecord, hsaid, hending, -, hgone, -⟩ := hends lateAnswer
  rw [honRecord] at hwritten
  rw [hnextId] at hgone
  refine ⟨hlaunched, hprocess, hmortal, after, halone, ?_, hgone⟩
  rw [honRecord]
  -- Only a handshake in full and a process that is killed make up so many acts.
  cases hsaid with
  | granted answered written =>
    cases hending with
    | killed =>
      obtain rfl : written = false := by simpa [recorded] using hwritten
      rw [hnextId]
      rfl
    | exited => simp [recorded] at hwritten
    | obeyed => simp [recorded] at hwritten
  | silent => cases hending <;> simp [recorded] at hwritten
  | unwritten => cases hending <;> simp [recorded] at hwritten
  | refused => cases hending <;> simp [recorded] at hwritten

end Conversation

end Highlighter.Protocol

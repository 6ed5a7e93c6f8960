import Highlighter.Proofs.Protocol.StreamEnd
import Highlighter.Protocol.Conversation

/-! Calls made one after another. What a message, the end of the stream, arriving bytes and a whole call do to
a client are steps of callers and of the reader, one after another, so that what holds of those in any order
holds of a conversation. -/

namespace Highlighter.Protocol

open Highlighter.Decimal (Binary64)
open Highlighter.Json (Members Value)

/-- Some steps lead there. -/
def Leads (x y : Exchange) : Prop := ∃ as, Runs x as y

/-- A client whose reader waits for bytes, or is through. -/
def Client.atRest (c : Client) (phase : Nat → Phase) : Exchange :=
  ⟨c, phase, if c.closed then .failing [] else .reading⟩

/-- A client that takes bytes in did not see the end of the stream. -/
def Client.Attentive (c : Client) : Prop := c.listening = true → c.closed = false

section
variable {x y z : Exchange} {a : Action} {c d : Client} {phase : Nat → Phase} {m : Members} {ids : List Nat}

theorem Leads.refl : Leads x x := ⟨[], .nil⟩

theorem Leads.trans (h : Leads x y) (h' : Leads y z) : Leads x z := by
  obtain ⟨as, h⟩ := h
  obtain ⟨bs, h'⟩ := h'
  exact ⟨as ++ bs, h.trans h'⟩

theorem Step.leads (h : Step x a y) : Leads x y := ⟨[a], Runs.nil.snoc h⟩

theorem dispatch_leads : Leads ⟨c, phase, .reading⟩ ⟨c.dispatch m, phase, .reading⟩ := by
  by_cases hanswer : ∃ id ∈ c.pending, answers m id = true
  · obtain ⟨id, hid, hanswer⟩ := hanswer
    rw [dispatch_answer hanswer hid]
    exact (Step.answer rfl hanswer hid).leads.trans (Step.finish rfl).leads
  · refine (Step.ignore rfl fun id hid => ?_).leads
    exact Bool.eq_false_iff.mpr fun hcontra => hanswer ⟨id, hid, hcontra⟩

/-- Requests that are failed one after another. -/
def Client.failAll (c : Client) (ids : List Nat) : Client :=
  ids.foldl (fun c id => c.settle id (.failed .streamClosed)) c

theorem failAll_leads : Leads ⟨c, phase, .failing ids⟩ ⟨c.failAll ids, phase, .failing []⟩ := by
  induction ids generalizing c with
  | nil => exact .refl
  | cons id ids ih => exact (Step.fail rfl).leads.trans ih

theorem failAll_nextId : (c.failAll ids).nextId = c.nextId := by
  induction ids generalizing c with
  | nil => rfl
  | cons id ids ih => exact ih

theorem failAll_pending : (c.failAll ids).pending = c.pending := by
  induction ids generalizing c with
  | nil => rfl
  | cons id ids ih => exact ih

theorem failAll_closed : (c.failAll ids).closed = c.closed := by
  induction ids generalizing c with
  | nil => rfl
  | cons id ids ih => exact ih

theorem failAll_outcomes (h : c.outcomes = d.outcomes) : (c.failAll ids).outcomes = (d.failAll ids).outcomes := by
  induction ids generalizing c d with
  | nil => exact h
  | cons id ids ih => exact ih (by simp [Client.settle, h])

theorem close_same (c : Client) :
    SameRequests c.close ({ c with closed := true, pending := [] }.failAll c.pending) := by
  have hmarked := @failAll_closed { c with closed := true, pending := [] } c.pending
  have hpending := @failAll_pending { c with closed := true, pending := [] } c.pending
  have hnextId := @failAll_nextId { c with closed := true, pending := [] } c.pending
  have houtcomes := @failAll_outcomes c { c with closed := true, pending := [] } c.pending rfl
  exact ⟨failAll_nextId.trans hnextId.symm, hpending.symm, houtcomes, hmarked.symm⟩

theorem close_leads : Leads ⟨c, phase, .reading⟩ ⟨c.close, phase, .failing []⟩ :=
  (Step.shut rfl).leads.trans
    ((Step.drain rfl).leads.trans (failAll_leads.trans (Step.aside (close_same c)).leads))

theorem dispatch_closed : (c.dispatch m).closed = c.closed := by
  unfold Client.dispatch
  split
  · rfl
  split
  · rfl
  split <;> rfl

theorem atRest_reading (hc : c.closed = false) : c.atRest phase = ⟨c, phase, .reading⟩ := by
  simp [Client.atRest, hc]

/-- What is not about requests changes at any time. -/
theorem aside_leads {r : Reader} (h : SameRequests d c) : Leads ⟨c, phase, r⟩ ⟨d, phase, r⟩ :=
  (Step.aside h).leads

/-- What has arrived is used by steps of the reader. -/
theorem useFrames_leads {fuel : Nat} (hc : c.closed = false) :
    Leads ⟨c, phase, .reading⟩ ((Client.useFrames fuel c).atRest phase) ∧
      (Client.useFrames fuel c).Attentive := by
  induction fuel generalizing c with
  | zero => exact ⟨atRest_reading hc ▸ .refl, fun _ => hc⟩
  | succ fuel ih =>
    unfold Client.useFrames
    split
    · exact ⟨atRest_reading hc ▸ .refl, fun _ => hc⟩
    · rename_i members s _
      have hc : ({ c with unread := s.unread }.dispatch members).closed = false := by rwa [dispatch_closed]
      obtain ⟨hrest, hattentive⟩ := ih hc
      refine ⟨Leads.trans ?_ (dispatch_leads.trans hrest), hattentive⟩
      exact aside_leads ⟨rfl, rfl, rfl, rfl⟩
    · rename_i e s _
      obtain ⟨hrest, hattentive⟩ := ih (c := { c with unread := s.unread }.remark (.unusable e)) hc
      refine ⟨Leads.trans ?_ hrest, hattentive⟩
      exact aside_leads ⟨rfl, rfl, rfl, rfl⟩
    · refine ⟨Leads.trans ?_ close_leads, nofun⟩
      exact aside_leads ⟨rfl, rfl, rfl, rfl⟩
    · exact ⟨close_leads, nofun⟩

/-- Bytes that arrive, and the end of the stream, are taken in by steps of the reader. -/
theorem receive_leads {inbound : Inbound} (hc : c.Attentive) :
    Leads (c.atRest phase) ((c.receive inbound).atRest phase) ∧ (c.receive inbound).Attentive := by
  unfold Client.receive
  split
  · exact ⟨.refl, hc⟩
  rename_i hlistening
  have hopened : c.closed = false := hc (by simpa using hlistening)
  obtain ⟨hused, hattentive⟩ := @useFrames_leads { c with unread := c.unread ++ inbound.bytes } phase
    ((c.unread ++ inbound.bytes).length + 1) hopened
  have harrived : Leads ⟨c, phase, .reading⟩ ⟨{ c with unread := c.unread ++ inbound.bytes }, phase, .reading⟩ :=
    aside_leads ⟨rfl, rfl, rfl, rfl⟩
  rw [atRest_reading hopened]
  dsimp only
  split
  · rename_i hends
    rw [atRest_reading (hattentive (Bool.and_eq_true_iff.mp hends).2)] at hused
    exact ⟨harrived.trans (hused.trans close_leads), nofun⟩
  · exact ⟨harrived.trans hused, hattentive⟩

theorem enter_atRest {id : Nat} {p q : Phase} :
    (c.atRest (Function.update phase id p)).enter id q = c.atRest (Function.update phase id q) := by
  simp [Client.atRest, Exchange.enter]

/-- A step of a call alone. -/
theorem move_leads {id : Nat} {p q : Phase}
    (h : ∀ x : Exchange, x.client = c → x.phase id = p → ∃ a, Step x a (x.enter id q)) :
    Leads (c.atRest (Function.update phase id p)) (c.atRest (Function.update phase id q)) := by
  obtain ⟨a, hstep⟩ := h (c.atRest (Function.update phase id p)) rfl (Function.update_self ..)
  rw [enter_atRest] at hstep
  exact hstep.leads

/-- A step by which a call takes its request out. -/
theorem takeOut_leads {id : Nat} {p q : Phase}
    (h : ∀ x : Exchange, x.phase id = p → ∃ a, Step x a ({ x with client := x.client.forget id }.enter id q)) :
    Leads (c.atRest (Function.update phase id p)) ((c.forget id).atRest (Function.update phase id q)) := by
  obtain ⟨a, hstep⟩ := h (c.atRest (Function.update phase id p)) (Function.update_self ..)
  have hleads : Leads (c.atRest (Function.update phase id p))
      (((c.forget id).atRest (Function.update phase id p)).enter id q) := hstep.leads
  rwa [enter_atRest] at hleads

end

namespace Conversation

variable {σ : Type} {h : Host σ} {t t' : Conversation σ} {m : Members} {method : String} {params : Value}
  {timeout : Binary64} {phase : Nat → Phase}

/-- A message that cannot be written changes nothing for the client; otherwise it takes in what is sent back. -/
theorem write_client :
    (∃ e t', t.write h m = (.error e, t') ∧ t'.client = t.client) ∨
      ∃ inbound t', t.write h m = (.ok (), t') ∧ t'.client = t.client.receive inbound := by
  unfold write
  split
  · split
    · exact .inl ⟨_, _, rfl, rfl⟩
    · exact .inr ⟨_, _, rfl, rfl⟩
  · exact .inl ⟨_, _, rfl, rfl⟩

/-- What a request comes to when it is sent. -/
theorem send_leads (ht : t.client.Attentive) :
    (∃ e t', t.send h method params = (.error e, t') ∧ t'.client.Attentive ∧ Leads (t.client.atRest phase)
        (t'.client.atRest (Function.update phase t.client.nextId .raised))) ∨
      ∃ t', t.send h method params = (.ok t.client.nextId, t') ∧ t'.client.Attentive ∧
        Leads (t.client.atRest phase)
          (t'.client.atRest (Function.update phase t.client.nextId .returned)) := by
  have hissue : Leads (t.client.atRest phase)
      (t.client.register.2.atRest (Function.update phase t.client.nextId .registered)) := Step.issue.leads
  have hcleared (hopened : t.client.register.2.closed = false) := hissue.trans
    (move_leads fun x hx hphase => ⟨_, .clear hphase (hx ▸ hopened)⟩)
  unfold send
  dsimp only
  split
  · rename_i hclosed
    refine .inl ⟨_, _, rfl, ht, hissue.trans (Leads.trans (move_leads fun x hx hphase => ?_)
      (takeOut_leads fun x hphase => ⟨_, .withdraw (.inl hphase)⟩))⟩
    exact ⟨_, .refuse hphase (hx ▸ hclosed)⟩
  · rename_i hopened
    have hcleared := hcleared (Bool.eq_false_iff.mpr hopened)
    obtain ⟨e, t', hwrite, hclient⟩ | ⟨inbound, t', hwrite, hclient⟩ :=
      @write_client _ h { t with client := t.client.register.2 } (requestMessage t.client.register.1 method params)
    · rw [hwrite]
      refine .inl ⟨_, _, rfl, ?_, ?_⟩
      · rw [hclient]
        exact ht
      · rw [hclient]
        exact hcleared.trans (Leads.trans (move_leads fun x _ hphase => ⟨_, .failWrite hphase⟩)
          (takeOut_leads fun x hphase => ⟨_, .withdraw (.inr hphase)⟩))
    · rw [hwrite]
      obtain ⟨hreceived, hattentive⟩ := @receive_leads t.client.register.2
        (Function.update phase t.client.nextId .written) inbound ht
      refine .inr ⟨_, rfl, ?_, ?_⟩
      · rw [hclient]
        exact hattentive
      · rw [hclient]
        exact hcleared.trans (Leads.trans (move_leads fun x _ hphase => ⟨_, .write hphase⟩)
          (hreceived.trans (move_leads fun x _ hphase => ⟨_, .handOver hphase⟩)))

/-- A request with its wait: at the end the call has raised, was handed its request and got its outcome or
waits without end, or has given it up; the other calls are where they were. -/
theorem request_leads (ht : t.client.Attentive) :
    (t.request h method params timeout).2.client.Attentive ∧
      ∃ p, (p = .raised ∨ p = .returned ∨ p = .abandoned) ∧ Leads (t.client.atRest phase)
        ((t.request h method params timeout).2.client.atRest (Function.update phase t.client.nextId p)) := by
  unfold request
  obtain ⟨e, t', hsend, hattentive, hleads⟩ | ⟨t', hsend, hattentive, hleads⟩ :=
    @send_leads _ h t method params phase ht
  · rw [hsend]
    exact ⟨hattentive, .raised, .inl rfl, hleads⟩
  · rw [hsend]
    dsimp only
    split
    · exact ⟨hattentive, .returned, .inr (.inl rfl), hleads⟩
    · exact ⟨hattentive, .returned, .inr (.inl rfl), hleads⟩
    split
    · exact ⟨hattentive, .returned, .inr (.inl rfl), hleads⟩
    · exact ⟨hattentive, .abandoned, .inr (.inr rfl), hleads.trans (Leads.trans
        (move_leads fun x _ hphase => ⟨_, .expire hphase⟩) (takeOut_leads fun x hphase => ⟨_, .giveUp hphase⟩))⟩

/-- What a caller does with a server: it asks, and waits for some time, or tells. -/
inductive Call where
  | request (method : String) (params : Value) (timeout : Binary64)
  | notify (method : String) (params : Value)

def call (h : Host σ) (t : Conversation σ) : Call → Conversation σ
  | .request method params timeout => (t.request h method params timeout).2
  | .notify method params => (t.notify h method params).2

end Conversation

end Highlighter.Protocol

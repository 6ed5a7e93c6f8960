import Highlighter.Proofs.Protocol.Calling
import Highlighter.Proofs.Protocol.Receiving

/-! What becomes of an open request is told by the messages that arrive: the first one that answers it decides,
whatever stands before and after it, and in whatever pieces they come; without one the request fails with the end
of the stream, or stays open. -/

namespace Highlighter.Protocol

open Highlighter.Json (Members)
open Highlighter.Text (Bytes)

/-- The messages at the front of bytes, and whether a frame that ends the reading stands after them. The fuel is
more than the number of bytes. -/
def messagesFrom : Nat → Bytes → List Members × Bool
  | 0, _ => ([], false)
  | fuel + 1, bs =>
    match frameOf bs with
    | (.ended, _) => ([], false)
    | (.message members, rest) => (members :: (messagesFrom fuel rest).1, (messagesFrom fuel rest).2)
    | (.unusable _, rest) => messagesFrom fuel rest
    | (.hugeInteger _, _) | (.oversized, _) => ([], true)

def messagesIn (bs : Bytes) : List Members × Bool := messagesFrom (bs.length + 1) bs

/-- The message that answers a request: the first of those that do. -/
def answerTo (id : Nat) (messages : List Members) : Option Members := messages.find? (answers · id)

/-- What a request comes to with messages, after which the stream ends or does not. -/
def outcomeAmong (messages : List Members) (ends : Bool) (id : Nat) : Outcome :=
  match answerTo id messages with
  | some m => Client.outcomeOf m
  | none => if ends then .failed .streamClosed else .waiting

namespace Client

/-- A request that waits for its answer. -/
structure Open (c : Client) (id : Nat) : Prop where
  pending : id ∈ c.pending
  known : id ∈ c.outcomes.map (·.1)
  waiting : c.outcome id = .waiting

/-- A request that is open no more, with what it has come to. -/
structure Settled (c : Client) (id : Nat) (o : Outcome) : Prop where
  gone : id ∉ c.pending
  outcome : c.outcome id = o

section
variable {c : Client} {id : Nat} {m : Members} {o : Outcome} {bs : Bytes} {fuel : Nat} {inbound : Inbound}

/-! ### One message -/

theorem Settled.dispatch (h : c.Settled id o) : (c.dispatch m).Settled id o := by
  by_cases hanswer : ∃ i ∈ c.pending, answers m i = true
  · obtain ⟨i, hi, hanswer⟩ := hanswer
    have hne : id ≠ i := fun heq => h.gone (heq ▸ hi)
    rw [dispatch_answer hanswer hi]
    exact ⟨fun hid => h.gone ((mem_forget id).mp hid).1, (outcome_settle_other hne).trans h.outcome⟩
  · have hsame := dispatch_strange (c := c) (m := m) fun i hi =>
      Bool.eq_false_iff.mpr fun hcontra => hanswer ⟨i, hi, hcontra⟩
    refine ⟨hsame.pending ▸ h.gone, ?_⟩
    rw [Client.outcome, hsame.outcomes]
    exact h.outcome

/-- The answer settles the request. -/
theorem Open.answered (h : c.Open id) (hm : answers m id = true) : (c.dispatch m).Settled id (outcomeOf m) := by
  rw [dispatch_answer hm h.pending]
  refine ⟨fun hid => ((mem_forget id).mp hid).2 rfl, outcome_settle_self ?_⟩
  exact h.known

/-- Other messages leave it open. -/
theorem Open.dispatch (h : c.Open id) (hm : answers m id = false) : (c.dispatch m).Open id := by
  by_cases hanswer : ∃ i ∈ c.pending, answers m i = true
  · obtain ⟨i, hi, hanswer⟩ := hanswer
    have hne : id ≠ i := fun heq => by
      rw [heq, hanswer] at hm
      cases hm
    rw [dispatch_answer hanswer hi]
    exact
      { pending := (mem_forget id).mpr ⟨h.pending, hne⟩
        known := by rw [settle_known]; exact h.known
        waiting := (outcome_settle_other hne).trans h.waiting }
  · have hsame := dispatch_strange (c := c) (m := m) fun i hi =>
      Bool.eq_false_iff.mpr fun hcontra => hanswer ⟨i, hi, hcontra⟩
    exact
      { pending := hsame.pending ▸ h.pending
        known := hsame.outcomes ▸ h.known
        waiting := by rw [outcome, hsame.outcomes]; exact h.waiting }

/-! ### The end of the stream -/

theorem failAll_other {ids : List Nat} (hid : id ∉ ids) : (c.failAll ids).outcome id = c.outcome id := by
  induction ids generalizing c with
  | nil => rfl
  | cons i ids ih =>
    rw [List.mem_cons, not_or] at hid
    have hrest : (c.failAll (i :: ids)).outcome id = (c.settle i (.failed .streamClosed)).outcome id := ih hid.2
    rw [hrest, outcome_settle_other hid.1]

/-- A request that is still to be failed, or was failed before, is failed. -/
theorem failAll_outcome {ids : List Nat} (hknown : id ∈ c.outcomes.map (·.1))
    (hid : id ∈ ids ∨ c.outcome id = .failed .streamClosed) :
    (c.failAll ids).outcome id = .failed .streamClosed := by
  induction ids generalizing c with
  | nil => exact hid.resolve_left List.not_mem_nil
  | cons i ids ih =>
    refine @ih (c.settle i (.failed .streamClosed)) (by rwa [settle_known]) ?_
    by_cases heq : id = i
    · exact .inr (heq ▸ outcome_settle_self hknown)
    · rw [outcome_settle_other heq]
      exact hid.imp_left fun hmem => (List.mem_cons.mp hmem).resolve_left heq

theorem close_outcome (c : Client) (id : Nat) : c.close.outcome id = (c.failAll c.pending).outcome id := rfl

theorem Settled.close (h : c.Settled id o) : c.close.Settled id o where
  gone := List.not_mem_nil
  outcome := by
    rw [close_outcome, failAll_other h.gone]
    exact h.outcome

theorem Open.close (h : c.Open id) : c.close.Settled id (.failed .streamClosed) where
  gone := List.not_mem_nil
  outcome := by
    rw [close_outcome]
    exact failAll_outcome h.known (.inl h.pending)

/-! ### Bytes that arrive -/

theorem Open.withUnread (h : c.Open id) (bs : Bytes) : (c.withUnread bs).Open id := ⟨h.pending, h.known, h.waiting⟩

theorem Settled.withUnread (h : c.Settled id o) (bs : Bytes) : (c.withUnread bs).Settled id o :=
  ⟨h.gone, h.outcome⟩

theorem Open.remark (h : c.Open id) (n : Note) : (c.remark n).Open id := ⟨h.pending, h.known, h.waiting⟩

theorem Settled.remark (h : c.Settled id o) (n : Note) : (c.remark n).Settled id o := ⟨h.gone, h.outcome⟩

theorem Settled.useFrames (h : c.Settled id o) : (useFrames fuel c).Settled id o := by
  induction fuel generalizing c with
  | zero => exact h
  | succ fuel ih =>
    rw [useFrames_succ]
    split
    · exact h
    · exact ih (h.withUnread _).dispatch
    · exact ih ((h.withUnread _).remark _)
    · exact (h.remark _).close
    · exact h.close

/-- The frames that are there settle an open request by the first answer to it among them, or where the reading
ends with them; otherwise it stays open. -/
theorem Open.useFrames (h : c.Open id) :
    match answerTo id (messagesFrom fuel c.unread).1 with
    | some m => (useFrames fuel c).Settled id (outcomeOf m)
    | none =>
      if (messagesFrom fuel c.unread).2 then (useFrames fuel c).Settled id (.failed .streamClosed)
      else (useFrames fuel c).Open id := by
  induction fuel generalizing c with
  | zero => exact h
  | succ fuel ih =>
    rw [useFrames_succ, messagesFrom]
    generalize frameOf c.unread = found
    obtain ⟨arrival, rest⟩ := found
    cases arrival with
    | ended => exact h
    | unusable e => exact ih ((h.withUnread rest).remark (.unusable e))
    | hugeInteger digits => exact (h.remark (.unreadable (.hugeInteger digits))).close
    | oversized => exact h.close
    | message members =>
      cases hanswers : answers members id with
      | true =>
        simp only [answerTo, List.find?_cons, hanswers]
        exact ((h.withUnread rest).answered hanswers).useFrames
      | false =>
        have hrest := ih ((h.withUnread rest).dispatch hanswers)
        rw [dispatch_unread, withUnread_unread] at hrest
        simp only [answerTo, List.find?_cons, hanswers] at hrest ⊢
        exact hrest

theorem listening_useFrames (hc : c.listening = true) :
    (useFrames fuel c).listening = !(messagesFrom fuel c.unread).2 := by
  induction fuel generalizing c with
  | zero => exact hc
  | succ fuel ih =>
    rw [useFrames_succ, messagesFrom]
    generalize frameOf c.unread = found
    obtain ⟨arrival, rest⟩ := found
    cases arrival with
    | ended => exact hc
    | unusable e => exact @ih ((c.withUnread rest).remark (.unusable e)) hc
    | hugeInteger digits => rfl
    | oversized => rfl
    | message members =>
      have hrest := @ih ((c.withUnread rest).dispatch members) ((dispatch_listening members).trans hc)
      rwa [dispatch_unread, withUnread_unread] at hrest

/-- What a server sends decides an open request. -/
theorem Open.receive (h : c.Open id) (hc : c.listening = true) : (c.receive inbound).outcome id =
    outcomeAmong (messagesIn (c.unread ++ inbound.bytes)).1
      ((messagesIn (c.unread ++ inbound.bytes)).2 || inbound.ends) id := by
  have hused := @Open.useFrames _ _ ((c.unread ++ inbound.bytes).length + 1)
    (h.withUnread (c.unread ++ inbound.bytes))
  have hlistening := @listening_useFrames (c.withUnread (c.unread ++ inbound.bytes))
    ((c.unread ++ inbound.bytes).length + 1) hc
  rw [receive_eq hc, use]
  rw [withUnread_unread] at hused hlistening ⊢
  rw [outcomeAmong, messagesIn]
  generalize messagesFrom _ (c.unread ++ inbound.bytes) = found at hused hlistening ⊢
  generalize Client.useFrames _ _ = used at hused hlistening ⊢
  rw [hlistening]
  split at hused
  · split
    · exact hused.close.outcome
    · exact hused.outcome
  · cases hstopped : found.2 with
    | true =>
      rw [if_pos hstopped] at hused
      simpa using hused.outcome
    | false =>
      rw [if_neg (by simp [hstopped])] at hused
      cases hends : inbound.ends with
      | true => simpa using hused.close.outcome
      | false => simpa using hused.waiting

end

/-! ### What a client keeps -/

/-- The numbers of the requests that were made lie below the next one, and a client listens up to the end of the
stream. -/
structure Sound (c : Client) : Prop where
  numbers : ∀ i ∈ c.outcomes.map (·.1), i < c.nextId
  listening : c.listening = !c.closed

/-- A client that has not been used. -/
structure Unused (c : Client) : Prop where
  outcomes : c.outcomes = []
  listening : c.listening = false
  closed : c.closed = false

/-- What a client keeps while it takes bytes in. -/
structure Takes (c after : Client) : Prop where
  process : after.process = c.process
  timeout : after.timeout = c.timeout
  nextId : after.nextId = c.nextId
  numbers : after.outcomes.map (·.1) = c.outcomes.map (·.1)
  listening : c.listening = (!c.closed) → after.listening = !after.closed

section
variable {c after last : Client} {m : Members} {fuel : Nat}

theorem Takes.refl (c : Client) : c.Takes c := ⟨rfl, rfl, rfl, rfl, id⟩

theorem Takes.trans (h : c.Takes after) (h' : after.Takes last) : c.Takes last where
  process := h'.process.trans h.process
  timeout := h'.timeout.trans h.timeout
  nextId := h'.nextId.trans h.nextId
  numbers := h'.numbers.trans h.numbers
  listening := h'.listening ∘ h.listening

theorem withUnread_takes (c : Client) (bs : Bytes) : c.Takes (c.withUnread bs) := ⟨rfl, rfl, rfl, rfl, id⟩

theorem remark_takes (c : Client) (n : Note) : c.Takes (c.remark n) := ⟨rfl, rfl, rfl, rfl, id⟩

theorem forget_takes (c : Client) (id : Nat) : c.Takes (c.forget id) := ⟨rfl, rfl, rfl, rfl, fun h => h⟩

theorem settle_takes (c : Client) (id : Nat) (o : Outcome) : c.Takes (c.settle id o) :=
  ⟨rfl, rfl, rfl, settle_known id o, fun h => h⟩

theorem dispatch_takes (c : Client) (m : Members) : c.Takes (c.dispatch m) := by
  unfold dispatch
  split
  · exact remark_takes c _
  split
  · exact .refl c
  split
  · exact (forget_takes c _).trans (settle_takes _ _ _)
  · exact .refl c

theorem failAll_takes (c : Client) (ids : List Nat) : c.Takes (c.failAll ids) := by
  induction ids generalizing c with
  | nil => exact .refl c
  | cons i ids ih => exact (settle_takes c i _).trans (ih _)

theorem close_takes (c : Client) : c.Takes c.close where
  process := (failAll_takes c c.pending).process
  timeout := (failAll_takes c c.pending).timeout
  nextId := (failAll_takes c c.pending).nextId
  numbers := (failAll_takes c c.pending).numbers
  listening _ := rfl

theorem useFrames_takes (c : Client) : c.Takes (useFrames fuel c) := by
  induction fuel generalizing c with
  | zero => exact .refl c
  | succ fuel ih =>
    rw [useFrames_succ]
    split
    · exact .refl c
    · exact ((withUnread_takes c _).trans (dispatch_takes _ _)).trans (ih _)
    · exact ((withUnread_takes c _).trans (remark_takes _ _)).trans (ih _)
    · exact (remark_takes c _).trans (close_takes _)
    · exact close_takes _

theorem receive_takes (c : Client) (inbound : Inbound) : c.Takes (c.receive inbound) := by
  cases hc : c.listening with
  | false =>
    rw [receive_of_not_listening hc]
    exact .refl c
  | true =>
    have hused : c.Takes (c.withUnread (c.unread ++ inbound.bytes)).use :=
      (withUnread_takes c _).trans (useFrames_takes _)
    rw [receive_eq hc]
    split
    · exact hused.trans (close_takes _)
    · exact hused

theorem Sound.takes (h : c.Sound) (ht : c.Takes after) : after.Sound where
  numbers := by
    rw [ht.numbers, ht.nextId]
    exact h.numbers
  listening := ht.listening h.listening

theorem register_numbers (h : ∀ i ∈ c.outcomes.map (·.1), i < c.nextId) :
    ∀ i ∈ c.register.2.outcomes.map (·.1), i < c.register.2.nextId := by
  intro i hi
  have hnumbers : c.register.2.outcomes.map (·.1) = c.outcomes.map (·.1) ++ [c.nextId] := List.map_append
  rw [hnumbers, List.mem_append, List.mem_singleton] at hi
  rcases hi with hi | rfl
  · exact (h i hi).trans (Nat.lt_succ_self _)
  · exact Nat.lt_succ_self _

theorem Sound.register (h : c.Sound) : c.register.2.Sound where
  numbers := register_numbers h.numbers
  listening := h.listening

/-- A new request is open. -/
theorem open_register (h : c.nextId ∉ c.outcomes.map (·.1)) : c.register.2.Open c.nextId where
  pending := List.mem_append_right _ (List.mem_singleton_self _)
  known := by
    rw [Client.register, List.map_append]
    exact List.mem_append_right _ (List.mem_singleton_self _)
  waiting := by
    rw [outcome_register, outcome]
    cases hlookup : c.outcomes.lookup c.nextId with
    | none => rfl
    | some o =>
      obtain ⟨before, after, hsplit, -⟩ := List.lookup_eq_some_iff.mp hlookup
      refine absurd ?_ h
      simp [hsplit]

theorem Sound.open_register (h : c.Sound) : c.register.2.Open c.nextId :=
  Client.open_register fun hid => Nat.lt_irrefl _ (h.numbers _ hid)

theorem Unused.sound (h : c.Unused) (pipes : Pipes) :
    { c with process := some pipes, listening := true }.Sound where
  numbers i hi := by
    have hnone : i ∈ c.outcomes.map (·.1) := hi
    rw [h.outcomes] at hnone
    cases hnone
  listening := by
    rw [h.closed]
    rfl

end

end Client

/-! ### What arrives piece by piece -/

namespace Inbound

/-- What arrives, and after it more. Nothing comes after the end of the stream. -/
def followedBy (i more : Inbound) : Inbound :=
  if i.ends then i else { bytes := i.bytes ++ more.bytes, ends := more.ends }

def joined : List Inbound → Inbound
  | [] => {}
  | i :: rest => i.followedBy (joined rest)

theorem followedBy_nothing (i : Inbound) : i.followedBy {} = i := by
  obtain ⟨bytes, ends⟩ := i
  cases ends <;> simp [followedBy]

end Inbound

namespace Client

/-- Takes in what arrives, one piece after another. -/
def hear (c : Client) (arrivals : List Inbound) : Client := arrivals.foldl receive c

/-- The requests that a client knows of were made. -/
structure Numbered (c : Client) : Prop where
  outcomes : ∀ id ∈ c.outcomes.map (·.1), id < c.nextId
  pending : ∀ id ∈ c.pending, id < c.nextId

/-- A client goes on with the process that it has, and with requests that were made. -/
structure GoesOn (c after : Client) : Prop where
  process : after.process = c.process
  numbered : c.Numbered → after.Numbered

/-- A client goes on without requests that are new. -/
structure Keeps (c after : Client) : Prop extends c.GoesOn after where
  pending : after.pending ⊆ c.pending

/-- A request is open, or it is not and has come to something. -/
def Tracked (c : Client) (id : Nat) : Prop := c.Open id ∨ ∃ o, o ≠ .waiting ∧ c.Settled id o

section
variable {c after last : Client} {id fuel : Nat} {m : Members} {i : Inbound} {arrivals : List Inbound}

theorem receive_of_ends (c : Client) (h : i.ends = true) : (c.receive i).listening = false := by
  cases hc : c.listening with
  | false => rw [receive_of_not_listening hc, hc]
  | true =>
    rw [receive_eq hc, h, Bool.true_and]
    split
    · rfl
    · rename_i hstopped
      exact Bool.eq_false_iff.mpr hstopped

theorem receive_receive (more : Inbound) : (c.receive i).receive more = c.receive (i.followedBy more) := by
  unfold Inbound.followedBy
  split
  · rename_i hends
    exact receive_of_not_listening (receive_of_ends c hends) more
  · rename_i hgoesOn
    obtain ⟨bytes, ends⟩ := i
    obtain rfl : ends = false := Bool.eq_false_iff.mpr hgoesOn
    exact receive_append more

/-- Pieces are taken in as if they had come at once. -/
theorem hear_cons (c : Client) (i : Inbound) (arrivals : List Inbound) :
    c.hear (i :: arrivals) = c.receive (Inbound.joined (i :: arrivals)) := by
  induction arrivals generalizing c i with
  | nil =>
    rw [Inbound.joined, Inbound.joined, Inbound.followedBy_nothing]
    rfl
  | cons j arrivals ih =>
    rw [Inbound.joined, ← receive_receive]
    exact ih (c.receive i) j

theorem hear_eq_receive (h : arrivals ≠ []) : c.hear arrivals = c.receive (Inbound.joined arrivals) := by
  obtain ⟨i, rest, rfl⟩ := List.exists_cons_of_ne_nil h
  exact hear_cons c i rest

theorem hear_append (c : Client) (arrivals more : List Inbound) :
    c.hear (arrivals ++ more) = (c.hear arrivals).hear more := List.foldl_append

theorem hear_of_not_listening (hc : c.listening = false) : c.hear arrivals = c := by
  induction arrivals with
  | nil => rfl
  | cons i arrivals ih =>
    show (c.receive i).hear arrivals = c
    rw [receive_of_not_listening hc, ih]

/-! ### Requests that are made, and gone again -/

theorem GoesOn.trans (h : c.GoesOn after) (h' : after.GoesOn last) : c.GoesOn last where
  process := h'.process.trans h.process
  numbered := h'.numbered ∘ h.numbered

theorem Keeps.refl (c : Client) : c.Keeps c := ⟨⟨rfl, id⟩, List.Subset.refl _⟩

theorem Keeps.trans (h : c.Keeps after) (h' : after.Keeps last) : c.Keeps last where
  toGoesOn := h.toGoesOn.trans h'.toGoesOn
  pending := List.Subset.trans h'.pending h.pending

theorem Takes.keeps (h : c.Takes after) (hpending : after.pending ⊆ c.pending) : c.Keeps after where
  process := h.process
  numbered hc :=
    { outcomes := by
        rw [h.numbers, h.nextId]
        exact hc.outcomes
      pending := by
        rw [h.nextId]
        exact fun id hid => hc.pending id (hpending hid) }
  pending := hpending

theorem forget_pending (c : Client) (id : Nat) : (c.forget id).pending ⊆ c.pending := fun i hi =>
  ((mem_forget i).mp hi).1

theorem forget_keeps (c : Client) (id : Nat) : c.Keeps (c.forget id) :=
  (forget_takes c id).keeps (forget_pending c id)

theorem remark_keeps (c : Client) (n : Note) : c.Keeps (c.remark n) :=
  (remark_takes c n).keeps (List.Subset.refl _)

theorem dispatch_pending (c : Client) (m : Members) : (c.dispatch m).pending ⊆ c.pending := by
  unfold dispatch
  split
  · exact List.Subset.refl _
  split
  · exact List.Subset.refl _
  split
  · exact forget_pending c _
  · exact List.Subset.refl _

theorem useFrames_pending (c : Client) : (useFrames fuel c).pending ⊆ c.pending := by
  induction fuel generalizing c with
  | zero => exact List.Subset.refl _
  | succ fuel ih =>
    rw [useFrames_succ]
    split
    · exact List.Subset.refl _
    · rename_i m rest _
      exact List.Subset.trans (ih _) (dispatch_pending (c.withUnread rest) m)
    · rename_i e rest _
      exact ih ((c.withUnread rest).remark (.unusable e))
    · exact List.nil_subset _
    · exact List.nil_subset _

/-- No request is opened by what arrives. -/
theorem receive_pending (c : Client) (i : Inbound) : (c.receive i).pending ⊆ c.pending := by
  cases hc : c.listening with
  | false =>
    rw [receive_of_not_listening hc]
    exact List.Subset.refl _
  | true =>
    rw [receive_eq hc]
    split
    · exact List.nil_subset _
    · exact useFrames_pending (c.withUnread _)

theorem receive_keeps (c : Client) (i : Inbound) : c.Keeps (c.receive i) :=
  (receive_takes c i).keeps (receive_pending c i)

theorem hear_keeps (c : Client) (arrivals : List Inbound) : c.Keeps (c.hear arrivals) := by
  induction arrivals generalizing c with
  | nil => exact .refl c
  | cons i arrivals ih => exact (receive_keeps c i).trans (ih _)

theorem hear_nextId (c : Client) (arrivals : List Inbound) : (c.hear arrivals).nextId = c.nextId := by
  induction arrivals generalizing c with
  | nil => rfl
  | cons i arrivals ih => exact (ih _).trans (receive_takes c i).nextId

/-- A client that makes a request goes on. -/
theorem register_goesOn (c : Client) : c.GoesOn c.register.2 := by
  refine ⟨rfl, ?_⟩
  intro hc
  refine ⟨register_numbers hc.outcomes, ?_⟩
  intro id hid
  rcases List.mem_append.mp hid with hid | hid
  · exact (hc.pending id hid).trans (Nat.lt_succ_self _)
  · rw [List.mem_singleton.mp hid]
    exact Nat.lt_succ_self _

/-- A new request that is gone again leaves the open ones as they were. -/
theorem Keeps.of_register (h : c.register.2.Keeps after) (hgone : c.nextId ∉ after.pending) : c.Keeps after where
  toGoesOn := (register_goesOn c).trans h.toGoesOn
  pending := by
    intro id hid
    rcases List.mem_append.mp (h.pending hid) with hold | hnew
    · exact hold
    · rw [List.mem_singleton.mp hnew] at hid
      exact absurd hid hgone

theorem not_mem_forget (c : Client) (id : Nat) : id ∉ (c.forget id).pending := fun hid =>
  ((mem_forget id).mp hid).2 rfl

/-- A request that is given up is open no more, and the others are as they were. -/
theorem register_gone : c.Keeps ((c.register.2.hear arrivals).forget c.nextId) ∧
    c.nextId ∉ ((c.register.2.hear arrivals).forget c.nextId).pending := by
  have hgone := not_mem_forget (c.register.2.hear arrivals) c.nextId
  exact ⟨.of_register ((hear_keeps _ arrivals).trans (forget_keeps _ _)) hgone, hgone⟩

theorem Numbered.open_register (h : c.Numbered) : c.register.2.Open c.nextId :=
  Client.open_register fun hid => Nat.lt_irrefl _ (h.outcomes _ hid)

/-! ### A request and what arrives -/

theorem outcomeOf_ne_waiting (m : Members) : outcomeOf m ≠ .waiting := by
  unfold outcomeOf
  dsimp only
  split <;> nofun

theorem outcomeOf_eq_answered : (∃ v, outcomeOf m = .answered v) ↔
    ((Json.find? m "error").getD .null).isPresent = false := by
  unfold outcomeOf
  dsimp only
  cases ((Json.find? m "error").getD .null).isPresent <;> simp

theorem Tracked.gone (h : c.Tracked id) (ho : c.outcome id ≠ .waiting) : id ∉ c.pending := by
  rcases h with h | ⟨o, -, h⟩
  · exact absurd h.waiting ho
  · exact h.gone

theorem Tracked.close (h : c.Tracked id) : c.close.Tracked id := by
  rcases h with h | ⟨o, ho, h⟩
  · exact .inr ⟨.failed .streamClosed, nofun, h.close⟩
  · exact .inr ⟨o, ho, h.close⟩

theorem Tracked.withUnread (h : c.Tracked id) (bs : Text.Bytes) : (c.withUnread bs).Tracked id := by
  rcases h with h | ⟨o, ho, h⟩
  · exact .inl (h.withUnread bs)
  · exact .inr ⟨o, ho, h.withUnread bs⟩

theorem Tracked.useFrames (h : c.Tracked id) : (useFrames fuel c).Tracked id := by
  rcases h with h | ⟨o, ho, h⟩
  · have hused := @Open.useFrames _ _ fuel h
    split at hused
    · rename_i m _
      exact .inr ⟨_, outcomeOf_ne_waiting m, hused⟩
    split at hused
    · exact .inr ⟨.failed .streamClosed, nofun, hused⟩
    · exact .inl hused
  · exact .inr ⟨o, ho, h.useFrames⟩

theorem Tracked.receive (h : c.Tracked id) : (c.receive i).Tracked id := by
  cases hc : c.listening with
  | false => rwa [receive_of_not_listening hc]
  | true =>
    have hused : (c.withUnread (c.unread ++ i.bytes)).use.Tracked id := (h.withUnread _).useFrames
    rw [receive_eq hc]
    split
    · exact hused.close
    · exact hused

theorem Tracked.hear (h : c.Tracked id) : (c.hear arrivals).Tracked id := by
  induction arrivals generalizing c with
  | nil => exact h
  | cons i arrivals ih => exact ih h.receive

/-- A request has a result where the reader takes in an answer without an error. -/
theorem Open.hear_answered (h : c.Open id) (harrivals : arrivals ≠ []) :
    (∃ v, (c.hear arrivals).outcome id = .answered v) ↔
      c.listening = true ∧ ∃ m, answerTo id (messagesIn (c.unread ++ (Inbound.joined arrivals).bytes)).1 = some m ∧
        ((Json.find? m "error").getD .null).isPresent = false := by
  cases hc : c.listening with
  | false =>
    rw [hear_of_not_listening hc, h.waiting]
    simp
  | true =>
    rw [hear_eq_receive harrivals, h.receive hc, outcomeAmong]
    cases answerTo id (messagesIn (c.unread ++ (Inbound.joined arrivals).bytes)).1 with
    | none =>
      dsimp only
      split <;> simp
    | some m => simp [outcomeOf_eq_answered]

end

end Client

end Highlighter.Protocol

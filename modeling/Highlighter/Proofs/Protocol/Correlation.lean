import Highlighter.Proofs.Protocol.Interleaving
import Mathlib.Data.List.Induction

/-! Which answer a request gets, over whole runs of callers and the reader: open requests are those that no
action took out, a request is completed once at most, by the first message that answers it while it is open
or by the end of the stream, and what happens to other requests has no part in it. Other messages change nothing,
with one exception: a truth value that stands for a number is taken for one or zero. -/

namespace Highlighter.Protocol

open Highlighter.Json (Members)

/-- Whether an action makes a request or may take it out. -/
def Action.concerns (id : Nat) (a : Action) : Bool := a.issued? = some id || (a.takes? id).isSome

/-- A request was made and no action took it out. -/
def IsOpen (id : Nat) (as : List Action) : Prop := id ∈ issued as ∧ departure? id as = none

section
variable {as bs : List Action} {id : Nat} {d : Departure} {x y z : Exchange} {o : Outcome}

theorem after_filter : after id (as.filter (Action.concerns id)) = (after id as).filter (Action.concerns id) := by
  induction as with
  | nil => rfl
  | cons a as ih =>
    by_cases ha : a.issued? = some id
    · have hconcerns : a.concerns id = true := by simp [Action.concerns, ha]
      rw [List.filter_cons_of_pos hconcerns, after, after, if_pos ha, if_pos ha]
    · rw [after, if_neg ha, ← ih]
      by_cases hconcerns : a.concerns id = true
      · rw [List.filter_cons_of_pos hconcerns, after, if_neg ha]
      · rw [List.filter_cons_of_neg hconcerns]

theorem findSome?_takes?_filter :
    (as.filter (Action.concerns id)).findSome? (Action.takes? id) = as.findSome? (Action.takes? id) := by
  induction as with
  | nil => rfl
  | cons a as ih =>
    by_cases hconcerns : a.concerns id = true
    · rw [List.filter_cons_of_pos hconcerns, List.findSome?_cons, List.findSome?_cons, ih]
    · have htakes : a.takes? id = none := by
        rw [Action.concerns, Bool.or_eq_true, not_or] at hconcerns
        simpa using hconcerns.2
      rw [List.filter_cons_of_neg hconcerns, List.findSome?_cons, htakes, ih]

/-- The other requests have no part in how a request was taken out. -/
theorem departure?_filter : departure? id (as.filter (Action.concerns id)) = departure? id as := by
  rw [departure?, after_filter, findSome?_takes?_filter, departure?]

/-- The action that took a request out came while the request was open. -/
theorem open_before_departure (h : departure? id as = some d) :
    ∃ bs a cs, as = bs ++ a :: cs ∧ IsOpen id bs ∧ a.takes? id = some d := by
  induction as using List.reverseRecOn with
  | nil => cases h
  | append_singleton as a ih =>
    rw [departure?_snoc] at h
    split at h
    · rename_i hid
      cases hbefore : departure? id as with
      | none =>
        rw [hbefore, Option.none_or] at h
        exact ⟨as, a, [], rfl, ⟨hid, hbefore⟩, h⟩
      | some d' =>
        rw [hbefore, Option.some_or] at h
        obtain ⟨bs, b, cs, rfl, hopen, htakes⟩ := ih (hbefore.trans h)
        exact ⟨bs, b, cs ++ [a], by simp, hopen, htakes⟩
    · cases h

/-- What a request is completed with comes from the message that took it out, or from the end of the stream. -/
theorem Consistent.source (h : Consistent as y) (ho : o ∈ completions id as) :
    (∃ bs m cs, as = bs ++ .inbound m :: cs ∧ IsOpen id bs ∧ answers m id = true ∧ o = Client.outcomeOf m) ∨
      ∃ bs cs, as = bs ++ .drain :: cs ∧ IsOpen id bs ∧ o = .failed .streamClosed := by
  have hmem : o ∈ ((departure? id as).bind Departure.outcome?).toList :=
    h.completed id ▸ List.mem_append_left _ ho
  rw [Option.mem_toList, Option.bind_eq_some_iff] at hmem
  obtain ⟨d, hd, houtcome⟩ := hmem
  obtain ⟨bs, a, cs, rfl, hopen, htakes⟩ := open_before_departure hd
  obtain ⟨rfl, hanswers⟩ := takes?_eq_some htakes
  cases d with
  | answered m => exact .inl ⟨bs, m, cs, rfl, hopen, hanswers m rfl, (Option.some.inj houtcome).symm⟩
  | withdrawn => cases houtcome
  | givenUp => cases houtcome
  | drained => exact .inr ⟨bs, cs, rfl, hopen, (Option.some.inj houtcome).symm⟩

/-- When the reader is not about to complete a request, its outcome is up to how it was taken out. -/
theorem Consistent.outcome_eq (h : Consistent as y) (howes : y.reader.owes id = []) :
    y.client.outcome id = ((departure? id as).bind Departure.outcome?).getD .waiting := by
  have hcompleted := h.completed id
  rw [howes, List.append_nil] at hcompleted
  rw [h.outcome, hcompleted]
  cases (departure? id as).bind Departure.outcome? <;> rfl

/-- Over every run from a fresh start: no number is given twice; the open requests are those that were made
and not yet answered, given up, withdrawn or failed at the end of the stream; what a request is completed
with, or is about to be, is what took it out gives, so that there is one completion at most, and it is the
outcome; it comes from the first message that answers the request while it is open, or from the end of the
stream. Two runs that do the same with a request leave it with one outcome, whatever they do with others. -/
theorem Runs.requests_correlate (hx : x.Fresh) (h : Runs x as y) :
    (issued as).Nodup ∧
    (∀ id, id ∈ y.client.pending ↔ IsOpen id as) ∧
    (∀ id, completions id as ++ y.reader.owes id = ((departure? id as).bind Departure.outcome?).toList) ∧
    (∀ id, y.client.outcome id = (completions id as).head?.getD .waiting) ∧
    (∀ id o, o ∈ completions id as →
      (∃ bs m cs, as = bs ++ .inbound m :: cs ∧ IsOpen id bs ∧ answers m id = true ∧ o = Client.outcomeOf m) ∨
        ∃ bs cs, as = bs ++ .drain :: cs ∧ IsOpen id bs ∧ o = .failed .streamClosed) ∧
    ∀ x' as' y' id, x'.Fresh → Runs x' as' y' →
      as.filter (Action.concerns id) = as'.filter (Action.concerns id) →
      y.reader.owes id = [] → y'.reader.owes id = [] → y.client.outcome id = y'.client.outcome id := by
  have hy := Consistent.of_runs hx h
  refine ⟨hy.distinct, hy.pending, hy.completed, hy.outcome, fun _ _ ho => hy.source ho, ?_⟩
  intro x' as' y' id hx' h' hsame howes howes'
  rw [hy.outcome_eq howes, (Consistent.of_runs hx' h').outcome_eq howes', ← departure?_filter, hsame,
    departure?_filter]

end

/-- Two requests, both written, and no answer yet. -/
def bothAsked : List Action :=
  [.issue 1, .issue 2, .clear 2, .clear 1, .write 1, .write 2]

def answerMessage (id result : Int) : Members := [("id", .int id), ("result", .int result)]

/-- The answers to two requests, the second first or last, and the second once more. -/
theorem Runs.requests_correlate_crossed :
    ∃ y y', (Exchange.ofCommand ["server"]).Fresh ∧
      Runs (Exchange.ofCommand ["server"]) (bothAsked ++ [.inbound (answerMessage 2 20),
        .complete 2 (.answered (.int 20)), .inbound (answerMessage 1 10), .complete 1 (.answered (.int 10)),
        .inbound (answerMessage 2 21)]) y ∧
      Runs (Exchange.ofCommand ["server"]) (bothAsked ++ [.inbound (answerMessage 1 10),
        .complete 1 (.answered (.int 10)), .inbound (answerMessage 2 20), .complete 2 (.answered (.int 20)),
        .inbound (answerMessage 2 21)]) y' ∧
      y.client.pending = [] ∧ y.client.outcome 1 = .answered (.int 10) ∧
      y.client.outcome 2 = y'.client.outcome 2 := by
  have hasked := ((((((Runs.nil (x := Exchange.ofCommand ["server"])).snoc .issue).snoc .issue).snoc
    (@Step.clear _ 2 rfl rfl)).snoc (@Step.clear _ 1 rfl rfl)).snoc (@Step.write _ 1 rfl)).snoc
    (@Step.write _ 2 rfl)
  have hcrossed := ((((hasked.snoc (@Step.answer _ 2 (answerMessage 2 20) rfl rfl (by decide))).snoc
    (.finish rfl)).snoc (@Step.answer _ 1 (answerMessage 1 10) rfl rfl (by decide))).snoc
    (.finish rfl)).snoc (.ignore (m := answerMessage 2 21) rfl nofun)
  have hinOrder := ((((hasked.snoc (@Step.answer _ 1 (answerMessage 1 10) rfl rfl (by decide))).snoc
    (.finish rfl)).snoc (@Step.answer _ 2 (answerMessage 2 20) rfl rfl (by decide))).snoc
    (.finish rfl)).snoc (.ignore (m := answerMessage 2 21) rfl nofun)
  have hfresh := Exchange.ofCommand_fresh ["server"]
  obtain ⟨-, hpending, -, houtcome, -, hsame⟩ := requests_correlate hfresh hcrossed
  refine ⟨_, _, hfresh, hcrossed, hinOrder, ?_, houtcome 1, hsame _ _ _ 2 hfresh hinOrder rfl rfl rfl⟩
  refine List.eq_nil_iff_forall_not_mem.mpr fun id hid => ?_
  obtain ⟨hissued, hnone⟩ := (hpending id).mp hid
  have hid : id ∈ [1, 2] := hissued
  rcases List.mem_cons.mp hid with rfl | hid
  · exact Option.some_ne_none _ hnone
  · cases List.mem_singleton.mp hid
    exact Option.some_ne_none _ hnone

/-! ### Messages that answer no open request -/

/-- A message that should leave all requests alone: it has a method, or its number is absent, no integer, or that
of no open request. -/
def Foreign (as : List Action) (m : Members) : Prop :=
  (Json.find? m "method").isSome = true ∨ ∀ id, IsOpen id as → Json.find? m "id" ≠ some (.int id)

/-- The number of a message is a truth value, and the request is open whose number it is taken for. -/
structure Mistaken (as : List Action) (m : Members) (id : Nat) : Prop where
  method : Json.find? m "method" = none
  number : ∃ b : Bool, Json.find? m "id" = some (.bool b) ∧ b.toNat = id
  isOpen : IsOpen id as

section
variable {as : List Action} {x y : Exchange} {m : Members} {id : Nat}

/-- A message that is taken for an answer has the number of the request, or a truth value that is taken for it. -/
theorem answers_cases (h : answers m id = true) : Json.find? m "method" = none ∧
    (Json.find? m "id" = some (.int id) ∨ ∃ b : Bool, Json.find? m "id" = some (.bool b) ∧ b.toNat = id) := by
  rw [answers, Bool.and_eq_true, Option.isNone_iff_eq_none, beq_iff_eq] at h
  refine ⟨h.1, ?_⟩
  have hid := h.2
  unfold Client.answeredId? at hid
  split at hid
  · rename_i n hn
    cases hid
    exact .inl hn
  · rename_i b hb
    refine .inr ⟨b, hb, ?_⟩
    cases b <;> exact Int.ofNat_inj.mp (Option.some.inj hid)
  · cases hid

theorem Mistaken.answers (h : Mistaken as m id) : answers m id = true := by
  obtain ⟨b, hb, rfl⟩ := h.number
  cases b <;> simp [Protocol.answers, h.method, Client.answeredId?, hb]

theorem Foreign.not_answers (hm : Foreign as m) (hnot : ¬ Mistaken as m id) (hopen : IsOpen id as) :
    answers m id = false := by
  by_contra hanswers
  obtain ⟨hmethod, hnumber⟩ := answers_cases (by simpa using hanswers)
  rcases hnumber with hnumber | hnumber
  · rcases hm with hm | hm
    · rw [hmethod] at hm
      cases hm
    · exact hm id hopen hnumber
  · exact hnot ⟨hmethod, hnumber, hopen⟩

/-- Over every run from a fresh start: a message that answers no open request changes nothing that is about
requests, neither when it is taken in at once nor when the reader takes it in step by step. The one exception is a
truth value in the place of the number: the request of number one, or zero, is taken out and completed with what
the message says. -/
theorem Runs.dispatch_foreign (hx : x.Fresh) (h : Runs x as y) (hm : Foreign as m) :
    ((∀ id, ¬ Mistaken as m id) → SameRequests (y.client.dispatch m) y.client ∧
      ∀ z, Step y (.inbound m) z → SameRequests z.client y.client ∧ z.phase = y.phase ∧ z.reader = y.reader) ∧
    ∀ id, Mistaken as m id → id ∈ y.client.pending ∧ id ∉ (y.client.dispatch m).pending ∧
      (y.client.dispatch m).outcome id = Client.outcomeOf m := by
  have hy := Consistent.of_runs hx h
  constructor
  · intro hnot
    have hstrange : ∀ id ∈ y.client.pending, answers m id = false := by
      intro id hid
      exact hm.not_answers (hnot id) ((hy.pending id).mp hid)
    refine ⟨dispatch_strange hstrange, ?_⟩
    intro z hstep
    cases hstep with
    | answer reader answer pending =>
      rw [hstrange _ pending] at answer
      cases answer
    | ignore reader strange => exact ⟨dispatch_strange strange, rfl, rfl⟩
  · intro id hmistaken
    have hpending : id ∈ y.client.pending := (hy.pending id).mpr hmistaken.isOpen
    have hknown : id ∈ (y.client.forget id).outcomes.map (·.1) := hy.known ▸ hmistaken.isOpen.1
    rw [dispatch_answer hmistaken.answers hpending]
    refine ⟨hpending, ?_, outcome_settle_self hknown⟩
    intro hid
    exact ((mem_forget id).mp hid).2 rfl

end

/-- A client with two open requests. -/
def Client.ofTwo : Client :=
  { command := ["server"], nextId := 3, pending := [1, 2], outcomes := [(1, .waiting), (2, .waiting)] }

theorem bothAsked_runs :
    ∃ y, Runs (Exchange.ofCommand ["server"]) bothAsked y ∧ y.client = Client.ofTwo ∧ y.reader = .reading :=
  ⟨_, ((((((Runs.nil (x := Exchange.ofCommand ["server"])).snoc .issue).snoc .issue).snoc
    (@Step.clear _ 2 rfl rfl)).snoc (@Step.clear _ 1 rfl rfl)).snoc (@Step.write _ 1 rfl)).snoc
    (@Step.write _ 2 rfl), rfl, rfl⟩

/-- The answer to the second request comes once more, while the first is open. -/
theorem Runs.dispatch_foreign_repeated :
    ∃ y, (Exchange.ofCommand ["server"]).Fresh ∧
      Runs (Exchange.ofCommand ["server"]) (bothAsked ++ [.inbound (answerMessage 2 20),
        .complete 2 (.answered (.int 20))]) y ∧
      Foreign (bothAsked ++ [.inbound (answerMessage 2 20), .complete 2 (.answered (.int 20))])
        (answerMessage 2 21) ∧
      y.client.pending = [1] ∧ SameRequests (y.client.dispatch (answerMessage 2 21)) y.client := by
  obtain ⟨y, hasked, hclient, hreader⟩ := bothAsked_runs
  have hanswer := @Step.answer _ 2 (answerMessage 2 20) hreader rfl (by rw [hclient]; decide)
  have hanswered := (hasked.snoc hanswer).snoc (.finish rfl)
  have hfresh := Exchange.ofCommand_fresh ["server"]
  have hforeign : Foreign (bothAsked ++ [.inbound (answerMessage 2 20), .complete 2 (.answered (.int 20))])
      (answerMessage 2 21) := by
    refine .inr ?_
    intro id hopen hid
    cases hid
    exact Option.some_ne_none _ hopen.2
  obtain ⟨hsame, -⟩ := Runs.dispatch_foreign hfresh hanswered hforeign
  refine ⟨_, hfresh, hanswered, hforeign, ?_, (hsame ?_).1⟩
  · rw [hclient]
    rfl
  · intro id hmistaken
    obtain ⟨b, hb, -⟩ := hmistaken.number
    cases hb

/-- A truth value in the place of the number. -/
def truthMessage : Members := [("id", .bool true), ("result", .int 7)]

/-- The first request gets its result from a message whose number is a truth value. -/
theorem Runs.dispatch_truth :
    ∃ y, (Exchange.ofCommand ["server"]).Fresh ∧ Runs (Exchange.ofCommand ["server"]) bothAsked y ∧
      Foreign bothAsked truthMessage ∧ y.client.pending = [1, 2] ∧ y.client.outcome 1 = .waiting ∧
      (y.client.dispatch truthMessage).pending = [2] ∧
      (y.client.dispatch truthMessage).outcome 1 = .answered (.int 7) := by
  obtain ⟨y, hasked, hclient, -⟩ := bothAsked_runs
  refine ⟨y, Exchange.ofCommand_fresh ["server"], hasked, .inr ?_, ?_⟩
  · intro id _ hid
    cases hid
  · rw [hclient]
    exact ⟨rfl, rfl, rfl, rfl⟩

end Highlighter.Protocol

import Highlighter.Protocol.Client
import Mathlib.Logic.Function.Basic

/-! Callers that ask at the same time, and the reader that takes the answers in. They share the open requests,
which each of them locks to change, and the mark that the stream has ended, which is set or looked at in one
go: a step is what no other can come into, and the steps of all callers and of the reader follow one another
in any order. A request is open from its registration up to the first action that takes it out, and is
completed at most once, with what that action gives. -/

namespace Highlighter.Protocol

open Highlighter.Json (Members)

/-- Whether a message is the answer to a request of a number. -/
def answers (m : Members) (id : Nat) : Bool :=
  (Json.find? m "method").isNone && Client.answeredId? m == some (id : Int)

/-- How far the call that made a request has come. -/
inductive Phase where
  | unused
  | registered
  /-- The stream was found open. -/
  | cleared
  /-- The stream was found closed. -/
  | refused
  | unwritten
  | written
  | returned
  /-- The time to wait is over. -/
  | expired
  | raised
  | abandoned
  deriving DecidableEq, Repr

/-- What the reader is at. -/
inductive Reader where
  | reading
  /-- A request was taken out and is to be completed. -/
  | answering (id : Nat) (o : Outcome)
  /-- The stream is marked as closed, and the open requests are to be taken out. -/
  | closing
  /-- Requests were taken out at the end and are to be failed; without any the reader is done. -/
  | failing (ids : List Nat)

/-- A client, its callers and its reader. -/
structure Exchange where
  client : Client
  phase : Nat → Phase
  reader : Reader

inductive Action where
  | issue (id : Nat)
  | clear (id : Nat)
  | refuse (id : Nat)
  | write (id : Nat)
  | failWrite (id : Nat)
  /-- A call takes its own request out and raises. -/
  | withdraw (id : Nat)
  /-- A call hands the number of its request to its caller. -/
  | handOver (id : Nat)
  | expire (id : Nat)
  /-- A caller takes a request out for which it does not wait any longer. -/
  | giveUp (id : Nat)
  | inbound (m : Members)
  | complete (id : Nat) (o : Outcome)
  | shut
  | drain
  /-- Anything that leaves the requests alone. -/
  | aside

namespace Exchange

def enter (x : Exchange) (id : Nat) (p : Phase) : Exchange := { x with phase := Function.update x.phase id p }

/-- Nothing was asked yet, and the reader reads. -/
structure Fresh (x : Exchange) : Prop where
  pending : x.client.pending = []
  outcomes : x.client.outcomes = []
  opened : x.client.closed = false
  reader : x.reader = .reading
  phase : ∀ id, x.phase id = .unused

def ofCommand (command : List String) : Exchange := ⟨{ command }, fun _ => .unused, .reading⟩

theorem ofCommand_fresh (command : List String) : (ofCommand command).Fresh :=
  ⟨rfl, rfl, rfl, rfl, fun _ => rfl⟩

end Exchange

/-- Clients that differ in nothing that is about requests. -/
structure SameRequests (c d : Client) : Prop where
  nextId : c.nextId = d.nextId
  pending : c.pending = d.pending
  outcomes : c.outcomes = d.outcomes
  closed : c.closed = d.closed

/-- The single steps: those of a call come first, then those of the reader. -/
inductive Step (x : Exchange) : Action → Exchange → Prop
  | issue : Step x (.issue x.client.nextId)
      ({ x with client := x.client.register.2 }.enter x.client.nextId .registered)
  | clear {id : Nat} (phase : x.phase id = .registered) (opened : x.client.closed = false) :
    Step x (.clear id) (x.enter id .cleared)
  | refuse {id : Nat} (phase : x.phase id = .registered) (closed : x.client.closed = true) :
    Step x (.refuse id) (x.enter id .refused)
  | write {id : Nat} (phase : x.phase id = .cleared) : Step x (.write id) (x.enter id .written)
  | failWrite {id : Nat} (phase : x.phase id = .cleared) : Step x (.failWrite id) (x.enter id .unwritten)
  | withdraw {id : Nat} (phase : x.phase id = .refused ∨ x.phase id = .unwritten) :
    Step x (.withdraw id) ({ x with client := x.client.forget id }.enter id .raised)
  | handOver {id : Nat} (phase : x.phase id = .written) : Step x (.handOver id) (x.enter id .returned)
  | expire {id : Nat} (phase : x.phase id = .returned) : Step x (.expire id) (x.enter id .expired)
  | giveUp {id : Nat} (phase : x.phase id = .expired) :
    Step x (.giveUp id) ({ x with client := x.client.forget id }.enter id .abandoned)
  | answer {id : Nat} {m : Members} (reader : x.reader = .reading) (answer : answers m id = true)
    (pending : id ∈ x.client.pending) : Step x (.inbound m)
      { x with client := x.client.forget id, reader := .answering id (Client.outcomeOf m) }
  | ignore {m : Members} (reader : x.reader = .reading)
    (strange : ∀ id ∈ x.client.pending, answers m id = false) :
    Step x (.inbound m) { x with client := x.client.dispatch m }
  | finish {id : Nat} {o : Outcome} (reader : x.reader = .answering id o) :
    Step x (.complete id o) { x with client := x.client.settle id o, reader := .reading }
  | shut (reader : x.reader = .reading) :
    Step x .shut { x with client := { x.client with closed := true }, reader := .closing }
  | drain (reader : x.reader = .closing) : Step x .drain
      { x with client := { x.client with pending := [] }, reader := .failing x.client.pending }
  | fail {id : Nat} {ids : List Nat} (reader : x.reader = .failing (id :: ids)) :
    Step x (.complete id (.failed .streamClosed))
      { x with client := x.client.settle id (.failed .streamClosed), reader := .failing ids }
  | aside {c : Client} (same : SameRequests c x.client) : Step x .aside { x with client := c }

/-- Steps one after another. -/
inductive Runs (x : Exchange) : List Action → Exchange → Prop
  | nil : Runs x [] x
  | snoc {as : List Action} {a : Action} {y z : Exchange} (run : Runs x as y) (step : Step y a z) :
    Runs x (as ++ [a]) z

/-! ### What is told by the actions alone -/

/-- What can take a request out. -/
inductive Departure where
  | answered (m : Members)
  | withdrawn
  | givenUp
  | drained

/-- What a request is completed with that was taken out. -/
def Departure.outcome? : Departure → Option Outcome
  | .answered m => some (Client.outcomeOf m)
  | .withdrawn => none
  | .givenUp => none
  | .drained => some (.failed .streamClosed)

/-- The action that takes a request out like this. -/
def Departure.action (id : Nat) : Departure → Action
  | .answered m => .inbound m
  | .withdrawn => .withdraw id
  | .givenUp => .giveUp id
  | .drained => .drain

namespace Action

/-- The number that an action gives to a new request. -/
def issued? : Action → Option Nat
  | .issue id => some id
  | _ => none

/-- How an action takes a request out, if it is open. -/
def takes? (id : Nat) : Action → Option Departure
  | .withdraw i => if i = id then some .withdrawn else none
  | .giveUp i => if i = id then some .givenUp else none
  | .inbound m => if answers m id then some (.answered m) else none
  | .drain => some .drained
  | _ => none

/-- What an action completes a request with. -/
def completes? (id : Nat) : Action → Option Outcome
  | .complete i o => if i = id then some o else none
  | _ => none

end Action

/-- The numbers given to requests, in order. -/
def issued (as : List Action) : List Nat := as.filterMap Action.issued?

/-- The actions after a number was given to a request. -/
def after (id : Nat) : List Action → List Action
  | [] => []
  | a :: as => if a.issued? = some id then as else after id as

/-- How a request was taken out: by the first action after it was made that could. -/
def departure? (id : Nat) (as : List Action) : Option Departure := (after id as).findSome? (Action.takes? id)

/-- What a request was completed with, each time it was. -/
def completions (id : Nat) (as : List Action) : List Outcome := as.filterMap (Action.completes? id)

/-- What a reader is still to complete a request with. -/
def Reader.owes (id : Nat) : Reader → List Outcome
  | .answering i o => if i = id then [o] else []
  | .failing ids => if id ∈ ids then [.failed .streamClosed] else []
  | _ => []

section
variable {as bs : List Action} {a : Action} {id : Nat} {x y z : Exchange} {c : Client} {m : Members} {o : Outcome}

theorem Runs.trans (h : Runs x as y) (h' : Runs y bs z) : Runs x (as ++ bs) z := by
  induction h' with
  | nil => rwa [List.append_nil]
  | snoc run step ih => exact List.append_assoc .. ▸ ih.snoc step

theorem issued_snoc : issued (as ++ [a]) = issued as ++ a.issued?.toList := by
  rw [issued, issued, List.filterMap_append]
  cases h : a.issued? <;> simp [h]

theorem completions_snoc : completions id (as ++ [a]) = completions id as ++ (a.completes? id).toList := by
  rw [completions, completions, List.filterMap_append]
  cases h : a.completes? id <;> simp [h]

theorem mem_issued_cons : id ∈ issued (a :: as) ↔ a.issued? = some id ∨ id ∈ issued as := by
  simp [issued, List.mem_filterMap]

theorem after_append (h : id ∈ issued as) : after id (as ++ bs) = after id as ++ bs := by
  induction as with
  | nil => cases h
  | cons a as ih =>
    by_cases ha : a.issued? = some id
    · simp [after, ha]
    · rw [List.cons_append, after, after, if_neg ha, if_neg ha, ih ((mem_issued_cons.mp h).resolve_left ha)]

theorem after_append_of_not_mem (h : id ∉ issued as) : after id (as ++ bs) = after id bs := by
  induction as with
  | nil => rfl
  | cons a as ih =>
    rw [mem_issued_cons, not_or] at h
    rw [List.cons_append, after, if_neg h.1, ih h.2]

theorem departure?_of_not_mem (h : id ∉ issued as) : departure? id as = none := by
  have hafter := @after_append_of_not_mem as [] id h
  rw [List.append_nil] at hafter
  rw [departure?, hafter]
  rfl

theorem departure?_snoc : departure? id (as ++ [a]) =
    if id ∈ issued as then (departure? id as).or (a.takes? id) else none := by
  by_cases h : id ∈ issued as
  · rw [if_pos h, departure?, after_append h, List.findSome?_append]
    simp [departure?]
  · have hsingle : after id [a] = [] := by by_cases ha : a.issued? = some id <;> simp [after, ha]
    rw [if_neg h, departure?, after_append_of_not_mem h, hsingle]
    rfl

/-- An action that takes no request out leaves every one as it was. -/
theorem departure?_snoc_none (h : a.takes? id = none) : departure? id (as ++ [a]) = departure? id as := by
  rw [departure?_snoc, h, Option.or_none]
  split
  · rfl
  · exact (departure?_of_not_mem ‹_›).symm

theorem departure?_snoc_some {d : Departure} (h : departure? id (as ++ [a]) = some d) :
    departure? id as = some d ∨ a.takes? id = some d := by
  rw [departure?_snoc] at h
  split at h
  · exact (Option.or_eq_some_iff.mp h).imp_right And.right
  · cases h

theorem takes?_eq_some {d : Departure} (h : a.takes? id = some d) :
    a = d.action id ∧ ∀ m, d = .answered m → answers m id = true := by
  unfold Action.takes? at h
  split at h
  · split at h
    · cases h
      exact ⟨congrArg Action.withdraw ‹_›, by simp⟩
    · cases h
  · split at h
    · cases h
      exact ⟨congrArg Action.giveUp ‹_›, by simp⟩
    · cases h
  · split at h
    · cases h
      refine ⟨rfl, ?_⟩
      rintro _ ⟨⟩
      assumption
    · cases h
  · cases h
    exact ⟨rfl, by simp⟩
  · cases h

/-! ### What steps do to a client -/

theorem dispatch_answer (h : answers m id = true) (hid : id ∈ c.pending) :
    c.dispatch m = (c.forget id).settle id (Client.outcomeOf m) := by
  rw [answers, Bool.and_eq_true, Option.isNone_iff_eq_none, beq_iff_eq] at h
  unfold Client.dispatch
  simp only [h.1, h.2, Int.toNat_natCast]
  rw [if_pos (by simpa using hid)]

theorem answers_other {i : Nat} (h : answers m id = true) (hi : i ≠ id) : answers m i = false := by
  rw [answers, Bool.and_eq_true, beq_iff_eq] at h
  simp only [answers, h.2, Bool.and_eq_false_iff, beq_eq_false_iff_ne, ne_eq, Option.some.injEq]
  exact .inr (by omega)

/-- A message that answers no open request changes nothing but the remarks. -/
theorem dispatch_strange (h : ∀ id ∈ c.pending, answers m id = false) : SameRequests (c.dispatch m) c := by
  unfold Client.dispatch
  split
  · exact ⟨rfl, rfl, rfl, rfl⟩
  rename_i hmethod
  split
  · exact ⟨rfl, rfl, rfl, rfl⟩
  rename_i id hid
  split
  · rename_i hopen
    simp only [Bool.and_eq_true, decide_eq_true_eq, List.contains_iff_mem] at hopen
    have hstrange := h id.toNat hopen.2
    simp [answers, hmethod, hid, Int.toNat_of_nonneg hopen.1] at hstrange
  · exact ⟨rfl, rfl, rfl, rfl⟩

theorem outcome_register (i : Nat) : c.register.2.outcome i = c.outcome i := by
  unfold Client.outcome Client.register
  rw [List.lookup_append]
  cases hlookup : c.outcomes.lookup i with
  | some o => rfl
  | none =>
    rw [List.lookup_cons, List.lookup_nil]
    cases i == c.nextId <;> rfl

theorem outcome_settle_self (h : id ∈ c.outcomes.map (·.1)) : (c.settle id o).outcome id = o := by
  unfold Client.outcome Client.settle
  generalize c.outcomes = l at h
  induction l with
  | nil => cases h
  | cons e l ih =>
    by_cases he : e.1 = id
    · simp [he]
    · have hid : id ∈ l.map (·.1) := (List.mem_cons.mp h).resolve_left (Ne.symm he)
      have hother : (id == e.1) = false := beq_eq_false_iff_ne.mpr (Ne.symm he)
      rw [List.map_cons, if_neg (by simpa using he), List.lookup_cons, hother]
      exact ih hid

theorem outcome_settle_other {i : Nat} (h : i ≠ id) : (c.settle id o).outcome i = c.outcome i := by
  unfold Client.outcome Client.settle
  generalize c.outcomes = l
  induction l with
  | nil => rfl
  | cons e l ih =>
    rw [List.map_cons, List.lookup_cons, List.lookup_cons]
    by_cases he : e.1 = id
    · have hi : (i == id) = false := by simpa using h
      simpa [he, hi] using ih
    · by_cases hi : i = e.1
      · simp [he, hi]
      · have hother : (i == e.1) = false := beq_eq_false_iff_ne.mpr hi
        simpa [he, hother] using ih

theorem settle_known (id : Nat) (o : Outcome) :
    (c.settle id o).outcomes.map (·.1) = c.outcomes.map (·.1) := by
  unfold Client.settle
  rw [List.map_map]
  refine List.map_congr_left fun e _ => ?_
  by_cases h : e.1 = id <;> simp [h]

theorem mem_forget (i : Nat) : i ∈ (c.forget id).pending ↔ i ∈ c.pending ∧ i ≠ id := by
  simp [Client.forget]

theorem nodup_snoc {l : List Nat} (h : l.Nodup) (hid : id ∉ l) : (l ++ [id]).Nodup := by
  refine List.nodup_append.mpr ⟨h, by simp, ?_⟩
  rintro i hi _ (_ | ⟨_, ⟨⟩⟩) rfl
  exact hid hi

/-! ### What the actions tell is so -/

/-- What holds of an exchange after actions from a fresh start. -/
structure Consistent (as : List Action) (x : Exchange) : Prop where
  distinct : (issued as).Nodup
  below : ∀ id ∈ issued as, id < x.client.nextId
  unused : ∀ id, x.phase id = .unused ↔ id ∉ issued as
  known : x.client.outcomes.map (·.1) = issued as
  pending : ∀ id, id ∈ x.client.pending ↔ id ∈ issued as ∧ departure? id as = none
  pendingOnce : x.client.pending.Nodup
  failingOnce : ∀ ids, x.reader = .failing ids → ids.Nodup
  completed : ∀ id, completions id as ++ x.reader.owes id =
    ((departure? id as).bind Departure.outcome?).toList
  outcome : ∀ id, x.client.outcome id = (completions id as).head?.getD .waiting

theorem Exchange.Fresh.consistent (h : x.Fresh) : Consistent [] x where
  distinct := List.nodup_nil
  below := nofun
  unused id := by simp [h.phase, issued]
  known := by simp [h.outcomes, issued]
  pending id := by simp [h.pending, issued]
  pendingOnce := by simp [h.pending]
  failingOnce ids hids := by
    rw [h.reader] at hids
    cases hids
  completed id := by simp [h.reader, completions, departure?, after, Reader.owes]
  outcome id := by simp [Client.outcome, h.outcomes, completions]

/-- An action that neither makes nor completes a request: what it can take out is taken out. -/
theorem Consistent.take (h : Consistent as x) (hissued : a.issued? = none)
    (hcompletes : ∀ id, a.completes? id = none) (hnext : y.client.nextId = x.client.nextId)
    (houtcomes : y.client.outcomes = x.client.outcomes)
    (hphase : ∀ id, y.phase id = .unused ↔ x.phase id = .unused)
    (hpending : ∀ id, id ∈ y.client.pending ↔ id ∈ x.client.pending ∧ a.takes? id = none)
    (hpendingOnce : y.client.pending.Nodup) (hfailingOnce : ∀ ids, y.reader = .failing ids → ids.Nodup)
    (howes : ∀ id, y.reader.owes id = x.reader.owes id ++
      if id ∈ x.client.pending then ((a.takes? id).bind Departure.outcome?).toList else []) :
    Consistent (as ++ [a]) y := by
  have hsame : issued (as ++ [a]) = issued as := by rw [issued_snoc, hissued]; exact List.append_nil _
  have hdone (id : Nat) : completions id (as ++ [a]) = completions id as := by
    rw [completions_snoc, hcompletes]
    exact List.append_nil _
  refine ⟨?_, ?_, ?_, ?_, fun id => ?_, hpendingOnce, hfailingOnce, fun id => ?_, fun id => ?_⟩
  · rw [hsame]
    exact h.distinct
  · rw [hsame, hnext]
    exact h.below
  · intro id
    rw [hsame, hphase, h.unused]
  · rw [hsame, houtcomes, h.known]
  · rw [hpending, h.pending, hsame, departure?_snoc]
    by_cases hid : id ∈ issued as
    · simp only [hid, if_true, Option.or_eq_none_iff, true_and]
    · simp [hid]
  · have hbefore := h.completed id
    have hopen := h.pending id
    rw [hdone, howes, ← List.append_assoc, hbefore, departure?_snoc]
    by_cases hid : id ∈ issued as
    · cases hdeparture : departure? id as with
      | none => simp [hopen, hid, hdeparture]
      | some d => simp [hopen, hid, hdeparture]
    · simp [hopen, hid, departure?_of_not_mem hid]
  · rw [hdone, ← h.outcome]
    simp only [Client.outcome, houtcomes]

theorem Consistent.issue (h : Consistent as x) : Consistent (as ++ [.issue x.client.nextId])
    ({ x with client := x.client.register.2 }.enter x.client.nextId .registered) := by
  have hnew : x.client.nextId ∉ issued as := fun hmem => Nat.lt_irrefl _ (h.below _ hmem)
  have hissued : issued (as ++ [.issue x.client.nextId]) = issued as ++ [x.client.nextId] := issued_snoc
  have hdone (id : Nat) : completions id (as ++ [.issue x.client.nextId]) = completions id as := by
    rw [completions_snoc]
    exact List.append_nil _
  have hdeparture (id : Nat) : departure? id (as ++ [.issue x.client.nextId]) = departure? id as :=
    departure?_snoc_none rfl
  have hpending : ({ x with client := x.client.register.2 }.enter x.client.nextId .registered).client.pending =
      x.client.pending ++ [x.client.nextId] := rfl
  refine ⟨?_, ?_, fun id => ?_, ?_, fun id => ?_, ?_, h.failingOnce, fun id => ?_, fun id => ?_⟩
  · rw [hissued]
    exact nodup_snoc h.distinct hnew
  · rw [hissued]
    exact List.forall_mem_append.mpr
      ⟨fun id hid => Nat.lt_succ_of_lt (h.below id hid), by simp [Exchange.enter, Client.register]⟩
  · rw [hissued, Exchange.enter, List.mem_append, List.mem_singleton, not_or]
    by_cases hid : id = x.client.nextId
    · simp [hid]
    · simp [hid, h.unused]
  · rw [hissued, ← h.known]
    simp [Exchange.enter, Client.register]
  · rw [hpending, hissued, hdeparture, List.mem_append, List.mem_append, List.mem_singleton, h.pending]
    constructor
    · rintro (⟨hid, hnone⟩ | rfl)
      · exact ⟨.inl hid, hnone⟩
      · exact ⟨.inr rfl, departure?_of_not_mem hnew⟩
    · rintro ⟨hid | rfl, hnone⟩
      · exact .inl ⟨hid, hnone⟩
      · exact .inr rfl
  · rw [hpending]
    exact nodup_snoc h.pendingOnce fun hmem => hnew ((h.pending _).mp hmem).1
  · rw [hdone, hdeparture]
    exact h.completed id
  · rw [hdone, ← h.outcome]
    exact outcome_register id

/-- What is owed to a request is all that it is ever completed with. -/
theorem Consistent.owed (h : Consistent as x) (howed : x.reader.owes id = [o]) :
    id ∈ issued as ∧ completions id as = [] := by
  have hlast := h.completed id
  cases hdeparture : (departure? id as).bind Departure.outcome? with
  | none => simp [howed, hdeparture] at hlast
  | some o' =>
    have hlength := congrArg List.length hlast
    simp only [howed, hdeparture, List.length_append, Option.toList_some, List.length_singleton] at hlength
    refine ⟨?_, List.eq_nil_of_length_eq_zero (by omega)⟩
    by_contra hid
    rw [departure?_of_not_mem hid] at hdeparture
    cases hdeparture

/-- A completion of a request that is owed one. -/
theorem Consistent.complete (h : Consistent as x) {r : Reader} (howed : x.reader.owes id = [o])
    (howes : ∀ i, r.owes i = if i = id then [] else x.reader.owes i)
    (hfailingOnce : ∀ ids, r = .failing ids → ids.Nodup) :
    Consistent (as ++ [.complete id o]) { x with client := x.client.settle id o, reader := r } := by
  have hissued : issued (as ++ [.complete id o]) = issued as := by
    rw [issued_snoc]
    exact List.append_nil _
  have hdone (i : Nat) : completions i (as ++ [.complete id o]) =
      completions i as ++ if id = i then [o] else [] := by
    rw [completions_snoc, Action.completes?]
    split <;> rfl
  have hdeparture (i : Nat) : departure? i (as ++ [.complete id o]) = departure? i as := departure?_snoc_none rfl
  obtain ⟨hid, hnone⟩ := h.owed howed
  refine ⟨?_, ?_, fun i => ?_, ?_, fun i => ?_, h.pendingOnce, hfailingOnce, fun i => ?_, fun i => ?_⟩
  · rw [hissued]
    exact h.distinct
  · rw [hissued]
    exact h.below
  · rw [hissued]
    exact h.unused i
  · rw [hissued, ← h.known]
    exact settle_known id o
  · rw [hissued, hdeparture]
    exact h.pending i
  · rw [hdone, hdeparture, ← h.completed, howes]
    by_cases hi : i = id
    · subst hi
      simp [howed]
    · simp [hi, Ne.symm hi]
  · rw [hdone]
    by_cases hi : i = id
    · subst hi
      simp [hnone, outcome_settle_self (h.known ▸ hid)]
    · rw [if_neg (Ne.symm hi), List.append_nil, ← h.outcome]
      exact outcome_settle_other hi

theorem unused_enter {p : Phase} (hx : x.phase id ≠ .unused) (hp : p ≠ .unused) (i : Nat) :
    (x.enter id p).phase i = .unused ↔ x.phase i = .unused := by
  by_cases hi : i = id
  · subst hi
    simp [Exchange.enter, hx, hp]
  · simp [Exchange.enter, hi]

/-- A call goes on without taking a request out. -/
theorem Consistent.enter (h : Consistent as x) {p : Phase} (hx : x.phase id ≠ .unused) (hp : p ≠ .unused)
    (hissued : a.issued? = none) (hcompletes : ∀ i, a.completes? i = none) (htakes : ∀ i, a.takes? i = none) :
    Consistent (as ++ [a]) (x.enter id p) :=
  h.take hissued hcompletes rfl rfl (unused_enter hx hp) (by simp [htakes, Exchange.enter]) h.pendingOnce
    h.failingOnce (by simp [htakes, Exchange.enter])

/-- A call takes its own request out. -/
theorem Consistent.forget (h : Consistent as x) {p : Phase} {d : Departure} (hx : x.phase id ≠ .unused)
    (hp : p ≠ .unused) (hd : d.outcome? = none) (hissued : a.issued? = none)
    (hcompletes : ∀ i, a.completes? i = none) (htakes : ∀ i, a.takes? i = if id = i then some d else none) :
    Consistent (as ++ [a]) ({ x with client := x.client.forget id }.enter id p) := by
  refine h.take hissued hcompletes rfl rfl (unused_enter (x := { x with client := x.client.forget id }) hx hp)
    (fun i => ?_) (h.pendingOnce.filter _) h.failingOnce fun i => ?_
  · refine (mem_forget i).trans (and_congr_right fun _ => ?_)
    rw [htakes]
    by_cases hi : id = i
    · simp [hi]
    · simp [hi, Ne.symm hi]
  · by_cases hi : id = i <;> simp [htakes, hi, hd, Exchange.enter]

/-- A step keeps what holds. -/
theorem Consistent.step (h : Consistent as x) (hstep : Step x a y) : Consistent (as ++ [a]) y := by
  cases hstep with
  | issue => exact h.issue
  | clear phase opened =>
    exact h.enter (by simp [phase]) (by decide) rfl (fun _ => rfl) fun _ => rfl
  | refuse phase closed => exact h.enter (by simp [phase]) (by decide) rfl (fun _ => rfl) fun _ => rfl
  | write phase => exact h.enter (by simp [phase]) (by decide) rfl (fun _ => rfl) fun _ => rfl
  | failWrite phase => exact h.enter (by simp [phase]) (by decide) rfl (fun _ => rfl) fun _ => rfl
  | @withdraw id phase =>
    have hx : x.phase id ≠ .unused := by rcases phase with phase | phase <;> simp [phase]
    exact h.forget hx (by decide) (d := .withdrawn) rfl rfl (fun _ => rfl) fun _ => rfl
  | handOver phase => exact h.enter (by simp [phase]) (by decide) rfl (fun _ => rfl) fun _ => rfl
  | expire phase => exact h.enter (by simp [phase]) (by decide) rfl (fun _ => rfl) fun _ => rfl
  | giveUp phase =>
    exact h.forget (by simp [phase]) (by decide) (d := .givenUp) rfl rfl (fun _ => rfl) fun _ => rfl
  | @answer id m reader answer pending =>
    refine h.take rfl (fun _ => rfl) rfl rfl (fun _ => Iff.rfl) (fun i => ?_) (h.pendingOnce.filter _) nofun
      fun i => ?_
    · refine (mem_forget i).trans (and_congr_right fun _ => ?_)
      by_cases hi : i = id
      · simp [hi, Action.takes?, answer]
      · simp [hi, Action.takes?, answers_other answer hi]
    · by_cases hi : i = id
      · simp [hi, reader, Reader.owes, Action.takes?, answer, pending, Departure.outcome?]
      · simp [Ne.symm hi, reader, Reader.owes, Action.takes?, answers_other answer hi]
  | @ignore m reader strange =>
    obtain ⟨hnext, hpending, houtcomes, -⟩ := dispatch_strange strange
    refine h.take rfl (fun _ => rfl) hnext houtcomes (fun _ => Iff.rfl) (fun i => ?_) (hpending ▸ h.pendingOnce)
      h.failingOnce fun i => ?_
    · rw [hpending]
      refine (and_iff_left_of_imp fun hi => ?_).symm
      simp [Action.takes?, strange i hi]
    · by_cases hi : i ∈ x.client.pending
      · simp [Action.takes?, strange i hi]
      · simp [hi]
  | @finish id o reader =>
    refine h.complete (by simp [reader, Reader.owes]) (fun i => ?_) nofun
    by_cases hi : i = id
    · simp [hi, Reader.owes]
    · simp [hi, Ne.symm hi, reader, Reader.owes]
  | shut reader =>
    refine h.take rfl (fun _ => rfl) rfl rfl (fun _ => Iff.rfl) (fun i => ?_) h.pendingOnce nofun fun i => ?_
    · exact (and_iff_left rfl).symm
    · simp [reader, Reader.owes, Action.takes?]
  | drain reader =>
    refine h.take rfl (fun _ => rfl) rfl rfl (fun _ => Iff.rfl) (fun i => ?_) List.nodup_nil ?_ fun i => ?_
    · simp [Action.takes?]
    · rintro ids ⟨⟩
      exact h.pendingOnce
    · simp [reader, Reader.owes, Action.takes?, Departure.outcome?]
  | @fail id ids reader =>
    have honce := List.nodup_cons.mp (h.failingOnce _ reader)
    refine h.complete (by simp [reader, Reader.owes]) (fun i => ?_) ?_
    · by_cases hi : i = id
      · simp [hi, Reader.owes, honce.1]
      · simp [hi, reader, Reader.owes]
    · rintro ids' ⟨⟩
      exact honce.2
  | aside same =>
    refine h.take rfl (fun _ => rfl) same.nextId same.outcomes (fun _ => Iff.rfl) (fun i => ?_)
      (same.pending ▸ h.pendingOnce) h.failingOnce fun i => ?_
    · simp [same.pending, Action.takes?]
    · simp [Action.takes?]

theorem Consistent.of_runs (hx : x.Fresh) (h : Runs x as y) : Consistent as y := by
  induction h with
  | nil => exact hx.consistent
  | snoc run step ih => exact ih.step step

theorem Consistent.nextId_unused (h : Consistent as x) : x.phase x.client.nextId = .unused :=
  (h.unused _).mpr fun hmem => Nat.lt_irrefl _ (h.below _ hmem)

end

end Highlighter.Protocol

import Highlighter.Proofs.Protocol.Correlation

/-! The end of the stream. The reader marks the stream as closed before it takes the open requests out, and a
call registers its request before it looks at the mark: so a request that is still open when the reader is
through belongs to a call that will find the mark and take it out again. -/

namespace Highlighter.Protocol

/-- Whether the reader has marked the stream as closed. -/
def Reader.ended : Reader → Bool
  | .closing => true
  | .failing _ => true
  | _ => false

/-- A call that neither returned nor raised. -/
def Phase.isRunning : Phase → Bool
  | .registered => true
  | .cleared => true
  | .refused => true
  | .unwritten => true
  | .written => true
  | _ => false

/-- The call whose step an action is. -/
def Action.caller? : Action → Option Nat
  | .issue id => some id
  | .clear id => some id
  | .refuse id => some id
  | .write id => some id
  | .failWrite id => some id
  | .withdraw id => some id
  | .handOver id => some id
  | .expire id => some id
  | .giveUp id => some id
  | _ => none

/-- What the steps of a call take it from and to. -/
inductive Turn (id : Nat) : Phase → Action → Phase → Prop
  | issue : Turn id .unused (.issue id) .registered
  | clear : Turn id .registered (.clear id) .cleared
  | refuse : Turn id .registered (.refuse id) .refused
  | write : Turn id .cleared (.write id) .written
  | failWrite : Turn id .cleared (.failWrite id) .unwritten
  | withdrawRefused : Turn id .refused (.withdraw id) .raised
  | withdrawUnwritten : Turn id .unwritten (.withdraw id) .raised
  | handOver : Turn id .written (.handOver id) .returned
  | expire : Turn id .returned (.expire id) .expired
  | giveUp : Turn id .expired (.giveUp id) .abandoned

/-- The steps of one call. -/
def turns (id : Nat) (as : List Action) : List Action := as.filter fun a => a.caller? = some id

/-- What is left to do for a call that finds the stream closed. -/
def Phase.retreat (id : Nat) : Phase → List Action
  | .registered => [.refuse id, .withdraw id]
  | .refused => [.withdraw id]
  | _ => []

/-- However things go on, a call does nothing but its retreat, is never kept from the next step of it, and has
raised and taken its request out at the end of it. -/
def MustRaise (id : Nat) (y : Exchange) : Prop :=
  ∀ bs z, Runs y bs z →
    turns id bs ++ (z.phase id).retreat id = (y.phase id).retreat id ∧
    (∀ a ∈ ((z.phase id).retreat id).head?, ∃ w, Step z a w) ∧
    ((z.phase id).retreat id = [] → z.phase id = .raised ∧ id ∉ z.client.pending)

/-- A request that was completed once, with an answer to it or as one that the end of the stream failed. -/
def IsCompleted (id : Nat) (as : List Action) (y : Exchange) : Prop :=
  ∃ o, completions id as = [o] ∧ y.client.outcome id = o ∧
    (o = .failed .streamClosed ∨ ∃ m, .inbound m ∈ as ∧ answers m id = true ∧ o = Client.outcomeOf m)

/-- What holds between the mark, the open requests and the calls. -/
structure Ordered (as : List Action) (x : Exchange) : Prop where
  marked : x.client.closed = x.reader.ended
  late : ∀ ids, x.reader = .failing ids →
    ∀ id ∈ x.client.pending, x.phase id = .registered ∨ x.phase id = .refused
  raised : ∀ id, x.phase id = .raised → id ∉ x.client.pending
  withdrawn : ∀ id, departure? id as = some .withdrawn → x.phase id = .raised
  givenUp : ∀ id, departure? id as = some .givenUp → x.phase id = .abandoned

section
variable {as bs : List Action} {a : Action} {id : Nat} {x y z : Exchange}

/-- A step of another call or of the reader leaves a call where it is. -/
theorem Step.phase_other (h : Step x a y) (ha : a.caller? ≠ some id) : y.phase id = x.phase id := by
  cases h with
  | answer => rfl
  | ignore => rfl
  | finish => rfl
  | shut => rfl
  | drain => rfl
  | fail => rfl
  | aside => rfl
  | _ => exact Function.update_of_ne (fun he => ha (congrArg some he.symm)) _ _

theorem Step.turn (h : Step x a y) (hnew : x.phase x.client.nextId = .unused) (ha : a.caller? = some id) :
    Turn id (x.phase id) a (y.phase id) := by
  have hself (c : Client) (p : Phase) : (({ x with client := c } : Exchange).enter id p).phase id = p :=
    Function.update_self ..
  cases h with
  | issue =>
    cases ha
    rw [hnew, hself]
    exact .issue
  | clear phase opened =>
    cases ha
    rw [phase, hself x.client]
    exact .clear
  | refuse phase closed =>
    cases ha
    rw [phase, hself x.client]
    exact .refuse
  | write phase =>
    cases ha
    rw [phase, hself x.client]
    exact .write
  | failWrite phase =>
    cases ha
    rw [phase, hself x.client]
    exact .failWrite
  | withdraw phase =>
    cases ha
    rw [hself]
    rcases phase with phase | phase <;> rw [phase]
    · exact .withdrawRefused
    · exact .withdrawUnwritten
  | handOver phase =>
    cases ha
    rw [phase, hself x.client]
    exact .handOver
  | expire phase =>
    cases ha
    rw [phase, hself x.client]
    exact .expire
  | giveUp phase =>
    cases ha
    rw [phase, hself]
    exact .giveUp
  | _ => cases ha

/-- A call that raised or gave up does nothing more. -/
theorem Step.over (h : Step x a y) (hnew : x.phase x.client.nextId = .unused)
    (hover : x.phase id = .raised ∨ x.phase id = .abandoned) : y.phase id = x.phase id := by
  refine h.phase_other fun ha => ?_
  have hturn := h.turn hnew ha
  rcases hover with hover | hover <;> rw [hover] at hturn <;> cases hturn

theorem Step.clear_opened (h : Step x (.clear id) y) : x.client.closed = false := by
  cases h
  assumption

theorem Step.withdraw_pending (h : Step x (.withdraw id) y) : id ∉ y.client.pending := by
  cases h
  exact fun hid => ((mem_forget id).mp hid).2 rfl

theorem Step.pending_sub (h : Step x a y) (hid : id ∈ y.client.pending) :
    id ∈ x.client.pending ∨ a = .issue id := by
  cases h with
  | issue =>
    rcases List.mem_append.mp hid with hid | hid
    · exact .inl hid
    · exact .inr (congrArg Action.issue (List.mem_singleton.mp hid).symm)
  | withdraw phase => exact .inl ((mem_forget id).mp hid).1
  | giveUp phase => exact .inl ((mem_forget id).mp hid).1
  | answer reader answer pending => exact .inl ((mem_forget id).mp hid).1
  | ignore reader strange => exact .inl ((dispatch_strange strange).pending ▸ hid)
  | drain reader => cases hid
  | aside same => exact .inl (same.pending ▸ hid)
  | _ => exact .inl hid

/-- When the open requests are being failed, they were before, or have just been taken out. -/
theorem Step.failing {ids : List Nat} (h : Step x a y) (hy : y.reader = .failing ids) :
    (∃ ids', x.reader = .failing ids') ∨ y.client.pending = [] := by
  cases h with
  | drain reader => exact .inr rfl
  | fail reader => exact .inl ⟨_, reader⟩
  | answer => cases hy
  | finish => cases hy
  | shut => cases hy
  | _ => exact .inl ⟨ids, hy⟩

theorem Step.marked (h : Step x a y) (hx : x.client.closed = x.reader.ended) :
    y.client.closed = y.reader.ended := by
  cases h with
  | answer reader answer pending => exact hx.trans (reader ▸ rfl)
  | ignore reader strange => exact (dispatch_strange strange).closed.trans hx
  | finish reader => exact hx.trans (reader ▸ rfl)
  | shut reader => rfl
  | drain reader => exact hx.trans (reader ▸ rfl)
  | fail reader => exact hx.trans (reader ▸ rfl)
  | aside same => exact same.closed.trans hx
  | _ => exact hx

theorem Exchange.Fresh.ordered (h : x.Fresh) : Ordered [] x where
  marked := by rw [h.opened, h.reader]; rfl
  late ids hids := by rw [h.reader] at hids; cases hids
  raised id hid := by rw [h.phase] at hid; cases hid
  withdrawn _ := nofun
  givenUp _ := nofun

/-- A request that is open while the requests are being failed belongs to a call that finds the mark, or found
it and takes the request out. -/
theorem Ordered.late_step (h : Ordered as x) (hnew : x.phase x.client.nextId = .unused) (hstep : Step x a y)
    {ids : List Nat} (hids : y.reader = .failing ids) (hid : id ∈ y.client.pending) :
    y.phase id = .registered ∨ y.phase id = .refused := by
  rcases hstep.failing hids with ⟨ids', hx⟩ | hnone
  · by_cases ha : a.caller? = some id
    · have hturn := hstep.turn hnew ha
      rcases hstep.pending_sub hid with hopen | rfl
      · rcases h.late ids' hx id hopen with hphase | hphase
        · rw [hphase] at hturn
          generalize y.phase id = p at hturn ⊢
          cases hturn with
          | clear =>
            have hclosed := hstep.clear_opened
            rw [h.marked, hx] at hclosed
            cases hclosed
          | refuse => exact .inr rfl
        · rw [hphase] at hturn
          generalize y.phase id = p at hturn
          cases hturn
          exact absurd hid hstep.withdraw_pending
      · generalize x.phase id = p, y.phase id = q at hturn ⊢
        cases hturn
        exact .inl rfl
    · rw [hstep.phase_other ha]
      exact h.late ids' hx id ((hstep.pending_sub hid).resolve_right fun he => ha (he ▸ rfl))
  · rw [hnone] at hid
    cases hid

/-- A step keeps the order. -/
theorem Ordered.step (h : Ordered as x) (hnew : x.phase x.client.nextId = .unused) (hstep : Step x a y) :
    Ordered (as ++ [a]) y where
  marked := hstep.marked h.marked
  late _ hids _ hid := h.late_step hnew hstep hids hid
  raised id hid hpending := by
    by_cases ha : a.caller? = some id
    · have hturn := hstep.turn hnew ha
      rw [hid] at hturn
      generalize x.phase id = p at hturn
      cases hturn <;> exact hstep.withdraw_pending hpending
    · rw [hstep.phase_other ha] at hid
      exact h.raised id hid ((hstep.pending_sub hpending).resolve_right fun he => ha (he ▸ rfl))
  withdrawn id hd := by
    rcases departure?_snoc_some hd with hd | hd
    · rw [hstep.over hnew (.inl (h.withdrawn id hd)), h.withdrawn id hd]
    · cases (takes?_eq_some hd).1
      have hturn := hstep.turn hnew rfl
      generalize x.phase id = p, y.phase id = q at hturn
      cases hturn <;> rfl
  givenUp id hd := by
    rcases departure?_snoc_some hd with hd | hd
    · rw [hstep.over hnew (.inr (h.givenUp id hd)), h.givenUp id hd]
    · cases (takes?_eq_some hd).1
      have hturn := hstep.turn hnew rfl
      generalize x.phase id = p, y.phase id = q at hturn
      cases hturn
      rfl

theorem Ordered.of_runs (hx : x.Fresh) (h : Runs x as y) : Ordered as y := by
  induction h with
  | nil => exact hx.ordered
  | snoc run step ih => exact ih.step (Consistent.of_runs hx run).nextId_unused step

theorem Step.closed (h : Step x a y) (hx : x.client.closed = true) : y.client.closed = true := by
  cases h with
  | ignore reader strange => exact (dispatch_strange strange).closed.trans hx
  | shut reader => rfl
  | aside same => exact same.closed.trans hx
  | _ => exact hx

theorem turns_snoc : turns id (as ++ [a]) = turns id as ++ if a.caller? = some id then [a] else [] := by
  rw [turns, turns, List.filter_append]
  by_cases ha : a.caller? = some id <;> simp [ha]

/-- After the mark a call that did not look at it before goes back, step by step. -/
theorem Runs.retreats (hx : x.Fresh) (h : Runs x as y) (hclosed : y.client.closed = true)
    (hphase : y.phase id = .registered ∨ y.phase id = .refused) (hrun : Runs y bs z) :
    z.client.closed = true ∧ turns id bs ++ (z.phase id).retreat id = (y.phase id).retreat id ∧
      (z.phase id = .registered ∨ z.phase id = .refused ∨ z.phase id = .raised) := by
  induction hrun with
  | nil => exact ⟨hclosed, rfl, hphase.imp_right .inl⟩
  | @snoc bs a w z run step ih =>
    obtain ⟨hmark, hturns, hw⟩ := ih
    refine ⟨step.closed hmark, ?_⟩
    rw [turns_snoc, List.append_assoc, ← hturns]
    by_cases ha : a.caller? = some id
    · have hturn := step.turn (Consistent.of_runs hx (h.trans run)).nextId_unused ha
      rw [if_pos ha]
      rcases hw with hw | hw | hw
      · rw [hw] at hturn ⊢
        generalize z.phase id = p at hturn ⊢
        cases hturn with
        | clear => exact absurd (step.clear_opened.symm.trans hmark) Bool.false_ne_true
        | refuse => exact ⟨rfl, .inr (.inl rfl)⟩
      · rw [hw] at hturn ⊢
        generalize z.phase id = p at hturn ⊢
        cases hturn
        exact ⟨rfl, .inr (.inr rfl)⟩
      · rw [hw] at hturn
        generalize z.phase id = p at hturn
        cases hturn
    · rw [if_neg ha, step.phase_other ha]
      exact ⟨rfl, hw⟩

theorem Runs.mustRaise (hx : x.Fresh) (h : Runs x as y) (hclosed : y.client.closed = true)
    (hphase : y.phase id = .registered ∨ y.phase id = .refused) : MustRaise id y := by
  intro bs z hrun
  obtain ⟨hmark, hturns, hz⟩ := h.retreats hx hclosed hphase hrun
  refine ⟨hturns, ?_, fun hnone => ?_⟩
  · rintro a ha
    rcases hz with hz | hz | hz <;> rw [hz] at ha <;> cases ha
    · exact ⟨_, .refuse hz hmark⟩
    · exact ⟨_, .withdraw (.inl hz)⟩
  · rcases hz with hz | hz | hz
    · rw [hz] at hnone
      cases hnone
    · rw [hz] at hnone
      cases hnone
    · exact ⟨hz, (Ordered.of_runs hx (h.trans hrun)).raised id hz⟩

/-- A request that is not open any more, and that its caller neither took out nor is owed, is completed. -/
theorem Consistent.isCompleted (h : Consistent as y) (hordered : Ordered as y) (howes : y.reader.owes id = [])
    (hissued : y.phase id ≠ .unused) (hgone : id ∉ y.client.pending) (hraised : y.phase id ≠ .raised)
    (habandoned : y.phase id ≠ .abandoned) : IsCompleted id as y := by
  have hid : id ∈ issued as := not_not.mp fun hnot => hissued ((h.unused id).mpr hnot)
  have hcompleted := h.completed id
  rw [howes, List.append_nil] at hcompleted
  obtain ⟨o, ho⟩ : ∃ o, completions id as = [o] := by
    rw [hcompleted]
    cases hd : departure? id as with
    | none => exact absurd ((h.pending id).mpr ⟨hid, hd⟩) hgone
    | some d =>
      cases d with
      | answered m => exact ⟨_, rfl⟩
      | withdrawn => exact absurd (hordered.withdrawn id hd) hraised
      | givenUp => exact absurd (hordered.givenUp id hd) habandoned
      | drained => exact ⟨_, rfl⟩
  refine ⟨o, ho, by rw [h.outcome, ho]; rfl, ?_⟩
  rcases h.source (ho ▸ List.mem_singleton_self o) with ⟨bs, m, cs, rfl, -, hanswers, rfl⟩ | ⟨bs, cs, -, -, rfl⟩
  · exact .inr ⟨m, by simp, hanswers, rfl⟩
  · exact .inl rfl

/-- When the reader is through, every request whose call has returned and that was not given up is completed;
a call that is still running has its request completed, or can only raise and take it out; and with no call
running no request is open. -/
theorem Runs.end_strands_none (hx : x.Fresh) (h : Runs x as y) (hend : y.reader = .failing []) :
    (∀ id, y.phase id = .returned ∨ y.phase id = .expired → IsCompleted id as y) ∧
    (∀ id, (y.phase id).isRunning = true → IsCompleted id as y ∨ MustRaise id y) ∧
    ((∀ id, (y.phase id).isRunning = false) → y.client.pending = []) := by
  have hy := Consistent.of_runs hx h
  have hordered := Ordered.of_runs hx h
  have howes (id : Nat) : y.reader.owes id = [] := by simp [hend, Reader.owes]
  have hclosed : y.client.closed = true := by
    rw [hordered.marked, hend]
    rfl
  have hlate := hordered.late [] hend
  -- a call that looked at the mark before it was set has no open request any more
  have hcompleted {id : Nat} {p : Phase} (hp : y.phase id = p)
      (hearly : p ≠ .unused ∧ p ≠ .registered ∧ p ≠ .refused ∧ p ≠ .raised ∧ p ≠ .abandoned) :
      IsCompleted id as y := by
    subst hp
    refine hy.isCompleted hordered (howes id) hearly.1 (fun hid => ?_) hearly.2.2.2.1 hearly.2.2.2.2
    exact (hlate id hid).elim hearly.2.1 hearly.2.2.1
  refine ⟨?_, fun id hrunning => ?_, fun hdone => ?_⟩
  · rintro id (hp | hp)
    · exact hcompleted hp (by decide)
    · exact hcompleted hp (by decide)
  · cases hp : y.phase id with
    | registered => exact .inr (h.mustRaise hx hclosed (.inl hp))
    | refused => exact .inr (h.mustRaise hx hclosed (.inr hp))
    | cleared => exact .inl (hcompleted hp (by decide))
    | unwritten => exact .inl (hcompleted hp (by decide))
    | written => exact .inl (hcompleted hp (by decide))
    | _ =>
      rw [hp] at hrunning
      cases hrunning
  · refine List.eq_nil_iff_forall_not_mem.mpr fun id hid => ?_
    have hidle := hdone id
    rcases hlate id hid with hp | hp <;> rw [hp] at hidle <;> cases hidle

end

/-- A request was handed over, another was about to be written, and a third call did not look yet when the
stream ended; a fourth came after its requests were taken out. -/
theorem Runs.end_strands_none_fourCallers :
    ∃ as y, (Exchange.ofCommand ["server"]).Fresh ∧ Runs (Exchange.ofCommand ["server"]) as y ∧
      y.reader = .failing [] ∧ y.client.pending = [4] ∧ IsCompleted 1 as y ∧ MustRaise 4 y := by
  have hopened := ((((((Runs.nil (x := Exchange.ofCommand ["server"])).snoc .issue).snoc
    (@Step.clear _ 1 rfl rfl)).snoc (@Step.write _ 1 rfl)).snoc (@Step.handOver _ 1 rfl)).snoc .issue).snoc
    (@Step.clear _ 2 rfl rfl)
  have hended := ((((((hopened.snoc (.shut rfl)).snoc .issue).snoc (.drain rfl)).snoc .issue).snoc
    (@Step.fail _ 1 [2, 3] rfl)).snoc (.fail rfl)).snoc (.fail rfl)
  have hfresh := Exchange.ofCommand_fresh ["server"]
  obtain ⟨hreturned, hrunning, -⟩ := end_strands_none hfresh hended rfl
  refine ⟨_, _, hfresh, hended, rfl, rfl, hreturned 1 (.inl rfl), (hrunning 4 rfl).resolve_left ?_⟩
  rintro ⟨o, hone, -⟩
  cases hone

end Highlighter.Protocol

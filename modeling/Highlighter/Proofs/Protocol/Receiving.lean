import Highlighter.Protocol.Client
import Highlighter.Proofs.Protocol.Framing

/-! What becomes of the frames that a server sends. Bytes may arrive in any pieces: the client makes the same
of them. A frame that cannot be used is remarked on and costs no other frame, with exceptions, which are
stated as well: a number with too many digits and a length that no read can ask for end the reading, and the
bytes after a header without a length are read as the next header. -/

namespace Highlighter.Protocol

open Highlighter.Json (Members Value)
open Highlighter.Text (Bytes)

/-- What a client makes of a frame. -/
def Client.absorb (c : Client) : Arrival → Client
  | .message members => c.dispatch members
  | .ended => c
  | .unusable e => c.remark (.unusable e)
  | .hugeInteger digits => (c.remark (.unreadable (.hugeInteger digits))).close
  | .oversized => c.close

/-- The reading ends with it: a number with too many digits, or a length that no read can ask for. -/
inductive Arrival.Stops : Arrival → Prop
  | hugeInteger (digits : Nat) : Stops (.hugeInteger digits)
  | oversized : Stops .oversized

theorem Arrival.Stops.ne_ended {a : Arrival} (h : a.Stops) : a ≠ .ended := by
  cases h <;> nofun

section
variable {bs more before header rest : Bytes}

/-! ### Bytes in pieces -/

theorem splitHeader_append_rest (h : splitHeader before bs = some (header, rest)) :
    splitHeader before (bs ++ more) = some (header, rest ++ more) := by
  induction bs generalizing before with
  | nil => cases h
  | cons b bs ih =>
    rw [List.cons_append, splitHeader]
    rw [splitHeader] at h
    split at h
    · cases h
      rw [if_pos (by assumption)]
    · rw [if_neg (by assumption), ih h]

theorem length_splitHeader (h : splitHeader before bs = some (header, rest)) : rest.length < bs.length := by
  induction bs generalizing before with
  | nil => cases h
  | cons b bs ih =>
    rw [splitHeader] at h
    split at h
    · cases h
      exact Nat.lt_succ_self _
    · exact (ih h).trans (Nat.lt_succ_self _)

/-- A frame that has arrived in full is not changed by what follows it. -/
theorem frameOf_append (h : (frameOf bs).1 ≠ .ended) :
    frameOf (bs ++ more) = ((frameOf bs).1, (frameOf bs).2 ++ more) := by
  unfold frameOf at h ⊢
  cases hsplit : splitHeader [] bs with
  | none => simp [hsplit] at h
  | some parts =>
    obtain ⟨header, rest⟩ := parts
    rw [splitHeader_append_rest hsplit]
    simp only [hsplit] at h ⊢
    cases hlength : announcedLength header with
    | none => rfl
    | some length =>
      simp only [hlength] at h ⊢
      by_cases hhuge : greatestRead < length
      · rw [if_pos hhuge, if_pos hhuge]
      rw [if_neg hhuge] at h
      rw [if_neg hhuge, if_neg hhuge]
      by_cases hshort : rest.length < length
      · simp [hshort] at h
      · rw [if_neg hshort, if_neg (by rw [List.length_append]; omega), List.take_append_of_le_length (by omega),
          List.drop_append_of_le_length (by omega)]

theorem length_frameOf (h : (frameOf bs).1 ≠ .ended) : (frameOf bs).2.length < bs.length := by
  unfold frameOf at h ⊢
  cases hsplit : splitHeader [] bs with
  | none => simp [hsplit] at h
  | some parts =>
    obtain ⟨header, rest⟩ := parts
    have hrest := length_splitHeader hsplit
    simp only [hsplit] at h ⊢
    cases hlength : announcedLength header with
    | none => exact hrest
    | some length =>
      simp only [hlength] at h ⊢
      by_cases hhuge : greatestRead < length
      · rw [if_pos hhuge]
        exact hrest
      rw [if_neg hhuge] at h ⊢
      by_cases hshort : rest.length < length
      · simp [hshort] at h
      · rw [if_neg hshort, List.length_drop]
        omega

end

namespace Client

variable {c : Client} {a : Arrival} {bs more rest : Bytes} {fuel fuel' : Nat} {members : Members} {e : FrameError}

/-- A client with other bytes to be used. -/
def withUnread (c : Client) (bs : Bytes) : Client := { c with unread := bs }

/-! ### What a frame leaves alone -/

@[simp]
theorem withUnread_unread : (c.withUnread bs).unread = bs := rfl

@[simp]
theorem withUnread_listening : (c.withUnread bs).listening = c.listening := rfl

@[simp]
theorem withUnread_withUnread : (c.withUnread bs).withUnread more = c.withUnread more := rfl

theorem remark_withUnread (n : Note) : (c.withUnread bs).remark n = (c.remark n).withUnread bs := rfl

theorem dispatch_withUnread (m : Members) : (c.withUnread bs).dispatch m = (c.dispatch m).withUnread bs := by
  unfold dispatch
  split
  · rfl
  split
  · rfl
  · have hpending : (c.withUnread bs).pending = c.pending := rfl
    rw [hpending]
    split <;> rfl

theorem settle_withUnread (id : Nat) (o : Outcome) :
    (c.withUnread bs).settle id o = (c.settle id o).withUnread bs := rfl

theorem close_withUnread : (c.withUnread bs).close = c.close := by
  have hfold (ids : List Nat) (c : Client) :
      ids.foldl (fun c id => c.settle id (.failed .streamClosed)) (c.withUnread bs) =
        (ids.foldl (fun c id => c.settle id (.failed .streamClosed)) c).withUnread bs := by
    induction ids generalizing c with
    | nil => rfl
    | cons id ids ih => rw [List.foldl_cons, settle_withUnread, ih, List.foldl_cons]
  have hpending : (c.withUnread bs).pending = c.pending := rfl
  simp only [close, hpending, hfold]
  rfl

@[simp]
theorem remark_unread (n : Note) : (c.remark n).unread = c.unread := rfl

@[simp]
theorem remark_listening (n : Note) : (c.remark n).listening = c.listening := rfl

theorem dispatch_same (m : Members) :
    (c.dispatch m).unread = c.unread ∧ (c.dispatch m).listening = c.listening := by
  unfold dispatch
  split
  · exact ⟨rfl, rfl⟩
  split
  · exact ⟨rfl, rfl⟩
  · split <;> exact ⟨rfl, rfl⟩

@[simp]
theorem dispatch_unread (m : Members) : (c.dispatch m).unread = c.unread := (dispatch_same m).1

@[simp]
theorem dispatch_listening (m : Members) : (c.dispatch m).listening = c.listening := (dispatch_same m).2

/-! ### One frame after another -/

theorem useFrames_succ : useFrames (fuel + 1) c = match frameOf c.unread with
    | (.ended, _) => c
    | (.message members, rest) => useFrames fuel ((c.withUnread rest).dispatch members)
    | (.unusable e, rest) => useFrames fuel ((c.withUnread rest).remark (.unusable e))
    | (.hugeInteger digits, _) => (c.remark (.unreadable (.hugeInteger digits))).close
    | (.oversized, _) => c.close := by
  have hread := readFrame_eq { unread := c.unread, cut := fun _ => c.unread.length }
  rw [useFrames]
  generalize readFrame { unread := c.unread, cut := fun _ => c.unread.length } = found at hread
  obtain ⟨arrival, s⟩ := found
  generalize frameOf c.unread = expected at hread
  obtain ⟨arrival', rest⟩ := expected
  obtain ⟨rfl, rfl⟩ := hread
  cases arrival <;> rfl

/-- The fuel does not matter where it is more than the number of bytes. -/
theorem useFrames_congr (h : c.unread.length < fuel) (h' : c.unread.length < fuel') :
    useFrames fuel c = useFrames fuel' c := by
  induction fuel generalizing c fuel' with
  | zero => omega
  | succ fuel ih =>
    obtain ⟨fuel', rfl⟩ : ∃ n, fuel' = n + 1 := ⟨fuel' - 1, by omega⟩
    rw [useFrames_succ, useFrames_succ]
    have hlength := @length_frameOf c.unread
    generalize frameOf c.unread = found at hlength
    obtain ⟨arrival, rest⟩ := found
    cases arrival with
    | ended => rfl
    | hugeInteger digits => rfl
    | oversized => rfl
    | message members =>
      have hrest : rest.length < c.unread.length := hlength nofun
      exact ih (by rw [dispatch_unread]; exact hrest.trans_le (by omega))
        (by rw [dispatch_unread]; exact hrest.trans_le (by omega))
    | unusable e =>
      have hrest : rest.length < c.unread.length := hlength nofun
      exact ih (by rw [remark_unread]; exact hrest.trans_le (by omega))
        (by rw [remark_unread]; exact hrest.trans_le (by omega))

/-- Uses the frames that are there. -/
def use (c : Client) : Client := useFrames (c.unread.length + 1) c

theorem use_ended (h : (frameOf c.unread).1 = .ended) : c.use = c := by
  rw [use, useFrames_succ]
  generalize frameOf c.unread = found at h
  obtain ⟨arrival, rest⟩ := found
  cases h
  rfl

theorem use_message (h : frameOf c.unread = (.message members, rest)) :
    c.use = ((c.withUnread rest).dispatch members).use := by
  have hlength : (frameOf c.unread).2.length < c.unread.length := length_frameOf (by rw [h]; nofun)
  rw [use, useFrames_succ, h]
  rw [h] at hlength
  exact useFrames_congr (by rw [dispatch_unread]; exact hlength) (Nat.lt_succ_self _)

theorem use_unusable (h : frameOf c.unread = (.unusable e, rest)) :
    c.use = ((c.withUnread rest).remark (.unusable e)).use := by
  have hlength : (frameOf c.unread).2.length < c.unread.length := length_frameOf (by rw [h]; nofun)
  rw [use, useFrames_succ, h]
  rw [h] at hlength
  exact useFrames_congr (by rw [remark_unread]; exact hlength) (Nat.lt_succ_self _)

/-- A frame that ends the reading is the last one that is used. -/
theorem use_stops (ha : a.Stops) (h : (frameOf c.unread).1 = a) : c.use = c.absorb a := by
  rw [use, useFrames_succ]
  generalize frameOf c.unread = found at h
  obtain ⟨arrival, rest⟩ := found
  cases ha <;> cases h <;> rfl

theorem absorb_stops (ha : a.Stops) : (c.withUnread bs).absorb a = c.absorb a := by
  cases ha with
  | hugeInteger digits =>
    simp only [Client.absorb]
    rw [remark_withUnread, close_withUnread]
  | oversized => exact close_withUnread

theorem listening_absorb_stops (ha : a.Stops) : (c.absorb a).listening = false := by
  cases ha <;> rfl

/-! ### Bytes in pieces -/

/-- Bytes may be added before or after the frames before them are used. -/
theorem use_append (hc : c.listening = true) : (c.withUnread (bs ++ more)).use =
    if (c.withUnread bs).use.listening then
      ((c.withUnread bs).use.withUnread ((c.withUnread bs).use.unread ++ more)).use
    else (c.withUnread bs).use := by
  induction hn : bs.length using Nat.strongRecOn generalizing c bs with
  | ind n ih =>
    subst hn
    have hlength := @length_frameOf bs
    have happend := @frameOf_append bs more
    cases hfound : frameOf bs with
    | mk arrival rest =>
      rw [hfound] at hlength happend
      have hstops (ha : arrival.Stops) : (c.withUnread (bs ++ more)).use =
          if (c.withUnread bs).use.listening then
            ((c.withUnread bs).use.withUnread ((c.withUnread bs).use.unread ++ more)).use
          else (c.withUnread bs).use := by
        have hbefore := @use_stops (c.withUnread bs) arrival ha (by rw [withUnread_unread, hfound])
        have hafter := @use_stops (c.withUnread (bs ++ more)) arrival ha
          (by rw [withUnread_unread, happend ha.ne_ended])
        rw [absorb_stops ha] at hbefore hafter
        rw [hbefore, hafter, if_neg (by simp [listening_absorb_stops ha])]
      cases arrival with
      | ended =>
        have hbefore : (c.withUnread bs).use = c.withUnread bs := use_ended (by rw [withUnread_unread, hfound])
        rw [hbefore, if_pos (by rw [withUnread_listening, hc])]
        rfl
      | hugeInteger digits => exact hstops (.hugeInteger digits)
      | oversized => exact hstops .oversized
      | message members =>
        have hbefore := @use_message (c.withUnread bs) rest members hfound
        have hafter := @use_message (c.withUnread (bs ++ more)) (rest ++ more) members (happend nofun)
        rw [withUnread_withUnread, dispatch_withUnread] at hbefore hafter
        rw [hbefore, hafter]
        exact ih rest.length (hlength nofun) (by rw [dispatch_listening, hc]) rfl
      | unusable e =>
        have hbefore := @use_unusable (c.withUnread bs) rest e hfound
        have hafter := @use_unusable (c.withUnread (bs ++ more)) (rest ++ more) e (happend nofun)
        rw [withUnread_withUnread, remark_withUnread] at hbefore hafter
        rw [hbefore, hafter]
        exact ih rest.length (hlength nofun) (by rw [remark_listening, hc]) rfl

theorem receive_eq (hc : c.listening = true) (inbound : Inbound) : c.receive inbound =
    if inbound.ends && (c.withUnread (c.unread ++ inbound.bytes)).use.listening then
      (c.withUnread (c.unread ++ inbound.bytes)).use.close
    else (c.withUnread (c.unread ++ inbound.bytes)).use := by
  have hnot : ¬ (!c.listening) = true := by simp [hc]
  rw [receive, if_neg hnot]
  rfl

theorem receive_of_not_listening (hc : c.listening = false) (inbound : Inbound) : c.receive inbound = c := by
  rw [receive, hc]
  rfl

/-- What a client has made of bytes that came in pieces, at the end of the stream. -/
def receiveAll (c : Client) (pieces : List Bytes) : Client :=
  (pieces.foldl (fun c bytes => c.receive { bytes }) c).receive { ends := true }

theorem receive_append (more : Inbound) : (c.receive { bytes := bs }).receive more =
    c.receive { bytes := bs ++ more.bytes, ends := more.ends } := by
  cases hc : c.listening with
  | false => simp only [receive_of_not_listening hc]
  | true =>
    have happend := @use_append c (c.unread ++ bs) more.bytes hc
    rw [receive_eq hc, receive_eq hc, ← List.append_assoc, happend]
    simp only [Bool.false_and, Bool.false_eq_true, if_false]
    generalize (c.withUnread (c.unread ++ bs)).use = c' at happend ⊢
    cases hc' : c'.listening with
    | false => simp [receive_of_not_listening hc', hc']
    | true => simp only [receive_eq hc', if_true]

theorem receiveAll_flatten (pieces : List Bytes) :
    c.receiveAll pieces = c.receive { bytes := pieces.flatten, ends := true } := by
  induction pieces generalizing c with
  | nil => rfl
  | cons bytes pieces ih =>
    have hrest : c.receiveAll (bytes :: pieces) = (c.receive { bytes }).receiveAll pieces := rfl
    rw [hrest, ih, receive_append, List.flatten_cons]

end Client

/-! ### Frames that are sent -/

/-- A frame as a server sends it: a header block and a body. -/
structure Sent where
  header : Bytes
  body : Bytes

namespace Sent

def bytes (f : Sent) : Bytes := f.header ++ headerBreak ++ f.body

/-- The header block ends where the frame has its end, and a length that it gives is that of the body, or none
that a body can have. -/
structure WellFormed (f : Sent) : Prop where
  unbroken : Unbroken f.header
  length : ∀ n ∈ announcedLength f.header, n ≤ greatestRead → n = f.body.length

/-- What the frame is by itself. -/
def arrival (f : Sent) : Arrival :=
  match announcedLength f.header with
  | none => .unusable (.header f.header)
  | some n => if greatestRead < n then .oversized else ofBody f.body

/-- The frame costs at most itself: it does not end the reading, and nothing follows a header without a
length. -/
structure Contained (f : Sent) : Prop where
  readable : ¬ f.arrival.Stops
  bodiless : announcedLength f.header = none → f.body = []

variable {f : Sent} {rest : Bytes}

/-- The body that a header announces is taken with it. -/
theorem frameOf_bytes {n : Nat} (hf : f.WellFormed) (hn : announcedLength f.header = some n)
    (h : n ≤ greatestRead) :
    frameOf (f.bytes ++ rest) = (f.arrival, rest) := by
  obtain rfl := hf.length n hn h
  rw [bytes, List.append_assoc, frameOf, splitHeader_headerBreak hf.unbroken]
  simp only [hn, arrival, if_neg (Nat.not_lt.mpr h)]
  rw [if_neg (by rw [List.length_append]; omega), List.take_left, List.drop_left]

/-- After a header without a length, what follows it is left to be read. -/
theorem frameOf_lengthless (hf : f.WellFormed) (hlength : announcedLength f.header = none) :
    frameOf (f.bytes ++ rest) = (f.arrival, f.body ++ rest) := by
  rw [bytes, List.append_assoc, frameOf, splitHeader_headerBreak hf.unbroken]
  simp only [hlength, arrival]

theorem frameOf_oversized {n : Nat} (hf : f.WellFormed) (hn : announcedLength f.header = some n)
    (h : greatestRead < n) : frameOf (f.bytes ++ rest) = (.oversized, f.body ++ rest) := by
  rw [bytes, List.append_assoc, frameOf, splitHeader_headerBreak hf.unbroken]
  simp only [hn, if_pos h]

theorem arrival_oversized {n : Nat} (hn : announcedLength f.header = some n) (h : greatestRead < n) :
    f.arrival = .oversized := by
  simp only [arrival, hn, if_pos h]

/-- What is at the front of bytes that start with the frame. -/
theorem frameOf_fst (hf : f.WellFormed) : (frameOf (f.bytes ++ rest)).1 = f.arrival := by
  cases hlength : announcedLength f.header with
  | none => rw [frameOf_lengthless hf hlength]
  | some n =>
    rcases Nat.lt_or_ge greatestRead n with hhuge | hsize
    · rw [frameOf_oversized hf hlength hhuge, arrival_oversized hlength hhuge]
    · rw [frameOf_bytes hf hlength hsize]

theorem frameOf_contained (hf : f.WellFormed) (hc : f.Contained) :
    frameOf (f.bytes ++ rest) = (f.arrival, rest) := by
  cases hlength : announcedLength f.header with
  | none => rw [frameOf_lengthless hf hlength, hc.bodiless hlength, List.nil_append]
  | some n =>
    refine frameOf_bytes hf hlength (Nat.not_lt.mp fun hhuge => hc.readable ?_)
    rw [arrival_oversized hlength hhuge]
    exact .oversized

theorem ofBody_ne_ended (body : Bytes) : ofBody body ≠ .ended := by
  unfold ofBody
  split
  · nofun
  · split <;> nofun

theorem arrival_ne_ended : f.arrival ≠ .ended := by
  unfold arrival
  split
  · nofun
  split
  · nofun
  · exact ofBody_ne_ended _

end Sent

namespace Client

/-- What a client makes of frames, one after another. -/
def absorbAll (c : Client) (frames : List Sent) : Client := frames.foldl (fun c f => c.absorb f.arrival) c

variable {c : Client} {f : Sent} {frames : List Sent} {bs rest more : Bytes} {pieces : List Bytes}

/-- A client that reads from the start of a frame. -/
structure Reading (c : Client) : Prop where
  listening : c.listening = true
  unread : c.unread = []

theorem Reading.absorb (hc : c.Reading) (h : ¬ f.arrival.Stops) : (c.absorb f.arrival).Reading := by
  cases harrival : f.arrival with
  | message m => exact ⟨(dispatch_listening m).trans hc.listening, (dispatch_unread m).trans hc.unread⟩
  | ended => exact hc
  | unusable e => exact ⟨hc.listening, hc.unread⟩
  | hugeInteger digits => exact absurd (harrival ▸ .hugeInteger digits) h
  | oversized => exact absurd (harrival ▸ .oversized) h

theorem Reading.absorbAll (hc : c.Reading) (hframes : ∀ f ∈ frames, f.Contained) :
    (c.absorbAll frames).Reading := by
  induction frames generalizing c with
  | nil => exact hc
  | cons f frames ih =>
    obtain ⟨hf, hframes⟩ := List.forall_mem_cons.mp hframes
    exact ih (hc.absorb hf.readable) hframes

/-- What becomes of a client at the end of the stream, after the last bytes. -/
theorem Reading.receive_ends (hc : c.Reading) : c.receive { bytes := bs, ends := true } =
    if (c.withUnread bs).use.listening then (c.withUnread bs).use.close else (c.withUnread bs).use := by
  rw [receive_eq hc.listening, hc.unread]
  rfl

/-- A frame that is there in full and does not end the reading is used. -/
theorem Reading.receive_absorb (hc : c.Reading) (hfront : frameOf bs = (f.arrival, more))
    (h : ¬ f.arrival.Stops) : c.receive { bytes := bs, ends := true } =
      (c.absorb f.arrival).receive { bytes := more, ends := true } := by
  have huse : (c.withUnread bs).use = ((c.absorb f.arrival).withUnread more).use := by
    cases hcases : f.arrival with
    | message m =>
      rw [hcases] at hfront
      exact (use_message hfront).trans (congrArg use (@dispatch_withUnread c more m))
    | ended => exact absurd hcases Sent.arrival_ne_ended
    | unusable e =>
      rw [hcases] at hfront
      exact use_unusable hfront
    | hugeInteger digits => exact absurd (hcases ▸ .hugeInteger digits) h
    | oversized => exact absurd (hcases ▸ .oversized) h
  rw [hc.receive_ends, (hc.absorb h).receive_ends, huse]

theorem Reading.receive_stops {a : Arrival} (hc : c.Reading) (ha : a.Stops) (hfront : (frameOf bs).1 = a) :
    c.receive { bytes := bs, ends := true } = c.absorb a := by
  have huse : (c.withUnread bs).use = c.absorb a := by
    rw [use_stops ha hfront, absorb_stops ha]
  rw [hc.receive_ends, huse, if_neg (by simp [listening_absorb_stops ha])]

/-- Bytes in which no header block ends are of no use. -/
theorem Reading.receive_unbroken (hc : c.Reading) (h : ¬ headerBreak <:+: bs) :
    c.receive { bytes := bs, ends := true } = c.close := by
  have hended : (frameOf bs).1 = .ended := by
    have hsplit := @splitHeader_append [] [] bs h
    rw [List.append_nil] at hsplit
    rw [frameOf, hsplit]
    rfl
  have huse : (c.withUnread bs).use = c.withUnread bs := use_ended hended
  rw [hc.receive_ends, huse, withUnread_listening, if_pos hc.listening, close_withUnread]

/-- Frames that cost at most themselves are used one after another. -/
theorem Reading.receive_absorbAll (hc : c.Reading) (hwell : ∀ f ∈ frames, f.WellFormed)
    (hframes : ∀ f ∈ frames, f.Contained) :
    c.receive { bytes := frames.flatMap Sent.bytes ++ rest, ends := true } =
      (c.absorbAll frames).receive { bytes := rest, ends := true } := by
  induction frames generalizing c with
  | nil => rfl
  | cons f frames ih =>
    obtain ⟨hf, hframes⟩ := List.forall_mem_cons.mp hframes
    obtain ⟨hw, hwell⟩ := List.forall_mem_cons.mp hwell
    rw [List.flatMap_cons, List.append_assoc, hc.receive_absorb (Sent.frameOf_contained hw hf) hf.readable,
      ih (hc.absorb hf.readable) hwell hframes]
    rfl

/-- What a client makes of the frames that a server sends up to the end of its stream. -/
theorem receiveAll_frames (hc : c.Reading) (hwell : ∀ f ∈ frames, f.WellFormed)
    (hpieces : pieces.flatten = frames.flatMap Sent.bytes) :
    ((∀ f ∈ frames, f.Contained) → c.receiveAll pieces = (c.absorbAll frames).close) ∧
    ∀ used f later, frames = used ++ f :: later → (∀ g ∈ used, g.Contained) →
      (f.arrival.Stops → c.receiveAll pieces = c.absorbAll (used ++ [f])) ∧
      (announcedLength f.header = none → c.receiveAll pieces = (c.absorbAll (used ++ [f])).receive
        { bytes := f.body ++ later.flatMap Sent.bytes, ends := true }) ∧
      (announcedLength f.header = none → later = [] → ¬ headerBreak <:+: f.body →
        c.receiveAll pieces = (c.absorbAll frames).close) := by
  rw [receiveAll_flatten, hpieces]
  constructor
  · intro hframes
    have huse := @Reading.receive_absorbAll c frames [] hc hwell hframes
    rw [List.append_nil] at huse
    rw [huse, (hc.absorbAll hframes).receive_unbroken (by decide)]
  · rintro used f later rfl hused
    have hwellUsed : ∀ g ∈ used, g.WellFormed := fun g hg => hwell g (by simp [hg])
    have hf : f.WellFormed := hwell f (by simp)
    have hreading := hc.absorbAll hused
    have habsorbed : c.absorbAll (used ++ [f]) = (c.absorbAll used).absorb f.arrival := by
      simp [Client.absorbAll]
    rw [List.flatMap_append, hc.receive_absorbAll hwellUsed hused, List.flatMap_cons, habsorbed]
    have hlengthless (hnone : announcedLength f.header = none) : ¬ f.arrival.Stops ∧
        (c.absorbAll used).receive { bytes := f.bytes ++ later.flatMap Sent.bytes, ends := true } =
          ((c.absorbAll used).absorb f.arrival).receive
            { bytes := f.body ++ later.flatMap Sent.bytes, ends := true } := by
      have hreadable : ¬ f.arrival.Stops := by
        rw [Sent.arrival, hnone]
        nofun
      exact ⟨hreadable, hreading.receive_absorb (Sent.frameOf_lengthless hf hnone) hreadable⟩
    refine ⟨fun hstops => ?_, fun hnone => (hlengthless hnone).2, ?_⟩
    · exact hreading.receive_stops hstops (Sent.frameOf_fst hf)
    · rintro hnone rfl hbody
      obtain ⟨hreadable, huse⟩ := hlengthless hnone
      rw [huse, (hreading.absorb hreadable).receive_unbroken (by simpa using hbody), habsorbed]

/-! ### Frames before an answer -/

/-- A client that waits for the answer to its second request. -/
def asking : Client :=
  { command := [], nextId := 3, pending := [2], outcomes := [(2, .waiting)], listening := true }

theorem asking_reading : asking.Reading := ⟨rfl, rfl⟩

/-- The answer to it. -/
def answer : Members := [("jsonrpc", .string "2.0"), ("id", .int 2), ("result", .int 7)]

def answering : Sent where
  header := headerOf (Json.compact (.object answer)).length
  body := Text.encodeUtf8 (Json.compact (.object answer))

theorem framable_answer : Framable answer where
  sendable := by
    have hplain (text : String) := Json.unpaired_ofString text
    refine .object (by decide) ?_ ?_ <;> simp only [answer, List.forall_mem_cons]
    · exact ⟨hplain _, hplain _, hplain _, nofun⟩
    · exact ⟨.string (hplain _), .int (by decide), .int (by decide), nofun⟩
  readable := by decide +kernel

theorem answering_wellFormed : answering.WellFormed where
  unbroken := unbroken_of_not_mem (not_mem_headerOf _)
  length n hn _ := by
    have hlength := length_encodeUtf8_ascii framable_answer.sendable.ascii_compact
    rw [answering, announcedLength_frame framable_answer] at hn
    cases hn
    exact hlength.symm

theorem answering_arrival : answering.arrival = .message answer := by
  rw [Sent.arrival, answering, announcedLength_frame framable_answer]
  dsimp only
  rw [if_neg (Nat.not_lt.mpr framable_answer.readable)]
  exact framable_answer.ofBody

theorem answering_contained : answering.Contained where
  readable := by
    rw [answering_arrival]
    nofun
  bodiless hnone := by
    have harrival := answering_arrival
    rw [Sent.arrival, hnone] at harrival
    cases harrival

/-- A body that is no JSON, and a header without a length. -/
def spoilt : List Sent :=
  [⟨headerOf 5, Text.encodeUtf8 "\x7bbad\x7d".toList⟩, ⟨Text.encodeUtf8 "Foo: bar".toList, []⟩]

theorem spoilt_wellFormed : ∀ f ∈ spoilt, f.WellFormed := by
  have hspoilt : ∀ f ∈ spoilt, (13 : UInt8) ∉ f.header ∧ ∀ n ∈ announcedLength f.header, n = f.body.length := by
    decide +kernel
  exact fun f hf => ⟨unbroken_of_not_mem (hspoilt f hf).1, fun n hn _ => (hspoilt f hf).2 n hn⟩

theorem spoilt_contained : ∀ f ∈ spoilt, f.Contained := by
  have hbodiless : ∀ f ∈ spoilt, announcedLength f.header = none → f.body = [] := by decide +kernel
  have harrivals : ∀ f ∈ spoilt, ∃ e, f.arrival = .unusable e :=
    List.forall_mem_cons.mpr ⟨⟨_, rfl⟩, List.forall_mem_cons.mpr ⟨⟨_, rfl⟩, nofun⟩⟩
  refine fun f hf => ⟨?_, hbodiless f hf⟩
  obtain ⟨e, harrival⟩ := harrivals f hf
  rw [harrival]
  nofun

theorem absorbAll_spoilt : asking.absorbAll (spoilt ++ [answering]) =
    ((asking.remark (.unusable (.malformed (.malformed .name 1 1 2)))).remark
      (.unusable (.header (Text.encodeUtf8 "Foo: bar".toList)))).dispatch answer := by
  have harrivals : spoilt.map (·.arrival) = [.unusable (.malformed (.malformed .name 1 1 2)),
    .unusable (.header (Text.encodeUtf8 "Foo: bar".toList))] := rfl
  have hfold (frames : List Sent) : asking.absorbAll frames = (frames.map (·.arrival)).foldl absorb asking :=
    List.foldl_map.symm
  rw [hfold, List.map_append, harrivals, List.map_singleton, answering_arrival]
  rfl

/-- Both spoilt frames are remarked on, and the answer after them is taken, though all comes byte by byte. -/
theorem receiveAll_frames_spoilt : ∃ received,
    asking.receiveAll (((spoilt ++ [answering]).flatMap Sent.bytes).map ([·])) = received ∧
      received.outcome 2 = .answered (.int 7) ∧ received.notes =
        [.unusable (.malformed (.malformed .name 1 1 2)),
          .unusable (.header (Text.encodeUtf8 "Foo: bar".toList))] := by
  have hwell : ∀ f ∈ spoilt ++ [answering], f.WellFormed :=
    List.forall_mem_append.mpr ⟨spoilt_wellFormed, List.forall_mem_singleton.mpr answering_wellFormed⟩
  have hcontained : ∀ f ∈ spoilt ++ [answering], f.Contained :=
    List.forall_mem_append.mpr ⟨spoilt_contained, List.forall_mem_singleton.mpr answering_contained⟩
  have hpieces : (((spoilt ++ [answering]).flatMap Sent.bytes).map ([·])).flatten =
      (spoilt ++ [answering]).flatMap Sent.bytes := by
    rw [← List.flatMap_def, List.flatMap_singleton']
  refine ⟨_, (receiveAll_frames asking_reading hwell hpieces).1 hcontained, ?_⟩
  rw [absorbAll_spoilt]
  exact ⟨rfl, rfl⟩

/-- A header without a length, and a body after it. -/
def lengthless : Sent := ⟨Text.encodeUtf8 "Foo: bar".toList, Text.encodeUtf8 "body".toList⟩

/-- A frame whose body is a number. -/
def numbered (n : Nat) : Sent where
  header := headerOf (Nat.toDigits 10 n).length
  body := Text.encodeUtf8 (Nat.toDigits 10 n)

theorem numbered_huge {n : Nat} (h : (Nat.toDigits 10 n).length = 4301) :
    (numbered n).WellFormed ∧ (numbered n).arrival = .hugeInteger 4301 := by
  have hlength : announcedLength (numbered n).header = some 4301 := by
    rw [numbered, h]
    exact announcedLength_headerOf (by decide)
  have hbody : (numbered n).body.length = 4301 :=
    (length_encodeUtf8_ascii (Json.ascii_digits (Json.isDigit_toDigits n))).trans h
  refine ⟨⟨unbroken_of_not_mem (not_mem_headerOf _), ?_⟩, ?_⟩
  · rw [hlength, hbody]
    rintro _ ⟨⟩ -
    rfl
  · rw [Sent.arrival, hlength]
    dsimp only
    rw [if_neg (by decide), numbered, ofBody, Text.decodeUtf8?_encodeUtf8]
    dsimp only
    rw [Json.read_hugeInteger (by rw [h]; decide), h]

/-- A frame that cannot be used and costs the answer after it. -/
structure Costs (f : Sent) : Prop where
  wellFormed : f.WellFormed
  unusable : ∀ m, f.arrival ≠ .message m
  unanswered : (asking.receiveAll [f.bytes ++ answering.bytes]).outcome 2 = .failed .streamClosed

/-- A frame that ends the reading costs what follows it. -/
theorem costs_of_stops (hf : f.WellFormed) (hstops : f.arrival.Stops)
    (hwaiting : (asking.absorb f.arrival).outcome 2 = .failed .streamClosed) : Costs f := by
  refine ⟨hf, ?_, ?_⟩
  · intro m hm
    rw [hm] at hstops
    cases hstops
  · rw [receiveAll_flatten, List.flatten_singleton, asking_reading.receive_stops hstops (Sent.frameOf_fst hf)]
    exact hwaiting

theorem numbered_costs {n : Nat} (h : (Nat.toDigits 10 n).length = 4301) : Costs (numbered n) := by
  obtain ⟨hwell, harrival⟩ := numbered_huge h
  refine costs_of_stops hwell ?_ ?_ <;> rw [harrival]
  · exact .hugeInteger 4301
  · rfl

/-- A header that gives a length by one too great to be read. -/
def unreadable : Sent := ⟨headerOf (greatestRead + 1), []⟩

theorem unreadable_costs : Costs unreadable := by
  have hlength : announcedLength unreadable.header = some (greatestRead + 1) :=
    announcedLength_headerOf (by decide +kernel)
  have harrival : unreadable.arrival = .oversized := Sent.arrival_oversized hlength (Nat.lt_succ_self _)
  refine costs_of_stops ⟨unbroken_of_not_mem (not_mem_headerOf _), ?_⟩ ?_ ?_
  · intro n hn hsize
    rw [hlength] at hn
    cases hn
    exact absurd hsize (Nat.not_succ_le_self _)
  · rw [harrival]
    exact .oversized
  · rw [harrival]
    rfl

/-- A number with too many digits and a length that no read can ask for end the reading, and the body after a
header without a length is taken for the start of the next header: each of the three frames costs the answer
after it, which is a usable message. -/
theorem receiveAll_costly : Costs (numbered (10 ^ 4300)) ∧ Costs lengthless ∧ Costs unreadable ∧
    answering.WellFormed ∧ answering.arrival = .message answer ∧
      (asking.dispatch answer).outcome 2 = .answered (.int 7) := by
  have hdigits := @Decimal.length_toDigits_mul 1 (by decide) 4300
  rw [Nat.one_mul] at hdigits
  have hlengthless : lengthless.WellFormed := ⟨unbroken_of_not_mem (by decide), by decide +kernel⟩
  exact ⟨numbered_costs hdigits, ⟨hlengthless, nofun, rfl⟩, unreadable_costs, answering_wellFormed,
    answering_arrival, rfl⟩

end Client

end Highlighter.Protocol

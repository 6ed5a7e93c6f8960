import Highlighter.Proofs.Protocol.Answering
import Highlighter.Proofs.Slips
import Highlighter.Proofs.Text.Numerals
import Highlighter.Protocol.Tokens

/-! What comes of asking a server for the tokens of a document. A request that cannot be sent, is refused, fails
with the stream or is not answered in time leaves the document without tokens, and so does an answer of another
form. An answer with an item that is no integer, and a time that cannot be waited for, are failures. -/

namespace Highlighter.Protocol

open Highlighter.Decimal (Binary64)
open Highlighter.Json (Members Value)
open Highlighter.Text (Numeral numberText)

/-! ### Items -/

/-- The integer that an item stands for. -/
inductive Yields : Value → Int → Prop
  | int (n : Int) : Yields (.int n) n
  | bool (b : Bool) : Yields (.bool b) b.toInt
  | float {x : Binary64} {num : Int} {den : Nat} (value : x.toQuotient? = some (num, den)) :
    Yields (.float x) (num.tdiv den)
  | string {s : String} {n : Int} (numeral : Numeral (numberText s.toList) n) : Yields (.string s) n

/-- An item that is no integer and cannot be made one. -/
inductive Refused : Value → Prop
  | null : Refused .null
  | array (items : List Value) : Refused (.array items)
  | object (members : Members) : Refused (.object members)
  | infinite (negative : Bool) : Refused (.float (.infinite negative))
  | nan : Refused (.float .nan)
  | string {s : Str} (plain : ∀ (text : String) (n : Int), s = text → ¬ Numeral (numberText text.toList) n) :
    Refused (.string s)

section
variable {v answer : Value} {items : List Value} {n : Int} {data : List Int} {tokens : Tokens}

theorem itemInteger_eq_ok : itemInteger v = .ok n ↔ Yields v n := by
  constructor
  · intro h
    cases v with
    | bool b =>
      cases h
      exact .bool b
    | int n =>
      cases h
      exact .int n
    | float x =>
      cases x with
      | finite negative m q =>
        cases h
        exact .float rfl
      | _ => cases h
    | string s =>
      rw [itemInteger] at h
      cases hs : s.text?.bind fun text => Text.integer? text.toList with
      | none =>
        rw [hs] at h
        cases h
      | some k =>
        rw [hs] at h
        cases h
        obtain ⟨text, htext, hnumber⟩ := Option.bind_eq_some_iff.mp hs
        rw [Str.text?_eq_some.mp htext]
        exact .string (Text.integer?_eq_some.mp hnumber)
    | _ => cases h
  · rintro (_ | _ | hvalue | hnumeral)
    · rfl
    · rfl
    · rename_i x num den
      cases x with
      | finite negative m q =>
        cases hvalue
        rfl
      | _ => cases hvalue
    · rw [itemInteger, Str.text?_ofString, Option.bind_some, Text.integer?_eq_some.mpr hnumeral]
      rfl

theorem Refused.not_yields (h : Refused v) : ¬ Yields v n := by
  rintro (_ | _ | hvalue | hnumeral)
  · cases h
  · cases h
  · cases h <;> cases hvalue
  · rename_i text
    generalize hs : Value.string text = v at h
    cases h with
    | string hplain => exact hplain text n (Value.string.inj hs).symm hnumeral
    | _ => cases hs

theorem exists_yields_or_refused (v : Value) : (∃ n, Yields v n) ∨ Refused v := by
  cases v with
  | null => exact .inr .null
  | bool b => exact .inl ⟨_, .bool b⟩
  | int n => exact .inl ⟨n, .int n⟩
  | array items => exact .inr (.array items)
  | object members => exact .inr (.object members)
  | float x =>
    cases x with
    | nan => exact .inr .nan
    | infinite negative => exact .inr (.infinite negative)
    | finite negative m q => exact .inl ⟨_, .float rfl⟩
  | string s =>
    by_cases h : ∃ (text : String) (n : Int), s = text ∧ Numeral (numberText text.toList) n
    · obtain ⟨text, n, rfl, hn⟩ := h
      exact .inl ⟨n, .string hn⟩
    · exact .inr (.string fun text n hs hn => h ⟨text, n, hs, hn⟩)

/-! ### Answers -/

/-- The numbers of an answer, as a server has written them. -/
def dataOf (answer : Value) : Option (List Value) := (answer.get? "data").bind (·.array?)

theorem dataOf_eq_some : dataOf answer = some items ↔ answer.get? "data" = some (.array items) := by
  rw [dataOf, Option.bind_eq_some_iff]
  constructor
  · rintro ⟨v, hv, hitems⟩
    cases v with
    | array items =>
      cases hitems
      exact hv
    | _ => cases hitems
  · exact fun h => ⟨_, h, rfl⟩

theorem tokensOf_of_none (h : dataOf answer = none) : tokensOf answer = .ok none := by
  unfold tokensOf
  split
  · rename_i items hitems
    rw [dataOf_eq_some.mpr hitems] at h
    cases h
  · rfl

theorem tokensOf_of_some (h : dataOf answer = some items) : tokensOf answer =
    (items.mapM itemInteger).map fun data => some ⟨data, (answer.get? "resultId").bind (·.string?)⟩ := by
  unfold tokensOf
  rw [dataOf_eq_some.mp h]
  dsimp only
  cases items.mapM itemInteger <;> rfl

/-- Items without a refused one give their integers, in order. -/
theorem mapM_itemInteger_of_yields (h : ∀ v ∈ items, ¬ Refused v) :
    ∃ data, items.mapM itemInteger = .ok data ∧ List.Forall₂ Yields items data := by
  obtain ⟨data, hdata⟩ : ∃ data, items.mapM itemInteger = .ok data := mapM_ok_iff.mpr fun v hv =>
    ((exists_yields_or_refused v).resolve_right (h v hv)).imp fun n => itemInteger_eq_ok.mpr
  exact ⟨data, hdata, (forall₂_of_mapM hdata).imp fun _ _ => itemInteger_eq_ok.mp⟩

/-- One refused item is enough for a failure. -/
theorem mapM_itemInteger_of_refused (hv : v ∈ items) (h : Refused v) : ∃ f, items.mapM itemInteger = .error f := by
  cases hmap : items.mapM itemInteger with
  | error f => exact ⟨f, rfl⟩
  | ok data =>
    obtain ⟨n, hn⟩ := mapM_ok_iff.mp ⟨data, hmap⟩ v hv
    exact absurd (itemInteger_eq_ok.mp hn) h.not_yields

end

/-! ### Started clients -/

namespace Conversation

variable {σ : Type} {h : Host σ} {t t' : Conversation σ} {m : Members} {method uri text language : String}
  {params : Value} {timeout : Binary64} {inbound : Inbound} {answer : Value}

/-- A client that was started, after anything that was asked and told, and that has arrived. -/
inductive Started (h : Host σ) : Conversation σ → Prop
  | start {t t' : Conversation σ} {process : ProcessId} {rootUri : String} {result : Members}
    (unused : t.client.Unused) (started : t.start h process rootUri = (.ok result, t')) : Started h t'
  | call {t : Conversation σ} (c : Call) (before : Started h t) : Started h (call h t c)
  | arrive {t : Conversation σ} (inbound : Inbound) (server : σ) (before : Started h t) :
    Started h ⟨t.client.receive inbound, server⟩
  | note {t : Conversation σ} (notes : List Note) (before : Started h t) :
    Started h { t with client := { t.client with notes } }

theorem write_takes : t.client.Takes (t.write h m).2.client := by
  obtain ⟨e, t', hwrite, hclient⟩ | ⟨inbound, t', hwrite, hclient⟩ := @write_client _ h t m
  · rw [hwrite, hclient]
    exact .refl _
  · rw [hwrite, hclient]
    exact Client.receive_takes _ _

theorem send_sound (hs : t.client.Sound) : (t.send h method params).2.client.Sound := by
  have hregistered := hs.register
  unfold send
  dsimp only
  split
  · exact hregistered.takes (Client.forget_takes _ _)
  · have hwritten := hregistered.takes (@write_takes _ h { t with client := t.client.register.2 }
      (requestMessage t.client.register.1 method params))
    split
    · rename_i heq
      rw [heq] at hwritten
      exact hwritten.takes (Client.forget_takes _ _)
    · rename_i heq
      rwa [heq] at hwritten

theorem request_sound (hs : t.client.Sound) : (t.request h method params timeout).2.client.Sound := by
  have hsent := @send_sound _ h t method params hs
  unfold request
  split
  · rename_i heq
    rwa [heq] at hsent
  · rename_i heq
    rw [heq] at hsent
    split
    · exact hsent
    · exact hsent
    split
    · exact hsent
    · exact hsent.takes (Client.forget_takes _ _)

theorem noteCapabilities_takes (c : Client) (result : Members) : c.Takes (noteCapabilities c result) := by
  unfold noteCapabilities
  split
  · exact .refl c
  · exact ⟨rfl, rfl, rfl, rfl, id⟩

theorem start_sound {process : ProcessId} {rootUri : String} {result : Members} (hc : t.client.Unused)
    (hstart : t.start h process rootUri = (.ok result, t')) : t'.client.Sound := by
  unfold start at hstart
  split at hstart
  · cases hstart
  rename_i pipes server _
  have hasked := @request_sound _ h
    ⟨{ t.client with process := some pipes, listening := true }, server⟩ "initialize"
    (initializeParams { t.client with process := some pipes, listening := true } process rootUri)
    t.client.timeout (hc.sound pipes)
  dsimp only at hstart
  split at hstart
  · cases hstart
  split at hstart
  · cases hstart
  · rename_i answer asked heq
    rw [heq] at hasked
    have hnoted := hasked.takes (noteCapabilities_takes asked.client answer)
    have hnotified := hnoted.takes (@write_takes _ h
      { asked with client := noteCapabilities asked.client answer } (noticeMessage "initialized" (.object [])))
    split at hstart
    · cases hstart
    · rename_i heq
      cases hstart
      unfold notify at heq
      rwa [heq] at hnotified
  · cases hstart

theorem Started.sound (hstarted : Started h t) : t.client.Sound := by
  induction hstarted with
  | start unused started => exact start_sound unused started
  | call c _ ih =>
    cases c with
    | request method params timeout => exact request_sound ih
    | notify method params => exact ih.takes write_takes
  | arrive inbound server _ ih => exact ih.takes (Client.receive_takes _ _)
  | note notes _ ih => exact ⟨ih.numbers, ih.listening⟩

/-! ### Requests -/

/-- A request that is sent comes to what the bytes that the client has and gets make of it. -/
theorem request_sent {server : σ} {output : Bool} (hs : t.client.Sound) (hopened : t.client.closed = false)
    (hprocess : t.client.process = some ⟨true, output⟩)
    (hwrite : h.write (requestMessage t.client.nextId method params) t.server = (.ok inbound, server)) :
    (t.request h method params timeout).1 =
      match outcomeAmong (messagesIn (t.client.unread ++ inbound.bytes)).1
        ((messagesIn (t.client.unread ++ inbound.bytes)).2 || inbound.ends) t.client.nextId with
      | .answered answer => .ok answer
      | .failed e => .error (.client e)
      | .waiting => .error (if isEndless timeout then .endlessWait else .client (.timedOut method)) := by
  have hlistening : t.client.register.2.listening = true := by
    rw [show t.client.register.2.listening = t.client.listening from rfl, hs.listening, hopened]
    rfl
  have hreceive := @Client.Open.receive _ _ inbound hs.open_register hlistening
  have hsend : t.send h method params = (.ok t.client.nextId, ⟨t.client.register.2.receive inbound, server⟩) := by
    unfold send
    dsimp only
    rw [if_neg (by simpa [Client.register] using hopened)]
    unfold write
    rw [show t.client.register.2.process = some ⟨true, output⟩ from hprocess]
    dsimp only [Client.register]
    rw [hwrite]
  unfold request
  rw [hsend]
  dsimp only
  rw [hreceive, show t.client.register.2.unread = t.client.unread from rfl]
  cases outcomeAmong _ _ t.client.nextId with
  | answered answer => rfl
  | failed e => rfl
  | waiting =>
    dsimp only
    split <;> rfl

/-- Otherwise it is an error of the client. -/
theorem request_unsent (hunsent : ∀ output inbound server, t.client.closed = false →
      t.client.process = some ⟨true, output⟩ →
      h.write (requestMessage t.client.nextId method params) t.server ≠ (.ok inbound, server)) :
    ∃ e, (t.request h method params timeout).1 = .error (.client e) := by
  have hsend : ∃ e t', t.send h method params = (.error e, t') := by
    unfold send
    dsimp only
    split
    · exact ⟨_, _, rfl⟩
    rename_i hopened
    split
    · exact ⟨_, _, rfl⟩
    · rename_i heq
      unfold write at heq
      split at heq
      · rename_i output hprocess
        split at heq
        · cases heq
        · rename_i inbound server hwrite
          exact absurd hwrite (hunsent output inbound server (Bool.eq_false_iff.mpr hopened) hprocess)
      · cases heq
  obtain ⟨e, t', hsend⟩ := hsend
  unfold request
  rw [hsend]
  exact ⟨e, rfl⟩

/-! ### The tokens of a document -/

/-- A document was shown, and its tokens could be asked for: where the conversation stood then, and what the
server sent in return. -/
structure Asked (h : Host σ) (t : Conversation σ) (uri text language : String) (shown : Conversation σ)
    (inbound : Inbound) : Prop where
  told : t.notify h "textDocument/didOpen" (openParams uri text language) = (.ok (), shown)
  opened : shown.client.closed = false
  sent : ∃ server, h.write (requestMessage shown.client.nextId "textDocument/semanticTokens/full"
    (documentParams uri)) shown.server = (.ok inbound, server)

/-- The first message that answered the request had no error, and this result. -/
inductive Answered (h : Host σ) (t : Conversation σ) (uri text language : String) (answer : Value) : Prop
  | intro {shown : Conversation σ} {inbound : Inbound} {m : Members}
    (asked : Asked h t uri text language shown inbound)
    (first : answerTo shown.client.nextId (messagesIn (shown.client.unread ++ inbound.bytes)).1 = some m)
    (result : Client.outcomeOf m = .answered answer)

/-- No message answered the request while the client waited for it, and the stream went on. -/
inductive Unanswered (h : Host σ) (t : Conversation σ) (uri text language : String) : Prop
  | intro {shown : Conversation σ} {inbound : Inbound} (asked : Asked h t uri text language shown inbound)
    (silent : answerTo shown.client.nextId (messagesIn (shown.client.unread ++ inbound.bytes)).1 = none)
    (goesOn : ((messagesIn (shown.client.unread ++ inbound.bytes)).2 || inbound.ends) = false)

/-- What the user is not told of: an item of an answer that is no integer, and a time to wait for an answer that
is beyond what can be waited for. -/
inductive Aborts (h : Host σ) (t : Conversation σ) (uri text language : String) : Prop
  | item {answer v : Value} {items : List Value} (answered : Answered h t uri text language answer)
    (data : answer.get? "data" = some (.array items)) (mem : v ∈ items) (refused : Refused v)
  | wait (unanswered : Unanswered h t uri text language) (endless : isEndless t.client.timeout = true)

theorem notify_ok (hnotify : t.notify h method params = (.ok (), t')) :
    (∃ output, t'.client.process = some ⟨true, output⟩) ∧ t.client.Takes t'.client := by
  have htakes := @write_takes _ h t (noticeMessage method params)
  unfold notify at hnotify
  rw [hnotify] at htakes
  refine ⟨?_, htakes⟩
  rw [htakes.process]
  unfold write at hnotify
  split at hnotify
  · rename_i output hprocess
    exact ⟨output, hprocess⟩
  · cases hnotify

/-- What the request gives decides, once the document is shown. -/
theorem tokens_shown
    (hshown : t.notify h "textDocument/didOpen" (openParams uri text language) = (.ok (), t')) :
    (t.tokens h uri text language).1 =
      match (t'.request h "textDocument/semanticTokens/full" (documentParams uri) t'.client.timeout).1 with
      | .ok answer => (tokensOf answer).mapError .item
      | .error (.client _) => .ok none
      | .error .endlessWait => .error .endlessWait := by
  unfold tokens
  rw [hshown]
  dsimp only
  rcases t'.request h "textDocument/semanticTokens/full" (documentParams uri) t'.client.timeout with
    ⟨(_ | _) | answer, after⟩ <;> rfl

theorem Asked.tokens (hs : t.client.Sound) (hasked : Asked h t uri text language t' inbound) :
    (t.tokens h uri text language).1 =
      match outcomeAmong (messagesIn (t'.client.unread ++ inbound.bytes)).1
        ((messagesIn (t'.client.unread ++ inbound.bytes)).2 || inbound.ends) t'.client.nextId with
      | .answered answer => (tokensOf answer).mapError .item
      | .failed _ => .ok none
      | .waiting => if isEndless t.client.timeout then .error .endlessWait else .ok none := by
  obtain ⟨⟨output, hprocess⟩, htakes⟩ := notify_ok hasked.told
  obtain ⟨server, hwrite⟩ := hasked.sent
  rw [tokens_shown hasked.told, request_sent (hs.takes htakes) hasked.opened hprocess hwrite, htakes.timeout]
  cases outcomeAmong _ _ t'.client.nextId with
  | answered answer => rfl
  | failed e => rfl
  | waiting => cases isEndless t.client.timeout <;> rfl

/-- A document whose tokens cannot be asked for is left without them. -/
theorem tokens_unasked (hnone : ∀ shown inbound, ¬ Asked h t uri text language shown inbound) :
    (t.tokens h uri text language).1 = .ok none := by
  rcases hshown : t.notify h "textDocument/didOpen" (openParams uri text language) with ⟨e | _, shown⟩
  · unfold tokens
    rw [hshown]
    rfl
  · obtain ⟨e, hrequest⟩ := @request_unsent _ h shown "textDocument/semanticTokens/full" (documentParams uri)
      shown.client.timeout fun output inbound server hopened _ hwrite =>
        hnone shown inbound ⟨hshown, hopened, server, hwrite⟩
    rw [tokens_shown hshown, hrequest]

/-- What a document's tokens come to. -/
theorem tokens_spec (hs : t.client.Sound) :
    (∀ answer, Answered h t uri text language answer →
      (t.tokens h uri text language).1 = (tokensOf answer).mapError .item) ∧
    (Unanswered h t uri text language → (t.tokens h uri text language).1 =
      if isEndless t.client.timeout then .error .endlessWait else .ok none) ∧
    ((∀ answer, ¬ Answered h t uri text language answer) → ¬ Unanswered h t uri text language →
      (t.tokens h uri text language).1 = .ok none) := by
  refine ⟨?_, ?_, ?_⟩
  · rintro answer ⟨hasked, hfirst, hresult⟩
    rw [hasked.tokens hs, outcomeAmong, hfirst]
    dsimp only
    rw [hresult]
  · rintro ⟨hasked, hsilent, hgoesOn⟩
    rw [hasked.tokens hs, outcomeAmong, hsilent, hgoesOn]
    rfl
  · intro hanswered hunanswered
    by_cases hasked : ∃ shown inbound, Asked h t uri text language shown inbound
    · obtain ⟨shown, inbound, hasked⟩ := hasked
      rw [hasked.tokens hs]
      cases hfirst : answerTo shown.client.nextId (messagesIn (shown.client.unread ++ inbound.bytes)).1 with
      | some m =>
        rw [outcomeAmong, hfirst]
        dsimp only
        cases hresult : Client.outcomeOf m with
        | answered answer => exact absurd ⟨hasked, hfirst, hresult⟩ (hanswered answer)
        | failed e => rfl
        | waiting => exact absurd hresult (Client.outcomeOf_ne_waiting m)
      | none =>
        rw [outcomeAmong, hfirst]
        dsimp only
        cases hgoesOn : ((messagesIn (shown.client.unread ++ inbound.bytes)).2 || inbound.ends) with
        | true => rfl
        | false => exact absurd ⟨hasked, hfirst, hgoesOn⟩ hunanswered
    · exact tokens_unasked fun shown inbound h => hasked ⟨shown, inbound, h⟩

/-- What the user is not told of ends the call. -/
theorem Aborts.tokens (hs : t.client.Sound) (haborts : Aborts h t uri text language) :
    ∃ f, (t.tokens h uri text language).1 = .error f := by
  obtain ⟨hanswer, hwait, -⟩ := @tokens_spec _ h t uri text language hs
  cases haborts with
  | item answered data mem refused =>
    obtain ⟨f, hf⟩ := mapM_itemInteger_of_refused mem refused
    rw [hanswer _ answered, tokensOf_of_some (dataOf_eq_some.mpr data), hf]
    exact ⟨_, rfl⟩
  | wait unanswered endless =>
    rw [hwait unanswered, if_pos endless]
    exact ⟨_, rfl⟩

/-- Otherwise there are none, or those that an answer gives. -/
theorem tokens_of_not_aborts (hs : t.client.Sound) (haborts : ¬ Aborts h t uri text language) :
    (t.tokens h uri text language).1 = .ok none ∨
      ∃ answer items tokens, Answered h t uri text language answer ∧ answer.get? "data" = some (.array items) ∧
        (t.tokens h uri text language).1 = .ok (some tokens) ∧ List.Forall₂ Yields items tokens.data := by
  obtain ⟨hanswer, hwait, hother⟩ := @tokens_spec _ h t uri text language hs
  by_cases hanswered : ∃ answer, Answered h t uri text language answer
  · obtain ⟨answer, hanswered⟩ := hanswered
    rw [hanswer answer hanswered]
    cases hdata : dataOf answer with
    | none =>
      rw [tokensOf_of_none hdata]
      exact .inl rfl
    | some items =>
      have hdata' := dataOf_eq_some.mp hdata
      obtain ⟨data, hmap, hall⟩ := @mapM_itemInteger_of_yields items
        fun v hv hrefused => haborts (.item hanswered hdata' hv hrefused)
      rw [tokensOf_of_some hdata, hmap]
      exact .inr ⟨answer, items, _, hanswered, hdata', rfl, hall⟩
  · left
    by_cases hunanswered : Unanswered h t uri text language
    · rw [hwait hunanswered, if_neg fun hendless => haborts (.wait hunanswered hendless)]
    · exact hother (not_exists.mp hanswered) hunanswered

end Conversation

end Highlighter.Protocol

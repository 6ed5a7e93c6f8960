import Highlighter.Proofs.Protocol.Asking
import Highlighter.Proofs.Run.Verification
import Highlighter.Run.Session

/-! What a bad answer of the server costs. A text whose tokens are refused, or do not come, is highlighted by its
grammar alone; an answer that is no answer ends the program. -/

namespace Highlighter.Run.Session

open Highlighter.Files (Path)
open Highlighter.Grammar (Token)
open Highlighter.Protocol (Host Yields)
open Highlighter.Protocol.Conversation (Aborts Answered Started)

variable {σ : Type}

/-- A text that is highlighted by its grammar alone. -/
def lexicalOnly (s : Session σ) (content : String) : Except Failure Highlighted :=
  match (s.lexical content).1 with
  | .error f => .error f
  | .ok tokens =>
    match Snapshot.ofRanges .standard (s.overlay.document content tokens [] none false).1 with
    | .error issues => .error (.entry issues)
    | .ok entries => .ok ⟨entries, false⟩

section
variable {h : Host σ} {s : Session σ} {path : Path} {content : String} {tokens : List Token}

/-- Without numbers of a server, what it announced of itself does not matter. -/
theorem document_nil (o : Styling.Overlay) (legend : Option Semantic.Legend) (utf16 : Bool) :
    o.document content tokens [] legend utf16 = o.document content tokens [] none false := by
  unfold Styling.Overlay.document
  cases utf16 <;> rfl

theorem semantic_fst (s : Session σ) (h : Host σ) (path : Path) (content : String) :
    (s.semantic h path content).1 =
      (s.talk.tokens h path.toUri content s.config.languageId).1.mapError .tokens := rfl

theorem highlightText_of_none
    (hnone : (s.talk.tokens h path.toUri content s.config.languageId).1 = .ok none) :
    (s.highlightText h path content).1 = s.lexicalOnly content := by
  unfold highlightText lexicalOnly
  have htalk : (s.lexical content).2.talk = s.talk := rfl
  have hconfig : (s.lexical content).2.config = s.config := rfl
  have hoverlay : (s.lexical content).2.overlay = s.overlay := rfl
  generalize s.lexical content = found at htalk hconfig hoverlay ⊢
  obtain ⟨f | tokens, s₁⟩ := found
  · rfl
  have hsemantic := semantic_fst s₁ h path content
  have hkept : (s₁.semantic h path content).2.overlay = s₁.overlay := rfl
  rw [show s₁.talk = s.talk from htalk, show s₁.config = s.config from hconfig, hnone] at hsemantic
  rw [show s₁.overlay = s.overlay from hoverlay] at hkept
  dsimp only
  generalize s₁.semantic h path content = asked at hsemantic hkept ⊢
  obtain ⟨answer, s₂⟩ := asked
  cases hsemantic
  dsimp only [styled, Option.map_none, Option.getD_none]
  rw [document_nil, hkept]
  cases Snapshot.ofRanges .standard (s.overlay.document content tokens [] none false).1 <;> rfl

theorem highlightText_of_error {f : Protocol.TokensFailure}
    (hf : (s.talk.tokens h path.toUri content s.config.languageId).1 = .error f)
    (hlexical : (s.lexical content).1 = .ok tokens) :
    (s.highlightText h path content).1 = .error (.tokens f) := by
  unfold highlightText
  have htalk : (s.lexical content).2.talk = s.talk := rfl
  have hconfig : (s.lexical content).2.config = s.config := rfl
  generalize s.lexical content = found at htalk hconfig hlexical ⊢
  obtain ⟨result, s₁⟩ := found
  cases hlexical
  have hsemantic := semantic_fst s₁ h path content
  rw [show s₁.talk = s.talk from htalk, show s₁.config = s.config from hconfig, hf] at hsemantic
  dsimp only
  generalize s₁.semantic h path content = asked at hsemantic ⊢
  obtain ⟨answer, s₂⟩ := asked
  cases hsemantic
  rfl

/-- The client of a session that is started is. -/
theorem started_start {after : Session σ} {process : Protocol.Conversation.ProcessId}
    (hunused : s.talk.client.Unused) (hstart : s.start h process = (.ok (), after)) : Started h after.talk := by
  unfold start at hstart
  split at hstart
  · rename_i heq
    cases hstart
    exact .note [] (.start hunused heq)
  · cases hstart

/-- A text of a started session is highlighted with the integers that an answer gives, or by its grammar alone,
unless an item of the answer is no integer or the time to wait for it cannot be waited; then the highlighting ends
with a failure that the user is not told of. -/
theorem highlightText_degrades (hstarted : Started h s.talk) (path : Path) (content : String) :
    (¬ Aborts h s.talk path.toUri content s.config.languageId →
      ((s.talk.tokens h path.toUri content s.config.languageId).1 = .ok none ∧
        (s.highlightText h path content).1 = s.lexicalOnly content) ∨
      ∃ answer items tokens, Answered h s.talk path.toUri content s.config.languageId answer ∧
        answer.get? "data" = some (.array items) ∧
        (s.talk.tokens h path.toUri content s.config.languageId).1 = .ok (some tokens) ∧
        List.Forall₂ Yields items tokens.data) ∧
    (Aborts h s.talk path.toUri content s.config.languageId →
      ∃ f, (s.talk.tokens h path.toUri content s.config.languageId).1 = .error f ∧
        ∀ tokens, (s.lexical content).1 = .ok tokens → (s.highlightText h path content).1 = .error (.tokens f) ∧
          ∀ detail, (Failure.tokens f).report? detail = none) := by
  constructor
  · intro haborts
    exact (Protocol.Conversation.tokens_of_not_aborts hstarted.sound haborts).imp_left fun hnone =>
      ⟨hnone, highlightText_of_none hnone⟩
  · intro haborts
    obtain ⟨f, hf⟩ := haborts.tokens hstarted.sound
    exact ⟨f, hf, fun tokens hlexical => ⟨highlightText_of_error hf hlexical, fun _ => rfl⟩⟩

end

end Highlighter.Run.Session

namespace Highlighter.Run.Workspace

open Highlighter.Json (Value)
open Highlighter.Protocol (Rule ScriptedServer)
open Highlighter.Protocol.Conversation (Aborts Started)

/-- A session with a server that answers by rules. -/
def beside (rules : List Rule) : Session ScriptedServer :=
  { session apart (config "snapshots") with talk := ⟨clientOf (config "snapshots"), { rules := rules }⟩ }

def attended (rules : List Rule) : Session ScriptedServer := ((beside rules).start ScriptedServer.host 1).2

/-- A rule for requests for tokens. -/
def replying (result error : Option Value) : Rule where
  method := "textDocument/semanticTokens/full"
  replies := [.response result error]

def refusing : Rule := replying none (some (.object [("code", .int 1)]))

/-- The numbers are an absent one. -/
def absent : Rule := replying (some (.object [("data", .array [.null])])) none

/-- Either server starts, and the grammar alone makes the same of a text. -/
theorem evaluated_attended : ∀ rule ∈ [refusing, absent],
    ((beside [rule]).start ScriptedServer.host 1).1.toOption = some () ∧
      ((attended [rule]).lexical "1").1.toOption.isSome = true ∧
      ((attended [rule]).lexicalOnly "1").toOption = some ⟨[entry "1"], false⟩ := by
  decide +kernel

theorem tokens_refusing : ((attended [refusing]).talk.tokens ScriptedServer.host source.toUri "1"
    (attended [refusing]).config.languageId).1.toOption = some none := by
  decide +kernel

theorem tokens_absent : ((attended [absent]).talk.tokens ScriptedServer.host source.toUri "1"
    (attended [absent]).config.languageId).1 = .error (.item .wrongKind) := by
  decide +kernel

theorem started_attended {rule : Rule} (h : rule ∈ [refusing, absent]) :
    Started ScriptedServer.host (attended [rule]).talk :=
  Session.started_start ⟨rfl, rfl, rfl⟩ (eq_ok_of_fst (evaluated_attended rule h).1)

/-- A server that refuses the request costs its tokens alone. -/
theorem highlightText_degrades_refusing :
    Started ScriptedServer.host (attended [refusing]).talk ∧
      ¬ Aborts ScriptedServer.host (attended [refusing]).talk source.toUri "1"
        (attended [refusing]).config.languageId ∧
      ((attended [refusing]).highlightText ScriptedServer.host source "1").1 = .ok ⟨[entry "1"], false⟩ := by
  have hmem : refusing ∈ [refusing, absent] := List.mem_cons_self
  have hnone := eq_ok_of_toOption tokens_refusing
  obtain ⟨hserved, haborts⟩ := Session.highlightText_degrades (started_attended hmem) source "1"
  have hnot : ¬ Aborts ScriptedServer.host (attended [refusing]).talk source.toUri "1"
      (attended [refusing]).config.languageId := by
    intro h
    obtain ⟨f, hf, -⟩ := haborts h
    rw [hnone] at hf
    cases hf
  refine ⟨started_attended hmem, hnot, ?_⟩
  obtain ⟨-, hlexical⟩ | ⟨_, _, _, _, _, hsome, _⟩ := hserved hnot
  · exact hlexical.trans (eq_ok_of_toOption (evaluated_attended refusing hmem).2.2)
  · rw [hnone] at hsome
    cases hsome

/-- A number that is absent ends the highlighting, and the user is not told of it. -/
theorem highlightText_absent :
    Started ScriptedServer.host (attended [absent]).talk ∧
      ((attended [absent]).talk.tokens ScriptedServer.host source.toUri "1"
        (attended [absent]).config.languageId).1 = .error (.item .wrongKind) ∧
      ((attended [absent]).highlightText ScriptedServer.host source "1").1 =
        .error (.tokens (.item .wrongKind)) ∧
      ∀ detail, (Failure.tokens (.item .wrongKind)).report? detail = none := by
  have hmem : absent ∈ [refusing, absent] := List.mem_cons_of_mem _ (List.mem_singleton_self _)
  obtain ⟨tokens, htokens⟩ := Option.isSome_iff_exists.mp (evaluated_attended absent hmem).2.1
  exact ⟨started_attended hmem, tokens_absent,
    Session.highlightText_of_error tokens_absent (eq_ok_of_toOption htokens), fun _ => rfl⟩

end Highlighter.Run.Workspace

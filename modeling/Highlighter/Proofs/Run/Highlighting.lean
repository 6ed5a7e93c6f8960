import Highlighter.Proofs.Files.Writing
import Highlighter.Run.Session

/-! What a session keeps while it works through files: its configuration and its theme, and with them the
title of its pages. -/

namespace Highlighter.Styling.Overlay

open Highlighter.Grammar (Token)
open Highlighter.Semantic (Legend Span)

section
variable {o : Overlay} {cells : List Cell} {cell : Cell} {number : Int} {first : Nat} {text content : Str}
  {texts : List Str} {tokens : List Token} {spans : Nat → List Span} {data : List Int}
  {legend : Option Legend} {utf16 : Bool}

theorem resolve_theme : (o.resolve cell).2.theme = o.theme := by
  unfold resolve
  split <;> rfl

theorem resolveAll_theme : (o.resolveAll cells).2.theme = o.theme := by
  induction cells generalizing o with
  | nil => rfl
  | cons cell rest ih => exact ih.trans resolve_theme

theorem linesFrom_theme : (o.linesFrom tokens spans first texts).2.theme = o.theme := by
  induction texts generalizing o first with
  | nil => rfl
  | cons text rest ih => exact ih.trans resolveAll_theme

theorem document_theme : (o.document content tokens data legend utf16).2.theme = o.theme :=
  linesFrom_theme

end

end Highlighter.Styling.Overlay

namespace Highlighter.Run.Session

open Highlighter.Files (Path Tree)
open Highlighter.Protocol (Host)
open Highlighter.Run (deliver placesOf)

/-- A session that was worked with is still one for the same configuration and theme. -/
structure Keeps {σ : Type} (s after : Session σ) : Prop where
  config : after.config = s.config
  theme : after.overlay.theme = s.overlay.theme

section
variable {σ : Type} {h : Host σ} {s after : Session σ} {tree left : Tree} {path : Path} {content : String}
  {mode : Mode} {report : FileReport}

theorem Keeps.refl (s : Session σ) : s.Keeps s := ⟨rfl, rfl⟩

theorem Keeps.trans {last : Session σ} (h : s.Keeps after) (h' : after.Keeps last) : s.Keeps last :=
  ⟨h'.config.trans h.config, h'.theme.trans h.theme⟩

theorem Keeps.title (h : s.Keeps after) : after.title = s.title := by
  rw [Session.title, Session.title, h.theme, h.config]

theorem start_keeps (s : Session σ) (h : Host σ) (process : Protocol.Conversation.ProcessId) :
    s.Keeps (s.start h process).2 := by
  unfold start
  split <;> exact ⟨rfl, rfl⟩

theorem lexical_keeps (s : Session σ) (content : String) : s.Keeps (s.lexical content).2 := ⟨rfl, rfl⟩

theorem semantic_keeps (s : Session σ) (h : Host σ) (path : Path) (content : String) :
    s.Keeps (s.semantic h path content).2 := ⟨rfl, rfl⟩

theorem styled_keeps (s : Session σ) (content : String) (tokens : List Grammar.Token)
    (semantic : Option Protocol.Tokens) : s.Keeps (s.styled content tokens semantic).2 :=
  ⟨rfl, Styling.Overlay.document_theme⟩

theorem highlightText_keeps : s.Keeps (s.highlightText h path content).2 := by
  unfold highlightText
  have hlexical := s.lexical_keeps content
  split
  · rename_i s₁ heq
    rwa [heq] at hlexical
  rename_i s₁ heq
  rw [heq] at hlexical
  have hsemantic := hlexical.trans (s₁.semantic_keeps h path content)
  split
  · rename_i s₂ heq
    rwa [heq] at hsemantic
  rename_i tokens _ semantic s₂ heq
  rw [heq] at hsemantic
  have hstyled := hsemantic.trans (s₂.styled_keeps content tokens semantic)
  dsimp only
  split <;> exact hstyled

theorem highlight_keeps (s : Session σ) (h : Host σ) (tree : Tree) (path : Path) :
    s.Keeps (s.highlight h tree path).2 := by
  unfold highlight
  split
  · exact .refl s
  · exact highlightText_keeps

/-- A session is made of a tokenizer and a theme that were loaded. -/
theorem prepare_eq_ok {machine : Machine} {c : Config} {server : σ} {remarks : List Remark} :
    prepare tree machine c server = (.ok s, remarks) ↔ ∃ tokenizer notes theme,
      Tokenizer.load tree c.grammar c.scopeName c.extraGrammars = (.ok tokenizer, notes) ∧
        themeOf tree machine c = .ok theme ∧ remarks = notes.map Remark.tokenizer ∧
        s = { config := c, tokenizer, overlay := { theme }, talk := ⟨clientOf c, server⟩, remarks } := by
  unfold prepare
  cases Tokenizer.load tree c.grammar c.scopeName c.extraGrammars with
  | mk loaded notes =>
    cases loaded with
    | error f => exact ⟨nofun, by rintro ⟨_, _, _, ⟨⟩, -⟩⟩
    | ok tokenizer =>
      dsimp only
      cases themeOf tree machine c with
      | error f => exact ⟨nofun, by rintro ⟨_, _, _, ⟨⟩, ⟨⟩, -⟩⟩
      | ok theme =>
        constructor
        · rintro ⟨⟩
          exact ⟨tokenizer, notes, theme, rfl, rfl, rfl, rfl⟩
        · rintro ⟨_, _, _, ⟨⟩, ⟨⟩, rfl, rfl⟩
          rfl

/-- A file is reported when it was highlighted and its files were delivered. -/
theorem process_eq_ok : s.process h mode tree path = (.ok report, after, left) ↔
    ∃ made verdict, s.highlight h tree path = (.ok made, after) ∧
      deliver tree (placesOf s.config path) s.title made.entries mode = (.ok verdict, left) ∧
      report = ⟨path, placesOf s.config path, made.hasSemantic, verdict⟩ := by
  unfold process
  have hkeeps := s.highlight_keeps h tree path
  split
  · rename_i heq
    refine ⟨nofun, ?_⟩
    rintro ⟨made, verdict, hmade, -, -⟩
    cases heq.symm.trans hmade
  rename_i made s₁ heq
  rw [heq] at hkeeps
  dsimp only
  rw [hkeeps.title, hkeeps.config]
  split
  · rename_i hdeliver
    refine ⟨nofun, ?_⟩
    rintro ⟨made', verdict, hmade, hdeliver', -⟩
    cases heq.symm.trans hmade
    cases hdeliver.symm.trans hdeliver'
  · rename_i verdict _ hdeliver
    constructor
    · rintro ⟨⟩
      exact ⟨made, verdict, heq, hdeliver, rfl⟩
    · rintro ⟨made', verdict', hmade, hdeliver', rfl⟩
      cases heq.symm.trans hmade
      cases hdeliver.symm.trans hdeliver'
      rfl

theorem process_of_deliver {c : Config} {title : Str} {made : Highlighted} {verdict : Option Verdict}
    (hconfig : s.config = c) (htitle : s.title = title)
    (hmade : s.highlight h tree path = (.ok made, after))
    (hdeliver : deliver tree (placesOf c path) title made.entries mode = (.ok verdict, left)) :
    s.process h mode tree path =
      (.ok ⟨path, placesOf c path, made.hasSemantic, verdict⟩, after, left) := by
  subst hconfig htitle
  exact process_eq_ok.mpr ⟨made, verdict, hmade, hdeliver, rfl⟩

end

end Highlighter.Run.Session

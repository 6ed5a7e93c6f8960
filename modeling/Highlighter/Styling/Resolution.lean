import Highlighter.Semantic.Span
import Highlighter.Text.Lines
import Highlighter.Theme.Matching

/-! The style of a character, from its scope stack and its semantic classification, with what was considered on
the way, in order. -/

namespace Highlighter.Styling

open Highlighter.Semantic (Classification fallbackScopes)

inductive TraceEntry where
  | scope (name : Str)
  | semanticType (name : Str)
  | modifiers (names : List Str)
  /-- The scopes that stood in for a semantic type; none if the text's own scopes decided. -/
  | fallback (scopes : List Str)
  | separator
  | bracket
  deriving DecidableEq, Repr

/-- The text that stands for an entry in output. -/
def TraceEntry.label : TraceEntry → Str
  | .scope name | .semanticType name => name
  | .modifiers names => "modifiers: " ++ Str.intercalate "," names
  | .fallback [] => "(fallback to TextMate color)"
  | .fallback scopes => "(fallback to standard scope: " ++ Str.intercalate ", " scopes ++ ")"
  | .separator => "__TM_SCOPES__"
  | .bracket => "bracket-pair-colorization"

inductive Source where
  | textmate
  | semantic
  deriving DecidableEq, Repr, Inhabited

def Source.label : Source → String
  | .textmate => "textmate"
  | .semantic => "semantic"

structure ResolvedStyle where
  foreground : Str
  fontStyle : Option Str
  source : Source
  trace : List TraceEntry
  /-- The place in the trace of the entry that decided; -1 if none did. -/
  active : Int
  /-- A color for each entry of the trace, which tells nothing beyond it. -/
  colors : List Str
  deriving DecidableEq, Repr, Inhabited

/-- Whether two styles are the same but for the colors of their traces. -/
def ResolvedStyle.agrees (a b : ResolvedStyle) : Bool :=
  a.foreground == b.foreground && a.fontStyle == b.fontStyle && a.source == b.source &&
    a.trace == b.trace && a.active == b.active

def placeNumber (place : Option Nat) : Int := place.elim (-1) Int.ofNat

/-- A macro in a scope that names attributes is shown as a modifier. -/
def corrected (c : Classification) (scopes : List Str) : Classification :=
  if c.type == "macro" && scopes.any (Text.mentions · "attribute") then { c with type := "modifier" }
  else c

/-- The color an entry of a trace has of its own. -/
def entryColor (t : Theme) : TraceEntry → Str
  | .scope name | .semanticType name => t.scopeColor name
  | .fallback (scope :: scopes) => (t.matchStack (scope :: scopes)).style.shownForeground
  | _ => ""

/-- The style of text without classification: its scopes alone decide. -/
def resolveScopes (t : Theme) (scopes : List Str) : ResolvedStyle :=
  let found := t.matchStack scopes
  { foreground := found.style.shownForeground
    fontStyle := found.style.fontStyle
    source := .textmate
    trace := scopes.map .scope
    active := placeNumber found.place
    colors := scopes.map t.scopeColor }

/-- The entries for the classification itself. -/
def classificationTrace (c : Classification) : List TraceEntry :=
  .semanticType c.type :: (if c.modifiers.isEmpty then [] else [.modifiers c.modifiers])

/-- The style of classified text: the theme's own style for the classification, or else that of the
scopes that stand for it, or else that of the text's scopes. -/
def resolveClassified (t : Theme) (scopes : List Str) (c : Classification) : ResolvedStyle :=
  let c := corrected c scopes
  let own := classificationTrace c
  let stack : List TraceEntry := .separator :: scopes.map .scope
  let (style, hint, active) : Style × List TraceEntry × Int :=
    match t.semanticStyle c.type c.modifiers with
    | some style => (style, [], 0)
    | none =>
      match fallbackScopes c with
      | some standIns => ((t.matchStack standIns).style, [.fallback standIns], own.length)
      | none =>
        let found := t.matchStack scopes
        (found.style, [.fallback []],
          match found.place with
          | none => -1
          | some place => own.length + 2 + place)
  let trace := own ++ hint ++ stack
  { foreground := style.shownForeground
    fontStyle := style.fontStyle
    source := .semantic
    trace
    active
    colors := trace.map (entryColor t) }

def resolve (t : Theme) (scopes : List Str) : Option Classification → ResolvedStyle
  | none => resolveScopes t scopes
  | some c => resolveClassified t scopes c

end Highlighter.Styling

import Highlighter.Proofs.Styling.Precedence
import Highlighter.Proofs.Styling.Runs

/-! The colors of the entries of a trace. A style's colors hang on nothing that is left out where styles are
compared: each entry has a color of its own under the theme, but for that of a bracket, which has the color
that is shown. The active entry's color is the one that is shown, unless a theme's own style for a
classification decided: the entry of a type has the color that the type would have as a scope. -/

namespace Highlighter

/-- The scope that decides about a stack does so alone too, with the same style. -/
theorem Theme.Decides.alone {rules : List StyleRule} {scopes : List Str} {place length : Nat}
    {style : Style} (h : Decides rules scopes place length style) :
    ∃ scope, scopes[place]? = some scope ∧ Decides rules [scope] 0 length style := by
  obtain ⟨scope, i, rule, selector, hscope, hwins, hlength, hstyle⟩ := h.wins
  refine ⟨scope, hscope, ⟨scope, i, rule, selector, rfl, hwins, hlength, hstyle⟩, fun j inner hj hinner => ?_⟩
  have hlt := (List.getElem?_eq_some_iff.1 hinner).1
  simp only [List.length_singleton] at hlt
  omega

namespace Styling

open Highlighter.Grammar (Token)
open Highlighter.Semantic (Classification Legend Span fallbackScopes)

variable {t : Theme} {scopes : List Str} {kind : Option Classification} {s : ResolvedStyle}
  {r piece : StyledRange} {ranges out : List StyledRange}

/-! ### Ranges and their styles -/

/-- What the style of a range is: that of a character, that of a bracket which was one, or that of an empty
line. -/
inductive Worn (t : Theme) (r : StyledRange) : Prop
  | character (scopes : List Str) (kind : Option Classification) (style : r.style = resolve t scopes kind)
  | bracket (scopes : List Str) (kind : Option Classification) (color : Str)
      (style : r.style = (resolve t scopes kind).withBracket color)
  | blank (text : r.text = "") (style : r.style = emptyLineStyle)

/-- A range is one of others, or was cut from one that is not empty: a bracket, or a part between them. -/
inductive CutFrom (ranges : List StyledRange) (piece : StyledRange) : Prop
  | whole (mem : piece ∈ ranges)
  | part (r : StyledRange) (mem : r ∈ ranges) (shows : r.text ≠ "") (style : piece.style = r.style)
  | bracket (r : StyledRange) (mem : r ∈ ranges) (shows : r.text ≠ "") (color : Str)
      (style : piece.style = r.style.withBracket color)

theorem CutFrom.mono (h : CutFrom ranges piece) {more : List StyledRange} (hsub : ranges ⊆ more) :
    CutFrom more piece := by
  cases h with
  | whole mem => exact .whole (hsub mem)
  | part r mem shows style => exact .part r (hsub mem) shows style
  | bracket r mem shows color style => exact .bracket r (hsub mem) shows color style

theorem Cuts.styles {palette : Palette} {offset : Nat} {stack after : List Str} {text : List CodePoint}
    {pieces : List StyledRange} (h : Cuts palette r offset stack text pieces after) :
    ∀ piece ∈ pieces, piece.style = r.style ∨ ∃ color, piece.style = r.style.withBracket color := by
  induction h with
  | nil => simp
  | plain ne plain more ih => exact List.forall_mem_cons.2 ⟨.inl rfl, ih⟩
  | @bracket _ _ _ _ _ _ _ color _ _ _ ih => exact List.forall_mem_cons.2 ⟨.inr ⟨color, rfl⟩, ih⟩

theorem colorRange_cutFrom {palette : Palette} (ne : palette ≠ []) (r : StyledRange) (stack : List Str) :
    ∃ pieces after, colorRange palette stack r = (some pieces, after) ∧
      ∀ piece ∈ pieces, CutFrom [r] piece := by
  rw [colorRange]
  split
  · rename_i hsafe
    have hshows : r.text ≠ "" := by
      simp only [StyledRange.hasSafeBrackets, Bool.and_eq_true] at hsafe
      simpa using hsafe.1.1
    obtain ⟨pieces, after, hpieces, hcuts⟩ :=
      cutBrackets_cuts ne r.text.toList 0 [] stack (Nat.le_refl 0) (by simp)
    refine ⟨pieces, after, hpieces, fun piece hpiece => ?_⟩
    obtain hstyle | ⟨color, hstyle⟩ := hcuts.styles piece hpiece
    · exact .part r (.head _) hshows hstyle
    · exact .bracket r (.head _) hshows color hstyle
  · refine ⟨[r], stack, rfl, fun piece hpiece => ?_⟩
    exact .whole hpiece

theorem colorBrackets_cutFrom {palette : Palette} (ne : palette ≠ []) (ranges : List StyledRange) :
    ∀ stack, ∃ out after, colorBrackets palette stack ranges = (some out, after) ∧
      ∀ piece ∈ out, CutFrom ranges piece := by
  induction ranges with
  | nil =>
    intro stack
    exact ⟨[], stack, rfl, by simp⟩
  | cons r ranges ih =>
    intro stack
    obtain ⟨own, middle, hown, hfirst⟩ := colorRange_cutFrom ne r stack
    obtain ⟨rest, after, hrest, hmore⟩ := ih middle
    refine ⟨own ++ rest, after, colorBrackets_cons hown hrest, fun piece hpiece => ?_⟩
    rcases List.mem_append.1 hpiece with hpiece | hpiece
    · exact (hfirst piece hpiece).mono (by simp)
    · exact (hmore piece hpiece).mono (by simp)

namespace Overlay

variable {o : Overlay} {tokens : List Token}

/-- What the style of a range is before brackets are colored. -/
def Fresh (t : Theme) (r : StyledRange) : Prop :=
  (∃ scopes kind, r.style = Styling.resolve t scopes kind) ∨ r.text = "" ∧ r.style = emptyLineStyle

theorem Remembers.line_fresh (h : o.Remembers t) (number : Int) (text : Str) (spans : List Span) :
    ∀ r ∈ (o.line number text tokens spans).1, Fresh t r := by
  intro r hr
  rw [line_eq_runs h] at hr
  by_cases hempty : text.toList = []
  · rw [hempty, List.mapIdx_nil] at hr
    obtain rfl := List.mem_singleton.1 hr
    exact .inr ⟨rfl, rfl⟩
  · obtain ⟨k, c, -, hcell⟩ := (runs_runs (by simpa using hempty)).first hr
    obtain ⟨c', -, hc'⟩ := Option.map_eq_some_iff.1 (List.getElem?_mapIdx .. ▸ hcell)
    exact .inl ⟨_, _, (Prod.mk.inj hc').2.symm⟩

theorem Remembers.linesFrom_fresh (spans : Nat → List Span) (texts : List Str) :
    ∀ {o : Overlay} (number : Nat), o.Remembers t →
      ∀ r ∈ (o.linesFrom tokens spans number texts).1, Fresh t r := by
  induction texts with
  | nil => simp [Overlay.linesFrom]
  | cons text texts ih =>
    intro o number h r hr
    rcases List.mem_append.1 hr with hr | hr
    · exact h.line_fresh _ _ _ r hr
    · exact ih (number + 1) (Remembers.resolveAll _ h).2 r hr

variable (o) {content : Str} {data : List Int} {legend : Option Legend} {utf16 : Bool}

theorem plainRanges_fresh : ∀ r ∈ o.plainRanges content tokens data legend utf16, Fresh o.theme r :=
  Remembers.linesFrom_fresh _ _ 0 ⟨rfl, by simp⟩

theorem document_worn : ∀ r ∈ (o.document content tokens data legend utf16).1, Worn o.theme r := by
  intro piece hpiece
  have ne : standardPalette ≠ [] := List.cons_ne_nil _ _
  obtain ⟨out, after, hout, hcut⟩ :=
    colorBrackets_cutFrom ne (o.plainRanges content tokens data legend utf16) []
  have hdocument := (o.document_coversFrom content tokens data legend utf16).1
  rw [hout] at hdocument
  cases hdocument
  have hfresh : ∀ r ∈ o.plainRanges content tokens data legend utf16, Fresh o.theme r := o.plainRanges_fresh
  cases hcut piece hpiece with
  | whole mem =>
    obtain ⟨scopes, kind, hstyle⟩ | ⟨htext, hstyle⟩ := hfresh piece mem
    · exact .character scopes kind hstyle
    · exact .blank htext hstyle
  | part r mem shows style =>
    obtain ⟨scopes, kind, hstyle⟩ | ⟨htext, -⟩ := hfresh r mem
    · exact .character scopes kind (style.trans hstyle)
    · exact absurd htext shows
  | bracket r mem shows color style =>
    obtain ⟨scopes, kind, hstyle⟩ | ⟨htext, -⟩ := hfresh r mem
    · exact .bracket scopes kind color (by rw [style, hstyle])
    · exact absurd htext shows

end Overlay

/-! ### Colors that a trace tells -/

/-- The color of an entry where a color is shown, which a bracket has. -/
def colorUnder (t : Theme) (shown : Str) : TraceEntry → Str
  | .bracket => shown
  | e => entryColor t e

theorem colorUnder_of_ne {e : TraceEntry} (h : e ≠ .bracket) (shown : Str) :
    colorUnder t shown e = entryColor t e := by
  cases e with
  | bracket => exact absurd rfl h
  | _ => rfl

/-- No bracket was considered before brackets are colored. -/
theorem bracket_not_mem (t : Theme) (scopes : List Str) (kind : Option Classification) :
    .bracket ∉ (resolve t scopes kind).trace := by
  cases kind with
  | none => simp [resolve, resolveScopes]
  | some c =>
    simp only [resolve, resolveClassified, classificationTrace]
    generalize corrected c scopes = c
    cases t.semanticStyle c.type c.modifiers <;> cases fallbackScopes c <;> cases c.modifiers <;> simp

theorem resolve_colorsUnder (t : Theme) (scopes : List Str) (kind : Option Classification)
    (shown : Str) :
    (resolve t scopes kind).colors = (resolve t scopes kind).trace.map (colorUnder t shown) := by
  rw [resolve_colors]
  refine List.map_congr_left fun e he => (colorUnder_of_ne ?_ shown).symm
  rintro rfl
  exact bracket_not_mem t scopes kind he

/-- The colors of a range's trace are told by the trace and by the color that is shown. -/
theorem Worn.colors (h : Worn t r) :
    r.style.colors = r.style.trace.map (colorUnder t r.style.foreground) := by
  cases h with
  | character scopes kind style => rw [style, ← resolve_colorsUnder]
  | bracket scopes kind color style =>
    rw [style]
    simp [ResolvedStyle.withBracket, ← resolve_colorsUnder, colorUnder]
  | blank text style =>
    rw [style]
    rfl

/-- The style is that of a range which shows text, in a document under the theme, before or after the
brackets of the document are colored. -/
inductive Attached (t : Theme) (s : ResolvedStyle) : Prop
  | before (o : Overlay) (content : Str) (tokens : List Token) (data : List Int) (legend : Option Legend)
      (utf16 : Bool) (theme : o.theme = t) (r : StyledRange)
      (mem : r ∈ o.plainRanges content tokens data legend utf16) (shows : r.text ≠ "") (style : r.style = s)
  | after (o : Overlay) (content : Str) (tokens : List Token) (data : List Int) (legend : Option Legend)
      (utf16 : Bool) (theme : o.theme = t) (r : StyledRange)
      (mem : r ∈ (o.document content tokens data legend utf16).1) (shows : r.text ≠ "") (style : r.style = s)

theorem Attached.colors (h : Attached t s) : s.colors = s.trace.map (colorUnder t s.foreground) := by
  cases h with
  | before o content tokens data legend utf16 theme r mem shows style =>
    obtain ⟨scopes, kind, hstyle⟩ | ⟨htext, -⟩ := o.plainRanges_fresh r mem
    · rw [← style, hstyle, theme, ← resolve_colorsUnder]
    · exact absurd htext shows
  | after o content tokens data legend utf16 theme r mem shows style =>
    rw [← style, ← theme]
    exact (o.document_worn r mem).colors

/-- Styles of one theme that are equal but for their colors have the same colors too, in whatever documents
they are shown. So each character of a run has, by what lies over it, the very colors of the run. -/
theorem colors_of_agrees (t : Theme) :
    (∀ s s', Attached t s → Attached t s' → s.agrees s' = true → s.colors = s'.colors) ∧
      ∀ o, Served t o → ∀ number text tokens spans, ∀ r ∈ (o.line number text tokens spans).1, ∀ i, r.Holds i →
        r.style.colors = (resolve t (scopesAt tokens i) (kindAt spans i)).colors := by
  constructor
  · intro s s' h h' hagrees
    obtain ⟨hforeground, -, -, htrace, -⟩ := ResolvedStyle.agrees_iff.1 hagrees
    rw [h.colors, h'.colors, hforeground, htrace]
  · intro o served number text tokens spans r hr i hholds
    rw [line_eq_runs served.remembers] at hr
    rw [(runs_coarsest (fun _ _ h => resolve_eq_of_agrees h) text.toList).styled r hr i hholds]

/-- A call before its brackets are colored, and the second line of another one after that; the argument of
the first has the colors of the run that holds it. -/
theorem colors_of_agrees_calls :
    let t : Theme := { rules := [⟨["source"], { foreground := some "#9CDCFE" }⟩] }
    let style : ResolvedStyle := ⟨"#9CDCFE", none, .textmate, [.scope "source"], 0, ["#9CDCFE"]⟩
    let other : ResolvedStyle := { style with colors := (resolve t ["source"] none).colors }
    let tokens : List Token := [⟨0, 0, 4, ["source"]⟩]
    Attached t style ∧ Attached t other ∧ style.agrees other = true ∧ style.colors = other.colors ∧
      style.colors = (resolve t (scopesAt tokens 2) (kindAt [] 2)).colors := by
  intro t style other tokens
  have hbefore : Attached t style :=
    .before { theme := t } "f(x)" tokens [] none false rfl ⟨0, 0, 0, 4, "f(x)", style⟩ (by decide)
      (by decide) rfl
  have hafter : Attached t other :=
    .after { theme := t } "g(\nx)" [⟨1, 0, 2, ["source"]⟩] [] none false rfl ⟨1, 0, 1, 1, "x", other⟩
      (by decide) (by decide) rfl
  obtain ⟨hattached, hruns⟩ := colors_of_agrees t
  exact ⟨hbefore, hafter, by decide, hattached style other hbefore hafter (by decide),
    hruns { theme := t } .fresh 0 "f(x)" tokens [] ⟨0, 0, 0, 4, "f(x)", style⟩ (by decide) 2
      ⟨by decide, by decide⟩⟩

/-! ### The active entry -/

/-- The theme's own style for a classification decided, and the color that is shown is not the one which the
type has as a scope. -/
def ShownApart (t : Theme) (s : ResolvedStyle) : Prop :=
  ∃ (c : Classification) (scopes : List Str) (style : Style), s.trace = fullTrace scopes c [] ∧
    s.active = 0 ∧ t.semanticStyle c.type c.modifiers = some style ∧ s.foreground = style.shownForeground ∧
      t.scopeColor c.type ≠ s.foreground

/-- No entry is active, or the active one has the color that is shown, or else a theme's own style decided. -/
inductive ActiveColor (t : Theme) (s : ResolvedStyle) : Prop
  | none (active : s.active = -1)
  | same (place : Nat) (active : s.active = place) (color : s.colors[place]? = some s.foreground)
  | apart (type : Str) (active : s.active = 0) (color : s.colors[0]? = some (t.scopeColor type))
      (apart : ShownApart t s)

theorem scopeColor_of_place {place : Nat} (h : (t.matchStack scopes).place = some place) :
    ∃ scope, scopes[place]? = some scope ∧
      t.scopeColor scope = (t.matchStack scopes).style.shownForeground := by
  obtain ⟨length, hdecides⟩ :=
    Theme.matchScopes_eq_some.1 (by rw [← h] : t.matchStack scopes = ⟨_, some place⟩)
  obtain ⟨scope, hscope, halone⟩ := hdecides.alone
  have hmatch : t.matchStack [scope] = ⟨(t.matchStack scopes).style, some 0⟩ :=
    Theme.matchScopes_eq_some.2 ⟨length, halone⟩
  exact ⟨scope, hscope, by rw [Theme.scopeColor, hmatch]⟩

theorem entryColor_fallback {c : Classification} {standIns : List Str}
    (h : fallbackScopes c = some standIns) :
    entryColor t (.fallback standIns) = (t.matchStack standIns).style.shownForeground := by
  rw [fallbackScopes_eq, firstEntry_iff] at h
  obtain ⟨_, _, _, -, -, hlookup⟩ := h
  obtain ⟨scope, scopes, rfl⟩ := List.exists_cons_of_ne_nil (standardScopes_populated hlookup)
  rfl

theorem resolveScopes_activeColor (t : Theme) (scopes : List Str) :
    ActiveColor t (resolveScopes t scopes) := by
  cases hplace : (t.matchStack scopes).place with
  | none => exact .none (by simp [resolveScopes, hplace, placeNumber])
  | some place =>
    obtain ⟨scope, hscope, hcolor⟩ := scopeColor_of_place hplace
    exact .same place (by simp [resolveScopes, hplace, placeNumber]) (by simp [resolveScopes, hscope, hcolor])

theorem resolveClassified_activeColor (t : Theme) (scopes : List Str) (c : Classification) :
    ActiveColor t (resolveClassified t scopes c) := by
  simp only [resolveClassified]
  generalize corrected c scopes = c
  cases hown : t.semanticStyle c.type c.modifiers with
  | some style =>
    have hfirst : ((classificationTrace c ++ [] ++ TraceEntry.separator :: scopes.map TraceEntry.scope).map
        (entryColor t))[0]? = some (t.scopeColor c.type) := by simp [classificationTrace, entryColor]
    by_cases hcolor : t.scopeColor c.type = style.shownForeground
    · exact .same 0 rfl (hcolor ▸ hfirst)
    · exact .apart c.type rfl hfirst ⟨c, scopes, style, fullTrace_eq scopes c [], rfl, hown, rfl, hcolor⟩
  | none =>
    cases hstandard : fallbackScopes c with
    | some standIns =>
      refine .same (classificationTrace c).length rfl ?_
      simp [entryColor_fallback hstandard]
    | none =>
      cases hplace : (t.matchStack scopes).place with
      | none => exact .none rfl
      | some place =>
        obtain ⟨scope, hscope, hcolor⟩ := scopeColor_of_place hplace
        -- the entries before the scopes are those for the classification, the hint and the separator
        have htrace : classificationTrace c ++ [.fallback []] ++ .separator :: scopes.map .scope =
            (classificationTrace c ++ [.fallback [], .separator]) ++ scopes.map TraceEntry.scope := by simp
        refine .same ((classificationTrace c).length + 2 + place) (by simp) ?_
        rw [htrace, List.map_append, List.getElem?_append_right (by simp)]
        simp [hscope, entryColor, hcolor]

theorem resolve_activeColor (t : Theme) (scopes : List Str) (kind : Option Classification) :
    ActiveColor t (resolve t scopes kind) := by
  cases kind with
  | none => exact resolveScopes_activeColor t scopes
  | some c => exact resolveClassified_activeColor t scopes c

theorem Worn.activeColor (h : Worn t r) : ActiveColor t r.style := by
  cases h with
  | character scopes kind style => exact style ▸ resolve_activeColor t scopes kind
  | bracket scopes kind color style =>
    rw [style]
    have hlength : (resolve t scopes kind).trace.length = (resolve t scopes kind).colors.length := by
      rw [resolve_colors, List.length_map]
    exact .same (resolve t scopes kind).trace.length rfl (by simp [ResolvedStyle.withBracket, hlength])
  | blank text style => exact .none (by rw [style]; rfl)

/-- Where a range of a document has an active entry, this has the color that is shown, exactly unless the
theme's own style for a classification decided and its color is not the one that the type has as a scope. -/
theorem document_activeColor {o : Overlay} {content : Str} {tokens : List Token} {data : List Int}
    {legend : Option Legend} {utf16 : Bool} (hr : r ∈ (o.document content tokens data legend utf16).1) :
    r.style.active = -1 ∨ ∃ (place : Nat) (color : Str), r.style.active = place ∧
      place < r.style.trace.length ∧ r.style.colors[place]? = some color ∧
        (color = r.style.foreground ↔ ¬ ShownApart o.theme r.style) := by
  have hworn := o.document_worn r hr
  have hinside {place : Nat} {color : Str} (hcolor : r.style.colors[place]? = some color) :
      place < r.style.trace.length := by
    rw [hworn.colors, List.getElem?_map, Option.map_eq_some_iff] at hcolor
    obtain ⟨entry, hentry, -⟩ := hcolor
    exact (List.getElem?_eq_some_iff.1 hentry).1
  cases hworn.activeColor with
  | none active => exact .inl active
  | same place active color =>
    refine .inr ⟨place, _, active, hinside color, color, iff_of_true rfl ?_⟩
    rintro ⟨c, scopes, style, htrace, hzero, -, -, hne⟩
    obtain rfl : place = 0 := by omega
    rw [hworn.colors, htrace] at color
    simp only [fullTrace, List.cons_append, List.map_cons, List.getElem?_cons_zero, Option.some.injEq] at color
    exact hne color
  | apart type active color apart =>
    refine .inr ⟨0, _, active, hinside color, color, iff_of_false ?_ (not_not_intro apart)⟩
    obtain ⟨c, scopes, style, htrace, -, -, -, hne⟩ := apart
    rw [hworn.colors, htrace] at color
    simp only [fullTrace, List.cons_append, List.map_cons, List.getElem?_cons_zero, Option.some.injEq] at color
    exact color ▸ hne

/-- The bracket of a call: its entry, the last one, has the color of the outermost depth. -/
theorem document_activeColor_bracket :
    let o : Overlay := { theme := { rules := [⟨["source"], { foreground := some "#9CDCFE" }⟩] } }
    let bracket : StyledRange := ⟨0, 1, 0, 2, "(",
      ⟨"#FFD700", none, .textmate, [.scope "source", .bracket], 1, ["#9CDCFE", "#FFD700"]⟩⟩
    bracket ∈ (o.document "f(" [⟨0, 0, 2, ["source"]⟩] [] none false).1 ∧
      ∃ (place : Nat) (color : Str), bracket.style.active = place ∧
        bracket.style.colors[place]? = some color ∧ color = bracket.style.foreground := by
  intro o bracket
  have hmem : bracket ∈ (o.document "f(" [⟨0, 0, 2, ["source"]⟩] [] none false).1 := by decide
  obtain hnone | ⟨place, color, hactive, -, hcolor, hsame⟩ := document_activeColor hmem
  · exact absurd hnone (by decide)
  · refine ⟨hmem, place, color, hactive, hcolor, hsame.2 ?_⟩
    rintro ⟨c, scopes, style, -, hzero, -⟩
    exact absurd hzero (by decide)

/-- A variable for which a theme has a style of its own: the text is shown in its color, and its active entry
in that of a scope for which the theme has none. -/
theorem document_ownStyle :
    let o : Overlay := { theme := { semantic := [("variable", { foreground := some "#111111" })] } }
    ¬ ∀ r ∈ (o.document "a" [] [0, 0, 1, 8, 0] none false).1, r.style.active = -1 ∨
      ∃ place : Nat, r.style.active = place ∧ place < r.style.trace.length ∧
        r.style.colors[place]? = some r.style.foreground := by
  intro o hall
  obtain hnone | ⟨place, hactive, -, hcolor⟩ := hall ⟨0, 0, 0, 1, "a",
    ⟨"#111111", none, .semantic, [.semanticType "variable", .separator], 0, ["#D4D4D4", ""]⟩⟩ (by decide)
  · exact absurd hnone (by decide)
  · obtain rfl : place = 0 := (Int.ofNat.inj hactive).symm
    exact absurd hcolor (by decide)

end Styling

end Highlighter

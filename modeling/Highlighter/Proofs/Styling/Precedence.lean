import Highlighter.Proofs.Theme.Matching
import Highlighter.Styling.Resolution
import Mathlib.Data.List.Infix

/-! Which of a theme's styles classified text gets. The theme's own styles for the classification come first,
then what it says about the scopes that commonly stand for the classification, then what it says about those
of the text. The trace tells in each case what was considered, and which of its entries decided. -/

namespace Highlighter

theorem Text.mentions_iff {s part : Str} : Text.mentions s part = true ↔ part.toList <:+: s.toList := by
  unfold Text.mentions
  induction s.toList with
  | nil => simp [Text.occursIn]
  | cons c rest ih => simp [Text.occursIn, ih, List.infix_cons_iff]

namespace Styling

open Highlighter.Semantic (Classification standardScopes fallbackKeys fallbackScopes)
open Highlighter.Theme (Decides matchScopes_eq_some)

/-- The first of the keys that has an entry in the table has this one. -/
def FirstEntry {β : Type} (table : List (Str × β)) (keys : List Str) (entry : β) : Prop :=
  ∃ before key after, keys = before ++ key :: after ∧ (∀ k ∈ before, table.lookup k = none) ∧
    table.lookup key = some entry

/-- The classification a text with these scopes is shown with: a macro in a scope that speaks of attributes is
a modifier. -/
def shown (c : Classification) (scopes : List Str) : Classification :=
  if c.type = "macro" ∧ ∃ scope ∈ scopes, ("attribute" : Str).toList <:+: scope.toList then
    ⟨"modifier", c.modifiers⟩
  else c

/-- The keys of a theme's own styles: the type with each modifier, the type, each modifier of any type. -/
def ownKeys (c : Classification) : List Str :=
  c.modifiers.map (fun m => c.type ++ "." ++ m) ++ c.type :: c.modifiers.map fun m => "*." ++ m

/-- The keys of the standard scopes, the most specific first: the type with those of the two modifiers the
table knows that the classification has. -/
def standardKeys (c : Classification) : List Str :=
  let known : List (List Str) := [["defaultLibrary", "readonly"], ["readonly"], ["defaultLibrary"], []]
  (known.filter fun ms => ms.all c.modifiers.contains).map fun ms =>
    ms.foldl (fun key m => key ++ "." ++ m) c.type

/-- The trace of classified text, with the hint that tells where the style comes from if the theme has none of
its own. -/
def fullTrace (scopes : List Str) (c : Classification) (hint : List TraceEntry) : List TraceEntry :=
  (.semanticType c.type :: if c.modifiers = [] then [] else [.modifiers c.modifiers]) ++ hint ++
    .separator :: scopes.map .scope

/-- Both styles are due to the very same scope of the stack, which ends both traces, or to none. -/
def SameScope (scopes : List Str) (r other : ResolvedStyle) : Prop :=
  r.active = -1 ∧ other.active = -1 ∨
    ∃ place scope before others, scopes[place]? = some scope ∧
      r.trace = before ++ scopes.map .scope ∧ r.active = (before.length + place : Nat) ∧
      other.trace = others ++ scopes.map .scope ∧ other.active = (others.length + place : Nat)

/-- A style is shown as it is, but for a color that is missing or empty: there the default one is. -/
structure Wears (r : ResolvedStyle) (style : Style) : Prop where
  foreground : style.foreground = some r.foreground ∧ r.foreground ≠ "" ∨
    (style.foreground = none ∨ style.foreground = some ("" : Str)) ∧ r.foreground = Style.defaultForeground
  fontStyle : r.fontStyle = style.fontStyle

/-- Where the style of classified text comes from, and how the trace shows it. -/
inductive Precedence (t : Theme) (scopes : List Str) (c : Classification) (r : ResolvedStyle) : Prop
  | own (style : Style) (first : FirstEntry t.semantic (ownKeys c) style) (wears : Wears r style)
      (trace : r.trace = fullTrace scopes c []) (active : r.active = 0)
  | standard (standIns : List Str) (noOwn : ∀ key ∈ ownKeys c, t.semantic.lookup key = none)
      (first : FirstEntry standardScopes (standardKeys c) standIns) (populated : standIns ≠ [])
      (wears : Wears r (t.matchStack standIns).style)
      (trace : r.trace = fullTrace scopes c [.fallback standIns])
      (place : Nat) (active : r.active = place) (hint : r.trace[place]? = some (.fallback standIns))
  | text (noOwn : ∀ key ∈ ownKeys c, t.semantic.lookup key = none)
      (noStandard : ∀ key ∈ standardKeys c, standardScopes.lookup key = none)
      (foreground : r.foreground = (resolve t scopes none).foreground)
      (fontStyle : r.fontStyle = (resolve t scopes none).fontStyle)
      (trace : r.trace = fullTrace scopes c [.fallback []])
      (active : SameScope scopes r (resolve t scopes none))

/-- What holds of classified text whichever of the three decides: it is shown as such, and each entry of the
trace has a color, the active one is among them. -/
structure Shows (r : ResolvedStyle) : Prop where
  source : r.source = .semantic
  colors : r.colors.length = r.trace.length
  active : -1 ≤ r.active ∧ r.active < r.trace.length

variable {t : Theme} {scopes : List Str} {c : Classification}

/-! ### The keys -/

theorem firstEntry_iff {β : Type} {table : List (Str × β)} {keys : List Str} {entry : β} :
    keys.findSome? (fun key => table.lookup key) = some entry ↔ FirstEntry table keys entry := by
  rw [List.findSome?_eq_some_iff]
  constructor
  · rintro ⟨before, key, after, hkeys, hkey, hbefore⟩
    exact ⟨before, key, after, hkeys, hbefore, hkey⟩
  · rintro ⟨before, key, after, hkeys, hbefore, hkey⟩
    exact ⟨before, key, after, hkeys, hkey, hbefore⟩

theorem corrected_eq (c : Classification) (scopes : List Str) : corrected c scopes = shown c scopes := by
  simp only [corrected, shown, Bool.and_eq_true, beq_iff_eq, List.any_eq_true, Text.mentions_iff]

theorem semanticKeys_eq (c : Classification) : Theme.semanticKeys c.type c.modifiers = ownKeys c := by
  simp [Theme.semanticKeys, ownKeys]

/-- A modifier the classification does not have only repeats keys, which changes nothing about the first that
has an entry. -/
theorem findSome?_fallbackKeys {β : Type} (f : Str → Option β) :
    (fallbackKeys c).findSome? f = (standardKeys c).findSome? f := by
  have hlibrary : ("." : Str) ++ "defaultLibrary" = ".defaultLibrary" := by decide
  have hreadonly : ("." : Str) ++ "readonly" = ".readonly" := by decide
  simp only [fallbackKeys, standardKeys, List.filter_cons, List.filter_nil, List.all_cons, List.all_nil]
  cases c.modifiers.contains "defaultLibrary" <;> cases c.modifiers.contains "readonly" <;>
    simp only [List.map_cons, List.map_nil, List.foldl_cons, List.foldl_nil, Bool.and_true, Bool.and_false,
      if_true, if_false, Bool.false_eq_true, Str.append_assoc, Str.append_empty, hlibrary, hreadonly,
      List.findSome?_cons, List.findSome?_nil]
  · cases f c.type <;> rfl
  · cases f (c.type ++ ".readonly") <;> cases f c.type <;> rfl
  · cases f (c.type ++ ".defaultLibrary") <;> cases f c.type <;> rfl

theorem semanticStyle_eq (t : Theme) (c : Classification) :
    t.semanticStyle c.type c.modifiers = (ownKeys c).findSome? fun key => t.semantic.lookup key := by
  rw [Theme.semanticStyle, semanticKeys_eq]
  rfl

theorem fallbackScopes_eq (c : Classification) :
    fallbackScopes c = (standardKeys c).findSome? fun key => standardScopes.lookup key :=
  findSome?_fallbackKeys _

theorem standardScopes_populated {key : Str} {standIns : List Str}
    (h : standardScopes.lookup key = some standIns) : standIns ≠ [] := by
  have hall : ∀ entry ∈ standardScopes, entry.2 ≠ [] := by decide
  obtain ⟨before, after, heq, -⟩ := List.lookup_eq_some_iff.1 h
  exact hall (key, standIns) (by simp [heq])

/-! ### The three cases -/

theorem fullTrace_eq (scopes : List Str) (c : Classification) (hint : List TraceEntry) :
    classificationTrace c ++ hint ++ .separator :: scopes.map .scope = fullTrace scopes c hint := by
  simp [classificationTrace, fullTrace]

theorem matchStack_place_lt {place : Nat} (h : (t.matchStack scopes).place = some place) :
    place < scopes.length := by
  obtain ⟨length, hdecides⟩ := matchScopes_eq_some.1 (by rw [← h] : t.matchStack scopes = ⟨_, some place⟩)
  obtain ⟨scope, -, -, -, hscope, -⟩ := hdecides.wins
  exact (List.getElem?_eq_some_iff.1 hscope).1

theorem wears_of_shown {r : ResolvedStyle} {style : Style}
    (hforeground : r.foreground = style.shownForeground) (hfontStyle : r.fontStyle = style.fontStyle) :
    Wears r style where
  foreground := by
    rw [hforeground]
    unfold Style.shownForeground
    cases hcolor : style.foreground with
    | none => exact .inr ⟨.inl rfl, rfl⟩
    | some color =>
      by_cases hempty : color = ""
      · exact .inr ⟨.inr (by rw [hempty]), by simp [hempty]⟩
      · exact .inl ⟨by simp [hempty], by simp [hempty]⟩
  fontStyle := hfontStyle

theorem Shows.of_place {r : ResolvedStyle} (place : Nat) (hsource : r.source = .semantic)
    (hcolors : r.colors.length = r.trace.length) (hactive : r.active = place) (hlt : place < r.trace.length) :
    Shows r :=
  ⟨hsource, hcolors, by omega, by omega⟩

/-- Entries before those of the scopes do not change which scope is active. -/
theorem sameScope_of_place (t : Theme) {r : ResolvedStyle} (before : List TraceEntry)
    (htrace : r.trace = before ++ scopes.map .scope)
    (hactive : r.active = match (t.matchStack scopes).place with
      | none => -1
      | some place => (before.length + place : Nat)) :
    SameScope scopes r (resolve t scopes none) ∧ -1 ≤ r.active ∧ r.active < r.trace.length := by
  cases hplace : (t.matchStack scopes).place with
  | none =>
    rw [hplace] at hactive
    change r.active = -1 at hactive
    have hother : (resolve t scopes none).active = -1 := by
      simp only [resolve, resolveScopes, hplace, placeNumber, Option.elim_none]
    exact ⟨.inl ⟨hactive, hother⟩, by omega, by omega⟩
  | some place =>
    rw [hplace] at hactive
    change r.active = (before.length + place : Nat) at hactive
    have hlt := matchStack_place_lt hplace
    have hother : (resolve t scopes none).active = ((0 + place : Nat) : Int) := by
      simp [resolve, resolveScopes, hplace, placeNumber]
    have hlength : r.trace.length = before.length + scopes.length := by simp [htrace]
    exact ⟨.inr ⟨place, _, before, [], List.getElem?_eq_getElem hlt, htrace, hactive, rfl, hother⟩, by omega,
      by omega⟩

/-- Classified text gets the theme's own style for the classification it is shown with, else the style of the
most specific of the scopes that commonly stand for it, else that of its own scopes. -/
theorem resolve_precedence (t : Theme) (scopes : List Str) (c : Classification) :
    Precedence t scopes (shown c scopes) (resolve t scopes (some c)) ∧ Shows (resolve t scopes (some c)) := by
  simp only [resolve, resolveClassified, corrected_eq]
  generalize shown c scopes = c
  rw [semanticStyle_eq]
  cases hown : (ownKeys c).findSome? fun key => t.semantic.lookup key with
  | some style =>
    exact ⟨.own style (firstEntry_iff.1 hown) (wears_of_shown rfl rfl) (fullTrace_eq scopes c []) rfl,
      .of_place 0 rfl (List.length_map _) rfl (by simp [classificationTrace])⟩
  | none =>
    have hnone := List.findSome?_eq_none_iff.1 hown
    rw [fallbackScopes_eq]
    cases hstandard : (standardKeys c).findSome? fun key => standardScopes.lookup key with
    | some standIns =>
      have hfirst := firstEntry_iff.1 hstandard
      have hpopulated : standIns ≠ [] := by
        obtain ⟨_, _, _, -, -, hlookup⟩ := hfirst
        exact standardScopes_populated hlookup
      exact ⟨.standard standIns hnone hfirst hpopulated (wears_of_shown rfl rfl)
        (fullTrace_eq scopes c [.fallback standIns]) (classificationTrace c).length rfl (by simp),
        .of_place _ rfl (List.length_map _) rfl (by simp)⟩
    | none =>
      have hstandardNone := List.findSome?_eq_none_iff.1 hstandard
      have htrace := fullTrace_eq scopes c [.fallback []]
      -- the entries before the scopes are those for the classification, the hint and the separator
      refine And.elim (fun hsame hbounds =>
        ⟨.text hnone hstandardNone rfl rfl htrace hsame, rfl, List.length_map _, hbounds⟩)
        (sameScope_of_place t (classificationTrace c ++ [.fallback [], .separator]) ?_ ?_)
      · simp
      · cases (t.matchStack scopes).place <;> simp

end Styling

end Highlighter

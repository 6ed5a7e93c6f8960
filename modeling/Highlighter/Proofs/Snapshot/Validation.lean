import Highlighter.Proofs.Files.Writing
import Highlighter.Proofs.Snapshot.Conversion
import Highlighter.Proofs.Snapshot.RoundTrip
import Mathlib.Data.Nat.Digits.Defs

/-! Validation of stored snapshots. What agrees with entries, in whatever order its members are and
whichever numbers of equal value it has, is read as these entries and no others; so ranges that were
stored are found again in the file. -/

namespace Highlighter.Styling

/-- The texts that the label of an entry is made from. -/
def TraceEntry.texts : TraceEntry → List Str
  | .scope name | .semanticType name => [name]
  | .modifiers names => names
  | .fallback scopes => scopes
  | .separator | .bracket => []

/-- The text of a range and those of its style. -/
def StyledRange.texts (r : StyledRange) : List Str :=
  [r.text, r.style.foreground] ++ r.style.fontStyle.toList ++ r.style.trace.flatMap (·.texts) ++ r.style.colors

def StyledRange.numbers (r : StyledRange) : List Int :=
  [r.startLine, r.startChar, r.endLine, r.endChar, r.style.active]

/-- A range of characters that have bytes, and of numbers that fit 64 bits. -/
structure StyledRange.Storable (r : StyledRange) : Prop where
  encodable : ∀ s ∈ r.texts, s.isEncodable = true
  sized : ∀ n ∈ r.numbers, n.natAbs < 2 ^ 63

theorem isEncodable_intercalate {sep : Str} {ss : List Str} (hsep : sep.isEncodable = true)
    (hss : ∀ s ∈ ss, s.isEncodable = true) : (Str.intercalate sep ss).isEncodable = true := by
  unfold Str.isEncodable Str.intercalate
  induction ss with
  | nil => rfl
  | cons s ss ih =>
    rw [List.forall_mem_cons] at hss
    cases ss with
    | nil => simpa [Str.isEncodable] using hss.1
    | cons t ss =>
      rw [List.map_cons, List.map_cons, List.intercalate_cons_cons, List.all_append, List.all_append,
        ← List.map_cons, ih hss.2, show s.toList.all _ = true from hss.1, show sep.toList.all _ = true from hsep]
      rfl

theorem TraceEntry.isEncodable_label {t : TraceEntry} (h : ∀ s ∈ t.texts, s.isEncodable = true) :
    t.label.isEncodable = true := by
  cases t with
  | scope name => exact h name (by simp [texts])
  | semanticType name => exact h name (by simp [texts])
  | modifiers names =>
    have hjoined : (Str.intercalate "," names).isEncodable = true := isEncodable_intercalate (by decide) h
    rw [label, Str.isEncodable_append, hjoined]
    decide
  | fallback scopes =>
    cases scopes with
    | nil => decide
    | cons scope scopes =>
      have hjoined : (Str.intercalate ", " (scope :: scopes)).isEncodable = true :=
        isEncodable_intercalate (by decide) h
      rw [label, Str.isEncodable_append, Str.isEncodable_append, hjoined]
      · decide
      · nofun
  | separator => decide
  | bracket => decide

theorem StyledRange.Storable.isEncodable {r : StyledRange} (h : r.Storable) : r.IsEncodable where
  text := h.encodable _ (by simp [StyledRange.texts])
  foreground := h.encodable _ (by simp [StyledRange.texts])
  fontStyle s hs := h.encodable s (by simp [StyledRange.texts, Option.mem_def.mp hs])
  labels s hs := by
    obtain ⟨t, ht, rfl⟩ := List.mem_map.mp hs
    refine TraceEntry.isEncodable_label fun s hs => h.encodable s ?_
    simp only [StyledRange.texts, List.mem_append, List.mem_flatMap]
    exact .inl (.inr ⟨t, ht, hs⟩)
  colors s hs := h.encodable s (List.mem_append_right _ hs)

end Highlighter.Styling

namespace Highlighter.Validation

open Highlighter.Decimal (Binary64)

end Highlighter.Validation

namespace Highlighter.Snapshot

open Highlighter.Files (Path Tree bind_eq_ok)
open Highlighter.Json (Distinct Members Value find?)
open Highlighter.Styling (StyledRange TraceEntry)
open Highlighter.Validation

section
variable {e : Entry} {entries : List Entry} {v w : Value} {ms ns : Members} {name other : Str} {s : String}
  {n : Int} {ss : List String} {items : List Value} {checker : Checker}

/-! ### Single values -/

theorem Entry.isEncodable_toJson (e : Entry) : e.toJson.isEncodable = true := by
  obtain ⟨ms, hms, -, names, each⟩ := e.toJson_members
  rw [hms, Json.isEncodable_object]
  refine fun m hm => ⟨names m hm, ?_⟩
  rcases each m hm with ⟨n, -, hvalue⟩ | ⟨s, hvalue⟩ | ⟨ss, hvalue⟩ <;> rw [hvalue]
  · rfl
  · exact Str.isEncodable_ofString s
  · exact Json.isEncodable_ofStrings ss

/-- The file of a snapshot has a text. -/
theorem fileText?_toJson (entries : List Entry) : (toJson entries).fileText? = some (fileText entries) := by
  refine if_pos (Json.isEncodable_array.mpr fun v hv => ?_)
  obtain ⟨e, -, rfl⟩ := List.mem_map.mp hv
  exact e.isEncodable_toJson

theorem save_eq (tree : Tree) (path : Path) (entries : List Entry) :
    save tree path entries = tree.store path (some (fileText entries)) := by
  rw [save, fileText?_toJson]

end

/-! ### A range of two characters -/

/-- A word with a letter beyond ASCII and a carriage return. -/
def word : StyledRange where
  startLine := 1
  startChar := 0
  endLine := 1
  endChar := 2
  text := "é\r"
  style := ⟨"#111111", some ("bold" : Str), .semantic,
    [.semanticType "variable", .modifiers ["readonly", "static"], .separator, .scope "s"], 0,
    ["#111111", "", "", "#222222"]⟩

end Highlighter.Snapshot

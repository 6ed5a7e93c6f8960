import Highlighter.Proofs.Files.Paths
import Highlighter.Proofs.Json.Agreement
import Highlighter.Proofs.Json.Printing
import Highlighter.Proofs.Text.Encoding
import Highlighter.Snapshot.File

/-! A stored snapshot is read back as the JSON of its entries, and it agrees with those entries only. -/

namespace Highlighter.Snapshot

open Highlighter.Files (Path Tree)
open Highlighter.Json (Distinct Legible Value find?)

def Entry.numbers (e : Entry) : List Int :=
  [e.startLine, e.startChar, e.endLine, e.endChar, e.activeScope]

/-- The numbers of an entry have no more digits than are read. -/
def Entry.Legible (e : Entry) : Prop :=
  ∀ n ∈ e.numbers, (Nat.toDigits 10 n.natAbs).length ≤ Json.greatestIntegerLength

section
variable {e f : Entry} {entries others : List Entry} {v : Value} {tree : Tree} {path : Path}

/-! ### The JSON of entries -/

/-- The members of an entry are its numbers, texts and lists of texts, each under a name of its own. -/
theorem Entry.toJson_members (e : Entry) : ∃ members, e.toJson = .object members ∧
    (members.map (·.1)).Nodup ∧ (∀ m ∈ members, m.1.isEncodable = true) ∧
      ∀ m ∈ members, (∃ n ∈ e.numbers, m.2 = .int n) ∨
        (∃ s : String, m.2 = .string s) ∨ ∃ items, m.2 = .ofStrings items := by
  refine ⟨_, rfl, ?_, ?_, ?_⟩ <;> cases e.fontStyle <;> simp [Entry.numbers]

theorem legible_ofStrings (items : List String) : Legible (.ofStrings items) := by
  refine .array fun v hv => ?_
  obtain ⟨s, -, rfl⟩ := List.mem_map.mp hv
  exact .string (Str.isEncodable_ofString s)

theorem distinct_ofStrings (items : List String) : Distinct (.ofStrings items) := by
  refine .array fun v hv => ?_
  obtain ⟨s, -, rfl⟩ := List.mem_map.mp hv
  exact .string s

theorem counted_ofStrings (items : List String) : (Value.ofStrings items).counted = .ofStrings items := by
  rw [Value.ofStrings, Value.counted, Json.countedItems_eq, List.map_map]
  rfl

theorem Entry.Legible.toJson (h : e.Legible) : Json.Legible e.toJson := by
  obtain ⟨members, hjson, names, encodable, each⟩ := e.toJson_members
  rw [hjson]
  refine .object names encodable fun m hm => ?_
  rcases each m hm with ⟨n, hn, hm⟩ | ⟨s, hm⟩ | ⟨items, hm⟩ <;> rw [hm]
  · exact .int (h n hn)
  · exact .string (Str.isEncodable_ofString s)
  · exact legible_ofStrings items

theorem Entry.distinct_toJson (e : Entry) : Distinct e.toJson := by
  obtain ⟨members, hjson, names, -, each⟩ := e.toJson_members
  rw [hjson]
  refine .object names fun m hm => ?_
  rcases each m hm with ⟨n, -, hm⟩ | ⟨s, hm⟩ | ⟨items, hm⟩ <;> rw [hm]
  · exact .int n
  · exact .string s
  · exact distinct_ofStrings items

theorem Entry.counted_toJson (e : Entry) : e.toJson.counted = e.toJson := by
  obtain ⟨members, hjson, -, -, each⟩ := e.toJson_members
  rw [hjson, Value.counted]
  refine congrArg Value.object (Json.countedMembers_of_counted fun m hm => ?_)
  rcases each m hm with ⟨n, -, hm⟩ | ⟨s, hm⟩ | ⟨items, hm⟩ <;> rw [hm]
  · rfl
  · rfl
  · exact counted_ofStrings items

theorem legible_toJson (h : ∀ e ∈ entries, e.Legible) : Legible (toJson entries) := by
  refine .array fun v hv => ?_
  obtain ⟨e, he, rfl⟩ := List.mem_map.mp hv
  exact (h e he).toJson

theorem distinct_toJson (entries : List Entry) : Distinct (toJson entries) := by
  refine .array fun v hv => ?_
  obtain ⟨e, -, rfl⟩ := List.mem_map.mp hv
  exact e.distinct_toJson

theorem counted_toJson (entries : List Entry) : (toJson entries).counted = toJson entries := by
  rw [toJson, Value.counted, Json.countedItems_eq, List.map_map]
  exact congrArg Value.array (List.map_congr_left fun e _ => e.counted_toJson)

/-! ### Agreement -/

/-- A stored value agrees with entries if, its truth values counted as numbers, it is their JSON. -/
theorem agrees_iff (hv : Distinct v) : agrees v entries = true ↔ v.counted.Same (toJson entries) := by
  rw [agrees, Json.agrees_iff_same hv (distinct_toJson entries), counted_toJson]

theorem same_ofStrings {xs ys : List String} :
    (Value.ofStrings xs).Same (.ofStrings ys) ↔ xs = ys := by
  rw [Value.ofStrings, Value.ofStrings, Json.same_array, List.forall₂_map_left_iff,
    List.forall₂_map_right_iff]
  simp only [Json.same_string, Str.ofString_inj, List.forall₂_eq_eq_eq]

theorem agrees_ofStrings {xs ys : List String} :
    (Value.ofStrings xs).agrees (.ofStrings ys) = true ↔ xs = ys := by
  rw [Json.agrees_iff_same (distinct_ofStrings xs) (distinct_ofStrings ys), counted_ofStrings,
    counted_ofStrings, same_ofStrings]

/-- The JSON of an entry is that of no other. -/
theorem Entry.same_toJson : e.toJson.Same f.toJson ↔ e = f := by
  rw [← e.counted_toJson, ← f.counted_toJson,
    ← Json.agrees_iff_same e.distinct_toJson f.distinct_toJson]
  obtain ⟨a, b, c, d, t, fg, font, src, sc, col, act⟩ := e
  obtain ⟨a', b', c', d', t', fg', font', src', sc', col', act'⟩ := f
  cases font <;> cases font' <;>
    simp [Entry.toJson, Value.agrees, Value.membersAgree, List.lookup_cons, agrees_ofStrings]

theorem same_toJson : (toJson entries).Same (toJson others) ↔ entries = others := by
  rw [toJson, toJson, Json.same_array, List.forall₂_map_left_iff, List.forall₂_map_right_iff]
  simp only [Entry.same_toJson, List.forall₂_eq_eq_eq]

/-- The JSON of entries agrees with these only. -/
theorem agrees_toJson : agrees (toJson entries) others = true ↔ entries = others := by
  rw [agrees_iff (distinct_toJson entries), counted_toJson, same_toJson]

/-! ### Files -/

/-- A value is read from a file that holds a text of it. -/
theorem readValue_eq_ok : readValue tree path = .ok v ↔ ∃ b text, tree.read path = .ok b ∧
    Text.decodeUtf8? b = some text ∧ Json.read (Text.unifyLineEnds text) = .ok v := by
  unfold readValue Tree.readText
  cases tree.read path with
  | error e => exact ⟨nofun, nofun⟩
  | ok b =>
    dsimp only [Except.map]
    cases hdecoded : Text.decodeUtf8? b with
    | none =>
      refine ⟨nofun, ?_⟩
      rintro ⟨_, text, ⟨⟩, htext, -⟩
      rw [hdecoded] at htext
      cases htext
    | some text =>
      refine Files.mapError_eq_ok.trans ⟨fun h => ⟨b, text, rfl, hdecoded, h⟩, ?_⟩
      rintro ⟨_, text', ⟨⟩, htext, h⟩
      rw [hdecoded] at htext
      cases htext
      exact h

theorem distinct_of_readValue (h : readValue tree path = .ok v) : Distinct v := by
  obtain ⟨b, text, -, -, hread⟩ := readValue_eq_ok.mp h
  exact Json.distinct_of_read hread

/-- What was stored of entries is read as their JSON. -/
theorem readValue_stored (h : tree.read path = .ok (Text.encodeUtf8 (fileText entries).toList))
    (hlegible : ∀ e ∈ entries, e.Legible) : readValue tree path = .ok (toJson entries) := by
  have hvalue := legible_toJson hlegible
  refine readValue_eq_ok.mpr ⟨_, _, h, Text.decodeUtf8?_encodeUtf8 _, ?_⟩
  rw [fileText, Text.unifyLineEnds_of_not_mem hvalue.not_mem_fileText, hvalue.read_fileText]

/-- Entries are stored as the same text only if they are the same. -/
theorem fileText_injective (he : ∀ e ∈ entries, e.Legible) (ho : ∀ e ∈ others, e.Legible)
    (h : fileText entries = fileText others) : entries = others := by
  have hread := (legible_toJson he).read_fileText
  rw [← fileText, h, fileText, (legible_toJson ho).read_fileText] at hread
  have hjson : toJson others = toJson entries := by simpa using hread
  rw [← same_toJson, hjson, same_toJson]

theorem fileBytes_injective (he : ∀ e ∈ entries, e.Legible) (ho : ∀ e ∈ others, e.Legible)
    (h : Text.encodeUtf8 (fileText entries).toList = Text.encodeUtf8 (fileText others).toList) :
    entries = others := by
  have hdecoded := congrArg Text.decodeUtf8? h
  rw [Text.decodeUtf8?_encodeUtf8, Text.decodeUtf8?_encodeUtf8] at hdecoded
  exact fileText_injective he ho (String.toList_inj.mp (Option.some.inj hdecoded))

end

end Highlighter.Snapshot

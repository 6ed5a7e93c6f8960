import Highlighter.Proofs.Grammar.Census
import Highlighter.Proofs.Grammar.Replay
import Highlighter.Proofs.Grammar.Scopes
import Mathlib.Data.List.ProdSigma

/-! How deep captures go within captures. Each capture divides a part of the text around it. A text that
is divided under a rule once more inside its own division is divided so forever, since nothing has changed
in between that bears on it; and otherwise there are only as many divisions as there are rules and sizes
of texts. -/

namespace Highlighter.Grammar

open Highlighter.Pattern (Text)

variable {engine : Engine} {line : Text} {c : Compiler} {stack : Stack} {depth : Nat}

/-! ### A division within another -/

/-- Captures go too deep in a division, whatever scope is around it. -/
def Call.DeepIn (engine : Engine) (depth : Nat) (k : Call) (c : Compiler) : Prop :=
  TooDeep (parts engine searchBound depth k.text [] k.rule) c

theorem deepIn_iff {k : Call} {scope : Scope} :
    TooDeep (parts engine searchBound depth k.text scope k.rule) c ↔ k.DeepIn engine depth c := by
  have hstack : (⟨⟨scope ++ k.rule.name, k.rule, none⟩, [], []⟩ : Stack) =
      Stack.onto scope ⟨⟨[] ++ k.rule.name, k.rule, none⟩, [], []⟩ := rfl
  unfold Call.DeepIn
  rw [tooDeep_parts, tooDeep_parts, hstack, divideLine_onto]
  exact failsBy_map

/-- What is known of a division once it is asked for. -/
structure Call.Proper (engine : Engine) (k : Call) : Prop where
  ready : k.state.compiled.lookup k.source.id = some k.rule
  met : k.state.Met k.source
  knows : k.state.Knows engine (mentions k.rule)

/-- More depth does not help where captures go too deep at a greater one. -/
theorem Call.DeepIn.anti {k : Call} {depth' : Nat} (hc : c.Knows engine (mentions k.rule))
    (hd : depth ≤ depth') (h : k.DeepIn engine depth' c) : k.DeepIn engine depth c := by
  by_contra hnot
  have hsame : outcome (parts engine searchBound depth' k.text [] k.rule) c =
      outcome (parts engine searchBound depth k.text [] k.rule) c := parts_continues hd hc hnot
  obtain ⟨e, he, hout⟩ := h
  exact hnot ⟨e, he, hsame ▸ hout⟩

/-- The first division comes, within itself and so many levels down, to the second: at all depths from one
on, and also when it is gone through again later. -/
structure Leads (engine : Engine) (least steps : Nat) (k k' : Call) : Prop where
  grows : k.state.Grows k'.state
  size_le : k'.text.size ≤ k.text.size
  text_eq : k'.text.size = k.text.size → k'.text = k.text
  again : ∀ depth, least ≤ depth → k'.DeepIn engine depth k'.state →
    k.DeepIn engine (depth + steps) k.state
  later : ∀ depth, least ≤ depth → ∀ e : Compiler, e.Recalls k'.state →
    k'.DeepIn engine depth e → k.DeepIn engine (depth + steps) e

theorem Leads.trans {least least' steps steps' : Nat} {k k' k'' : Call}
    (h : Leads engine least steps k k') (h' : Leads engine least' steps' k' k'')
    (hle : least ≤ least' + steps') : Leads engine least' (steps' + steps) k k'' := by
  refine ⟨h.grows.trans h'.grows, Nat.le_trans h'.size_le h.size_le, fun hs => ?_,
    fun depth hd hdeep => ?_, fun depth hd e he hdeep => ?_⟩
  · have hmiddle : k'.text.size = k.text.size :=
      Nat.le_antisymm h.size_le (hs ▸ h'.size_le)
    rw [h'.text_eq (hs.trans hmiddle.symm), h.text_eq hmiddle]
  · rw [← Nat.add_assoc]
    exact h.again _ (by omega) (h'.again depth hd hdeep)
  · rw [← Nat.add_assoc]
    exact h.later _ (by omega) e (he.of_grows h'.grows) (h'.later depth hd e he hdeep)

theorem size_extract_le (text : Text) (start stop : Nat) :
    (text.extract start stop).size ≤ text.size := by
  rw [Array.size_extract]
  omega

theorem extract_eq {text : Text} {start stop : Nat}
    (h : (text.extract start stop).size = text.size) : text.extract start stop = text := by
  rw [Array.size_extract] at h
  refine Array.ext (by rw [Array.size_extract]; exact h) fun i hi hi' => ?_
  rw [Array.getElem_extract]
  congr 1
  omega

/-- Where captures go too deep in a line, they do so in a part of it. -/
theorem divideLine_descends (hc : c.Knows engine (mentions stack))
    (h : TooDeep (divideLine engine searchBound (depth + 1) stack line) c) :
    ∃ k, Descends engine line (parts engine searchBound depth)
      (fun divide => searchLine engine searchBound
        (divideMatch (addCapture engine divide line)) stack line) c k :=
  (searchLine_scripted divideMatch_scripted).descends parts_lockstep hc h

theorem Descends.proper {divide : Division} {x : Division → Compile (Stack × List Region)} {k : Call}
    (h : Descends engine line divide x c k) : k.Proper engine := ⟨h.ready, h.met, h.knows⟩

/-- Where captures go too deep in a division, they do so in one within it. -/
theorem Call.Proper.leads {k : Call} (hk : k.Proper engine)
    (h : k.DeepIn engine (depth + 1) k.state) :
    ∃ k', k'.Proper engine ∧ Leads engine depth 1 k k' ∧ k'.DeepIn engine depth k'.state := by
  obtain ⟨k', hk'⟩ := divideLine_descends hk.knows.alone (tooDeep_parts.mp h)
  obtain ⟨start, stop, hwithin⟩ := hk'.within
  refine ⟨k', hk'.proper, ⟨hk'.grows, ?_, fun hs => ?_, fun depth hd hdeep => ?_,
    fun depth hd e he hdeep => ?_⟩, deepIn_iff.mp hk'.deep⟩
  · exact hwithin ▸ size_extract_le _ _ _
  · rw [hwithin] at hs ⊢
    exact extract_eq hs
  · exact tooDeep_parts.mpr (hk'.again (parts_continues hd) (deepIn_iff.mpr hdeep))
  · exact tooDeep_parts.mpr (hk'.later (parts_repeats hd) e he (deepIn_iff.mpr hdeep))

/-! ### A division within itself -/

/-- What tells apart divisions that lie within each other. -/
def Call.key (k : Call) : RuleId × Nat := (k.source.id, k.text.size)

/-- All keys of divisions of parts of a text. -/
def keys (l : Library) (size : Nat) : List (RuleId × Nat) := l.ids ×ˢ List.range (size + 1)

theorem length_keys (l : Library) (size : Nat) : (keys l size).length = l.ruleCount * (size + 1) := by
  rw [keys, List.length_product, Library.length_ids, List.length_range]

theorem Call.Proper.key_mem {k : Call} {size : Nat} (hk : k.Proper engine) (hs : k.text.size ≤ size) :
    k.key ∈ keys k.state.library size := by
  obtain ⟨g, hg, -⟩ := hk.met
  exact List.mem_product.mpr ⟨hg.mem_ids, List.mem_range.mpr (Nat.lt_succ_of_le hs)⟩

/-- A division that comes to itself goes too deep at every depth. -/
theorem Leads.forever {steps : Nat} {k k' : Call} (hk : k.Proper engine) (hk' : k'.Proper engine)
    (h : Leads engine depth (steps + 1) k k') (hkey : k'.key = k.key)
    (hdeep : k'.DeepIn engine depth k'.state) : ∀ d, k'.DeepIn engine d k'.state := by
  obtain ⟨hsource, hsize⟩ := Prod.mk.inj hkey
  have hrule : k.rule = k'.rule := by
    have hready := h.grows.compiled _ _ hk.ready
    rw [← hsource, hk'.ready] at hready
    exact (Option.some.inj hready).symm
  have hround (d : Nat) (hd : depth ≤ d) (hdeep : k'.DeepIn engine d k'.state) :
      k'.DeepIn engine (d + (steps + 1)) k'.state := by
    have hback := h.later d hd k'.state (.refl _) hdeep
    unfold Call.DeepIn at hback ⊢
    rwa [h.text_eq hsize, ← hrule]
  have hrounds (n : Nat) : k'.DeepIn engine (depth + n * (steps + 1)) k'.state := by
    induction n with
    | zero => simpa using hdeep
    | succ n ih =>
      have := hround _ (Nat.le_add_right _ _) ih
      rwa [Nat.add_assoc, ← Nat.succ_mul] at this
  intro d
  have hd : d ≤ d * (steps + 1) := Nat.le_mul_of_pos_right d (Nat.succ_pos steps)
  exact (hrounds d).anti hk'.knows (Nat.le_trans hd (Nat.le_add_left _ _))

/-- Divisions with keys of their own that all lead to one division. -/
structure Trail (engine : Engine) (depth size : Nat) (visited : List Call) (k : Call) : Prop where
  proper : ∀ v ∈ visited, v.Proper engine
  key_mem : ∀ v ∈ visited, v.key ∈ keys k.state.library size
  leads : ∀ v ∈ visited, ∃ steps, Leads engine depth (steps + 1) v k
  distinct : (visited.map Call.key).Nodup

theorem Trail.nil {size : Nat} {k : Call} : Trail engine depth size [] k :=
  ⟨by simp, by simp, by simp, .nil⟩

theorem Trail.seen {size : Nat} {visited : List Call} {k : Call}
    (ht : Trail engine depth size visited k) (hk : k.Proper engine)
    (hdeep : k.DeepIn engine depth k.state) (h : k.key ∈ visited.map Call.key) :
    ∀ d, k.DeepIn engine d k.state := by
  obtain ⟨v, hv, hkey⟩ := List.mem_map.mp h
  obtain ⟨steps, hleads⟩ := ht.leads v hv
  exact hleads.forever (ht.proper v hv) hk hkey.symm hdeep

/-- As long as a division has a key of its own, not all keys are taken. -/
theorem Trail.room {size : Nat} {visited : List Call} {k : Call}
    (ht : Trail engine depth size visited k) (hk : k.Proper engine) (hsize : k.text.size ≤ size)
    (h : k.key ∉ visited.map Call.key) :
    visited.length + 1 ≤ (keys k.state.library size).length := by
  have hnodup : (k.key :: visited.map Call.key).Nodup := List.nodup_cons.mpr ⟨h, ht.distinct⟩
  have hsub : k.key :: visited.map Call.key ⊆ keys k.state.library size := by
    refine List.cons_subset.mpr ⟨hk.key_mem hsize, fun key hkey => ?_⟩
    obtain ⟨v, hv, rfl⟩ := List.mem_map.mp hkey
    exact ht.key_mem v hv
  simpa using hnodup.length_le_of_subset hsub

theorem Trail.step {size : Nat} {visited : List Call} {k k' : Call}
    (ht : Trail engine (depth + 1) size visited k) (hk : k.Proper engine) (hsize : k.text.size ≤ size)
    (h : k.key ∉ visited.map Call.key) (hleads : Leads engine depth 1 k k') :
    Trail engine depth size (k :: visited) k' := by
  have hlibrary : k'.state.library = k.state.library := hleads.grows.library_eq
  refine ⟨fun v hv => ?_, fun v hv => ?_, fun v hv => ?_, List.nodup_cons.mpr ⟨h, ht.distinct⟩⟩
  · rcases List.mem_cons.mp hv with rfl | hv
    · exact hk
    · exact ht.proper v hv
  · rw [hlibrary]
    rcases List.mem_cons.mp hv with rfl | hv
    · exact hk.key_mem hsize
    · exact ht.key_mem v hv
  · rcases List.mem_cons.mp hv with rfl | hv
    · exact ⟨0, hleads⟩
    · obtain ⟨steps, hv⟩ := ht.leads v hv
      have htrans := hv.trans hleads (Nat.le_refl _)
      rw [Nat.add_comm] at htrans
      exact ⟨steps + 1, htrans⟩

/-- Captures that go too deep in a division, within others with keys of their own, do so at every depth
if the depth left is enough for all keys that are left. -/
theorem Trail.forever {size : Nat} {visited : List Call} {k : Call}
    (ht : Trail engine depth size visited k) (hk : k.Proper engine) (hsize : k.text.size ≤ size)
    (hdeep : k.DeepIn engine depth k.state)
    (hroom : (keys k.state.library size).length ≤ depth + visited.length) :
    ∀ d, k.DeepIn engine d k.state := by
  induction depth generalizing visited k with
  | zero =>
    by_cases h : k.key ∈ visited.map Call.key
    · exact ht.seen hk hdeep h
    · have := ht.room hk hsize h
      omega
  | succ depth ih =>
    by_cases h : k.key ∈ visited.map Call.key
    · exact ht.seen hk hdeep h
    · obtain ⟨k', hk', hleads, hdeep'⟩ := hk.leads hdeep
      have hforever := ih (ht.step hk hsize h hleads) hk' (Nat.le_trans hleads.size_le hsize) hdeep'
        (by rw [hleads.grows.library_eq, List.length_cons]; omega)
      intro d
      have hround := hleads.again (max depth d) (Nat.le_max_left _ _) (hforever _)
      exact hround.anti hk.knows (by omega)

/-! ### Lines -/

/-- More than captures can go deep in a line where they ever come to an end. -/
def nestingBound (l : Library) (line : Text) : Nat := l.ruleCount * (line.size + 1) + 1

/-- Captures that go deeper in a line than the bound go too deep at every depth. -/
theorem divideLine_forever (hc : c.Knows engine (mentions stack))
    (h : TooDeep (divideLine engine searchBound (nestingBound c.library line) stack line) c) :
    ∀ d, TooDeep (divideLine engine searchBound d stack line) c := by
  obtain ⟨k, hk⟩ := divideLine_descends hc h
  obtain ⟨start, stop, hwithin⟩ := hk.within
  have hforever := Trail.nil.forever hk.proper (hwithin ▸ size_extract_le _ _ _)
    (deepIn_iff.mp hk.deep) (by rw [hk.grows.library_eq, length_keys]; simp)
  intro d
  by_contra hnot
  have hdeeper : TooDeep (divideLine engine searchBound
      (max d (c.library.ruleCount * (line.size + 1)) + 1) stack line) c :=
    hk.again (parts_continues (Nat.le_max_right _ _)) (deepIn_iff.mpr (hforever _))
  have hsame := divideLine_continues
    (Nat.le_succ_of_le (Nat.le_max_left d (c.library.ruleCount * (line.size + 1)))) hc hnot
  obtain ⟨e, he, hout⟩ := hdeeper
  exact hnot ⟨e, he, hsame ▸ hout⟩

end Highlighter.Grammar

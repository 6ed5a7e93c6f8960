import Highlighter.Json.Reader
import Mathlib.Data.List.Perm.Subperm

/-! When JSON values are the same, and when they only agree: agreement also takes a truth value for the
number it counts as. -/

namespace Highlighter.Json

open Highlighter.Decimal (Binary64)

/-- No object within the value has two members of one name. -/
inductive Distinct : Value → Prop
  | null : Distinct .null
  | bool (b : Bool) : Distinct (.bool b)
  | int (n : Int) : Distinct (.int n)
  | float (x : Binary64) : Distinct (.float x)
  | string (s : Str) : Distinct (.string s)
  | array {items : List Value} (each : ∀ v ∈ items, Distinct v) : Distinct (.array items)
  | object {members : Members} (names : (members.map (·.1)).Nodup)
    (each : ∀ m ∈ members, Distinct m.2) : Distinct (.object members)

namespace Value

/-- Two values are the same: numbers by what they amount to, arrays item by item, and objects name by
name, in whatever order their members are. -/
inductive Same : Value → Value → Prop
  | null : Same .null .null
  | bool (b : Bool) : Same (.bool b) (.bool b)
  | int (n : Int) : Same (.int n) (.int n)
  | float {x y : Binary64} (h : x.equals y = true) : Same (.float x) (.float y)
  | floatInt {x : Binary64} {n : Int} (h : x.equalsInt n = true) : Same (.float x) (.int n)
  | intFloat {x : Binary64} {n : Int} (h : x.equalsInt n = true) : Same (.int n) (.float x)
  | string (s : Str) : Same (.string s) (.string s)
  | array {xs ys : List Value} (items : List.Forall₂ Same xs ys) : Same (.array xs) (.array ys)
  | object {ms ns : Members} (names : ∀ name, (find? ms name).isSome = (find? ns name).isSome)
    (members : ∀ name v w, find? ms name = some v → find? ns name = some w → Same v w) :
    Same (.object ms) (.object ns)

mutual

/-- The value with every truth value as the number it counts as. -/
def counted : Value → Value
  | .bool b => .int b.toInt
  | .array items => .array (countedItems items)
  | .object members => .object (countedMembers members)
  | v => v

def countedItems : List Value → List Value
  | [] => []
  | v :: rest => counted v :: countedItems rest

def countedMembers : Members → Members
  | [] => []
  | m :: rest => (m.1, counted m.2) :: countedMembers rest

end

end Value

open Value (counted countedItems countedMembers agrees itemsAgree membersAgree Same)

section
variable {v w : Value} {xs ys : List Value} {ms ns : Members} {name : Str}

/-! ### Members by name -/

theorem find?_cons (m : Str × Value) (ms : Members) (name : Str) :
    find? (m :: ms) name = if name = m.1 then some m.2 else find? ms name := by
  rw [find?, List.lookup_cons]
  by_cases h : name = m.1
  · rw [if_pos h, beq_iff_eq.mpr h]
  · rw [if_neg h, beq_eq_false_iff_ne.mpr h]
    rfl

theorem mem_of_find? (h : find? ms name = some v) : (name, v) ∈ ms := by
  induction ms with
  | nil => cases h
  | cons m ms ih =>
    rw [find?_cons] at h
    split at h
    · rename_i hname
      obtain rfl : m.2 = v := by simpa using h
      rw [hname]
      exact List.mem_cons_self
    · exact List.mem_cons_of_mem _ (ih h)

theorem find?_isSome : (find? ms name).isSome = true ↔ name ∈ ms.map (·.1) := by
  induction ms with
  | nil => simp [find?]
  | cons m ms ih =>
    rw [find?_cons, List.map_cons, List.mem_cons, ← ih]
    split
    · rename_i h
      simp [h]
    · rename_i h
      simp [h]

theorem find?_of_mem (names : (ms.map (·.1)).Nodup) (h : (name, v) ∈ ms) : find? ms name = some v := by
  induction ms with
  | nil => cases h
  | cons m ms ih =>
    rw [List.map_cons, List.nodup_cons] at names
    rw [find?_cons]
    rcases List.mem_cons.mp h with rfl | h
    · rw [if_pos rfl]
    · have hname : name ≠ m.1 := by
        rintro rfl
        exact names.1 (List.mem_map_of_mem (f := (·.1)) h)
      rw [if_neg hname, ih names.2 h]

theorem find?_countedMembers : find? (countedMembers ms) name = (find? ms name).map counted := by
  induction ms with
  | nil => rfl
  | cons m ms ih =>
    rw [countedMembers, find?_cons, find?_cons, ih]
    split <;> rfl

/-! ### Agreement -/

theorem countedItems_eq : countedItems xs = xs.map counted := by
  induction xs with
  | nil => rfl
  | cons x xs ih => rw [countedItems, ih, List.map_cons]

theorem countedMembers_of_counted (h : ∀ m ∈ ms, m.2.counted = m.2) : countedMembers ms = ms := by
  induction ms with
  | nil => rfl
  | cons m ms ih =>
    rw [List.forall_mem_cons] at h
    rw [countedMembers, h.1, ih h.2]

theorem membersAgree_iff : membersAgree ms ns = true ↔
    ∀ m ∈ ms, ∃ w, find? ns m.1 = some w ∧ agrees m.2 w = true := by
  induction ms with
  | nil => simp [membersAgree]
  | cons m ms ih =>
    rw [membersAgree, Bool.and_eq_true, ih, List.forall_mem_cons]
    refine and_congr_left fun _ => ?_
    rw [find?]
    cases ns.lookup m.1 <;> simp

/-- As many members of the same names as there are on the right are all there are. -/
theorem find?_isSome_of_subset (hms : (ms.map (·.1)).Nodup)
    (length : ms.length = ns.length) (h : ∀ m ∈ ms, (find? ns m.1).isSome = true) (name : Str) :
    (find? ms name).isSome = (find? ns name).isSome := by
  have hsub : ms.map (·.1) ⊆ ns.map (·.1) := by
    intro name hname
    obtain ⟨m, hm, rfl⟩ := List.mem_map.mp hname
    exact find?_isSome.mp (h m hm)
  have hperm := (List.subperm_of_subset hms hsub).perm_of_length_le (by simp [length])
  rw [Bool.eq_iff_iff, find?_isSome, find?_isSome, hperm.mem_iff]

theorem itemsAgree_iff (h : ∀ v ∈ xs, ∀ w ∈ ys, agrees v w = true ↔ Same v.counted w.counted) :
    itemsAgree xs ys = true ↔ List.Forall₂ Same (countedItems xs) (countedItems ys) := by
  induction xs generalizing ys with
  | nil => cases ys <;> simp [itemsAgree, countedItems]
  | cons x xs ih =>
    cases ys with
    | nil => simp [itemsAgree, countedItems]
    | cons y ys =>
      rw [itemsAgree, countedItems, countedItems, List.forall₂_cons, Bool.and_eq_true,
        h x List.mem_cons_self y List.mem_cons_self,
        ih fun v hv w hw => h v (List.mem_cons_of_mem _ hv) w (List.mem_cons_of_mem _ hw)]

theorem membersSame_iff (hms : (ms.map (·.1)).Nodup) (hns : (ns.map (·.1)).Nodup)
    (h : ∀ m ∈ ms, ∀ n ∈ ns, agrees m.2 n.2 = true ↔ Same m.2.counted n.2.counted) :
    agrees (.object ms) (.object ns) = true ↔
      Same (.object (countedMembers ms)) (.object (countedMembers ns)) := by
  have hmember {name : Str} {v w : Value} (hv : find? ms name = some v) (hw : find? ns name = some w) :
      agrees v w = true ↔ Same v.counted w.counted := h _ (mem_of_find? hv) _ (mem_of_find? hw)
  rw [agrees, Bool.and_eq_true, beq_iff_eq, membersAgree_iff]
  constructor
  · rintro ⟨length, hall⟩
    refine .object (fun name => ?_) fun name v w hv hw => ?_
    · rw [find?_countedMembers, find?_countedMembers, Option.isSome_map, Option.isSome_map]
      refine find?_isSome_of_subset hms length (fun m hm => ?_) name
      obtain ⟨w, hw, -⟩ := hall m hm
      rw [hw]
      rfl
    · rw [find?_countedMembers, Option.map_eq_some_iff] at hv hw
      obtain ⟨v, hv, rfl⟩ := hv
      obtain ⟨w, hw, rfl⟩ := hw
      obtain ⟨w', hw', hagree⟩ := hall _ (mem_of_find? hv)
      obtain rfl : w = w' := by simpa using hw.symm.trans hw'
      exact (hmember hv hw).mp hagree
  · rintro (_ | _ | _ | _ | _ | _ | _ | _ | ⟨names, members⟩)
    have hnames : ∀ name, name ∈ ms.map (·.1) ↔ name ∈ ns.map (·.1) := by
      intro name
      have hname := names name
      rw [find?_countedMembers, find?_countedMembers, Option.isSome_map, Option.isSome_map,
        Bool.eq_iff_iff, find?_isSome, find?_isSome] at hname
      exact hname
    refine ⟨?_, fun m hm => ?_⟩
    · simpa using ((List.perm_ext_iff_of_nodup hms hns).mpr hnames).length_eq
    · obtain ⟨w, hw⟩ := Option.isSome_iff_exists.mp
        (find?_isSome.mpr ((hnames m.1).mp (List.mem_map_of_mem (f := (·.1)) hm)))
      have hv := find?_of_mem hms (show (m.1, m.2) ∈ ms from hm)
      refine ⟨w, hw, (hmember hv hw).mpr (members m.1 _ _ ?_ ?_)⟩
      · rw [find?_countedMembers, hv]
        rfl
      · rw [find?_countedMembers, hw]
        rfl

section
variable {n k : Int} {x y : Binary64} {s t : Str}

@[simp] theorem same_int : Same (.int n) (.int k) ↔ n = k := ⟨by rintro ⟨⟩; rfl, by rintro rfl; exact .int n⟩

@[simp] theorem same_float : Same (.float x) (.float y) ↔ x.equals y = true :=
  ⟨by rintro ⟨⟩; assumption, .float⟩

@[simp] theorem same_floatInt : Same (.float x) (.int n) ↔ x.equalsInt n = true :=
  ⟨by rintro ⟨⟩; assumption, .floatInt⟩

@[simp] theorem same_intFloat : Same (.int n) (.float x) ↔ x.equalsInt n = true :=
  ⟨by rintro ⟨⟩; assumption, .intFloat⟩

@[simp] theorem same_string : Same (.string s) (.string t) ↔ s = t :=
  ⟨by rintro ⟨⟩; rfl, by rintro rfl; exact .string s⟩

@[simp] theorem same_array : Same (.array xs) (.array ys) ↔ List.Forall₂ Same xs ys :=
  ⟨by rintro ⟨⟩; assumption, .array⟩

end

/-- Values agree exactly if they are the same once truth values are counted as numbers. -/
theorem agrees_iff_same (hv : Distinct v) (hw : Distinct w) :
    agrees v w = true ↔ Same v.counted w.counted := by
  induction hv generalizing w with
  | null =>
    cases hw with
    | null => exact iff_of_true rfl .null
    | _ => simp only [agrees, counted, Bool.false_eq_true, false_iff]; nofun
  | bool b =>
    cases hw with
    | bool c => cases b <;> cases c <;> simp [agrees, counted]
    | int | float => simp [agrees, counted]
    | _ => simp only [agrees, counted, Bool.false_eq_true, false_iff]; nofun
  | int n =>
    cases hw with
    | bool | int | float => simp [agrees, counted]
    | _ => simp only [agrees, counted, Bool.false_eq_true, false_iff]; nofun
  | float x =>
    cases hw with
    | bool | int | float => simp [agrees, counted]
    | _ => simp only [agrees, counted, Bool.false_eq_true, false_iff]; nofun
  | string s =>
    cases hw with
    | string => simp [agrees, counted]
    | _ => simp only [agrees, counted, Bool.false_eq_true, false_iff]; nofun
  | @array xs _ ih =>
    cases hw with
    | @array ys each =>
      rw [agrees, itemsAgree_iff fun v hv w hw => ih v hv (each w hw), counted, counted, same_array]
    | _ => simp only [agrees, counted, Bool.false_eq_true, false_iff]; nofun
  | @object ms names _ ih =>
    cases hw with
    | @object ns names' each =>
      exact membersSame_iff names names' fun m hm n hn => ih m hm (each n hn)
    | _ => simp only [agrees, counted, Bool.false_eq_true, false_iff]; nofun

/-! ### What is read -/

theorem Distinct.put (hms : Distinct (.object ms)) (hv : Distinct v) : Distinct (.object (put ms name v)) := by
  cases hms with
  | object names each =>
    unfold Json.put
    split
    · refine .object ?_ fun m hm => ?_
      · rw [List.map_map]
        have hnames : ((·.1) ∘ fun m : Str × Value => if (m.1 == name) = true then (name, v) else m) =
            (·.1) := by
          funext m
          by_cases h : m.1 = name <;> simp [h]
        rw [hnames]
        exact names
      · obtain ⟨n, hn, rfl⟩ := List.mem_map.mp hm
        split
        · exact hv
        · exact each n hn
    · rename_i hnew
      refine .object ?_ fun m hm => ?_
      · rw [List.map_append, List.nodup_append]
        refine ⟨names, by simp, ?_⟩
        rintro a ha b hb rfl
        obtain rfl : a = name := by simpa using hb
        obtain ⟨m, hm, rfl⟩ := List.mem_map.mp ha
        exact hnew (List.any_eq_true.mpr ⟨m, hm, by simp⟩)
      · rcases List.mem_append.mp hm with hm | hm
        · exact each m hm
        · rw [List.mem_singleton.mp hm]
          exact hv

theorem constant?_distinct {s rest : List Char} (h : constant? s = some (v, rest)) : Distinct v := by
  obtain ⟨⟨word, u⟩, hword, h⟩ := List.exists_of_findSome?_eq_some h
  dsimp only at h
  split at h
  · cases h
    simp only [constants, List.mem_cons, Prod.mk.injEq, List.not_mem_nil, or_false] at hword
    rcases hword with ⟨-, rfl⟩ | ⟨-, rfl⟩ | ⟨-, rfl⟩ | ⟨-, rfl⟩ | ⟨-, rfl⟩ | ⟨-, rfl⟩ <;> constructor
  · cases h

theorem number?_distinct {s rest : List Char} (h : number? s = some (.ok (v, rest))) : Distinct v := by
  unfold number? at h
  split at h
  rename_i negative unsigned _
  cases hwhole : wholePart? unsigned with
  | none =>
    rw [hwhole] at h
    cases h
  | some found =>
    rw [hwhole] at h
    simp only [bind, Option.bind] at h
    split at h
    · split at h
      · cases h
      · cases h
        exact .int _
    · cases h
      exact .float _

theorem scalar_distinct {s rest : List Char} (h : scalar s = .ok (v, rest)) : Distinct v := by
  unfold scalar at h
  cases hconstant : constant? s with
  | some found =>
    rw [hconstant] at h
    cases h
    exact constant?_distinct hconstant
  | none =>
    rw [hconstant] at h
    cases hnumber : number? s with
    | none =>
      rw [hnumber] at h
      cases h
    | some found =>
      rw [hnumber] at h
      cases h
      exact number?_distinct hnumber

section
variable (fuel : Nat)

def ValuesDistinct : Prop := ∀ {s v rest}, value fuel s = .ok (v, rest) → Distinct v

def ItemsDistinct : Prop :=
  ∀ {s items rest}, elements fuel s = .ok (items, rest) → ∀ v ∈ items, Distinct v

def MembersDistinct : Prop := ∀ {before s members rest}, Distinct (.object before) →
  membersFrom fuel before s = .ok (members, rest) → Distinct (.object members)

end

section
variable {fuel : Nat}

theorem value_distinct_succ (hitems : ItemsDistinct fuel) (hmembers : MembersDistinct fuel) :
    ValuesDistinct (fuel + 1) := by
  intro s v rest h
  cases s with
  | nil => rw [value] at h; cases h
  | cons c s =>
    rw [value] at h
    split at h
    · cases hs : string s with
      | error f => rw [hs] at h; cases h
      | ok found =>
        rw [hs] at h
        cases h
        exact .string _
    split at h
    · split at h
      · cases h
        exact .array (by simp)
      · cases ht : elements fuel (skipBlanks s) with
        | error f => rw [ht] at h; cases h
        | ok found =>
          rw [ht] at h
          cases h
          exact .array (hitems ht)
    split at h
    · split at h
      · cases h
        exact .object List.nodup_nil (by simp)
      · cases ht : membersFrom fuel [] (skipBlanks s) with
        | error f => rw [ht] at h; cases h
        | ok found =>
          rw [ht] at h
          cases h
          exact hmembers (.object (by simp) (by simp)) ht
    · exact scalar_distinct h

theorem elements_distinct_succ (hvalue : ValuesDistinct fuel) (hitems : ItemsDistinct fuel) :
    ItemsDistinct (fuel + 1) := by
  intro s items rest h
  rw [elements] at h
  cases hs : value fuel s with
  | error f => rw [hs] at h; cases h
  | ok found =>
    obtain ⟨item, after⟩ := found
    rw [hs] at h
    simp only [bind, Except.bind] at h
    split at h
    · cases h
      simpa using hvalue hs
    · rename_i t _
      cases ht : elements fuel (skipBlanks t) with
      | error f => rw [ht] at h; cases h
      | ok found =>
        rw [ht] at h
        cases h
        exact List.forall_mem_cons.mpr ⟨hvalue hs, hitems ht⟩
    · cases h

theorem membersFrom_distinct_succ (hvalue : ValuesDistinct fuel) (hmembers : MembersDistinct fuel) :
    MembersDistinct (fuel + 1) := by
  intro before s members rest hb h
  unfold membersFrom at h
  split at h
  · rename_i t
    cases ht : string t with
    | error f => rw [ht] at h; cases h
    | ok found =>
      obtain ⟨name, after⟩ := found
      rw [ht] at h
      simp only [bind, Except.bind] at h
      split at h
      · rename_i u _
        cases hu : value fuel (skipBlanks u) with
        | error f => rw [hu] at h; cases h
        | ok found =>
          obtain ⟨v, after⟩ := found
          rw [hu] at h
          simp only [] at h
          have hput : Distinct (.object (put before name v)) := hb.put (hvalue hu)
          split at h
          · cases h
            exact hput
          · exact hmembers hput h
          · cases h
      · cases h
  · cases h

end

/-- What is read of values, items and members. -/
theorem reader_distinct (fuel : Nat) :
    ValuesDistinct fuel ∧ ItemsDistinct fuel ∧ MembersDistinct fuel := by
  induction fuel with
  | zero =>
    refine ⟨fun h => ?_, fun h => ?_, fun _ h => ?_⟩
    · rw [value] at h; cases h
    · rw [elements] at h; cases h
    · rw [membersFrom] at h; cases h
  | succ fuel ih =>
    obtain ⟨hvalue, hitems, hmembers⟩ := ih
    exact ⟨value_distinct_succ hitems hmembers, elements_distinct_succ hvalue hitems,
      membersFrom_distinct_succ hvalue hmembers⟩

/-- A value that was read has no object with two members of one name. -/
theorem distinct_of_read {s : List Char} (h : read s = .ok v) : Distinct v := by
  unfold read at h
  cases hdocument : document s with
  | error f => rw [hdocument] at h; cases h
  | ok u =>
    rw [hdocument] at h
    cases h
    unfold document at hdocument
    split at hdocument
    · cases hdocument
    · cases hread : value (2 * s.length + 2) (skipBlanks s) with
      | error f => rw [hread] at hdocument; cases hdocument
      | ok found =>
        rw [hread] at hdocument
        simp only [bind, Except.bind] at hdocument
        split at hdocument
        · cases hdocument
          exact (reader_distinct _).1 hread
        · cases hdocument

end

end Highlighter.Json

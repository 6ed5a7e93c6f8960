import Highlighter.Proofs.Json.Agreement
import Highlighter.Proofs.Json.Pieces

/-! What the reader of JSON takes from the front of a text, as a relation with one rule per way of
reading. The reader with enough fuel finds exactly what there is a derivation of. -/

namespace Highlighter.Json

open Highlighter.Files (bind_eq_ok)

/-- What is read: a value, the items of an array up to its end, or the members of an object up to its
end, added to those before. -/
inductive Part where
  | value (v : Value)
  | items (items : List Value)
  | members (before members : Members)

/-- The reader with so much fuel reads the part. -/
def Part.ReadBy (fuel : Nat) : Part → List Char → List Char → Prop
  | .value v, s, rest => Json.value fuel s = .ok (v, rest)
  | .items each, s, rest => elements fuel s = .ok (each, rest)
  | .members before all, s, rest => membersFrom fuel before s = .ok (all, rest)

/-- Fuel that is enough. A list starts where its first item does, so it needs more than that. -/
def Part.need : Part → List Char → Nat
  | .value _, s => 2 * s.length + 1
  | _, s => 2 * s.length + 2

/-- The part is read from the front of the first text, and the second one is left. -/
inductive Found : Part → List Char → List Char → Prop
  | string {x : Str} {s rest : List Char} (body : string s = .ok (x, rest)) :
    Found (.value (.string x)) ('"' :: s) rest
  | scalar {v : Value} {s rest : List Char} (read : scalar s = .ok (v, rest)) (ends : Ends rest) :
    Found (.value v) s rest
  | emptyArray {s rest : List Char} (closed : skipBlanks s = ']' :: rest) :
    Found (.value (.array [])) ('[' :: s) rest
  | array {items : List Value} {s rest : List Char} (each : Found (.items items) (skipBlanks s) rest) :
    Found (.value (.array items)) ('[' :: s) rest
  | emptyObject {s rest : List Char} (closed : skipBlanks s = '}' :: rest) :
    Found (.value (.object [])) ('{' :: s) rest
  | object {members : Members} {s rest : List Char}
    (each : Found (.members [] members) (skipBlanks s) rest) : Found (.value (.object members)) ('{' :: s) rest
  | lastItem {v : Value} {s after rest : List Char} (item : Found (.value v) s after)
    (closed : skipBlanks after = ']' :: rest) : Found (.items [v]) s rest
  | item {v : Value} {items : List Value} {s after more rest : List Char} (item : Found (.value v) s after)
    (comma : skipBlanks after = ',' :: more) (others : Found (.items items) (skipBlanks more) rest) :
    Found (.items (v :: items)) s rest
  | lastMember {before : Members} {name : Str} {v : Value} {s named more after rest : List Char}
    (key : string s = .ok (name, named)) (colon : skipBlanks named = ':' :: more)
    (item : Found (.value v) (skipBlanks more) after) (closed : skipBlanks after = '}' :: rest) :
    Found (.members before (put before name v)) ('"' :: s) rest
  | member {before members : Members} {name : Str} {v : Value} {s named more after others rest : List Char}
    (key : string s = .ok (name, named)) (colon : skipBlanks named = ':' :: more)
    (item : Found (.value v) (skipBlanks more) after) (comma : skipBlanks after = ',' :: others)
    (others : Found (.members (put before name v) members) (skipBlanks others) rest) :
    Found (.members before members) ('"' :: s) rest

section
variable {p : Part} {v : Value} {s rest : List Char} {c : Char} {fuel : Nat}

/-! ### From the reader -/

theorem ends_of_skipBlanks (h : skipBlanks s = c :: rest) (hc : c = ',' ∨ c = ']' ∨ c = '}') : Ends s := by
  cases s with
  | nil => exact ends_nil
  | cons d s =>
    by_cases hd : isJsonBlank d = true
    · simp [Ends, hd]
    · rw [skipBlanks_cons (by simpa using hd)] at h
      rw [(List.cons.inj h).1]
      exact ends_cons hc

section
variable (fuel : Nat)

def ValuesFound : Prop := ∀ {s v rest}, value fuel s = .ok (v, rest) → Ends rest → Found (.value v) s rest

def ItemsFound : Prop := ∀ {s items rest}, elements fuel s = .ok (items, rest) → Found (.items items) s rest

def MembersFound : Prop := ∀ {before s members rest},
  membersFrom fuel before s = .ok (members, rest) → Found (.members before members) s rest

end

theorem value_found_succ (hitems : ItemsFound fuel) (hmembers : MembersFound fuel) :
    ValuesFound (fuel + 1) := by
  intro s v rest h hends
  cases s with
  | nil => rw [value] at h; cases h
  | cons c s =>
    rw [value] at h
    split at h
    · rename_i hc
      obtain ⟨⟨x, after⟩, hbody, h⟩ := bind_eq_ok.mp h
      cases h
      rw [eq_of_beq hc]
      exact .string hbody
    split at h
    · rename_i hc
      rw [eq_of_beq hc]
      split at h
      · rename_i after hclosed
        cases h
        exact .emptyArray hclosed
      · obtain ⟨⟨items, after⟩, hread, h⟩ := bind_eq_ok.mp h
        cases h
        exact .array (hitems hread)
    split at h
    · rename_i hc
      rw [eq_of_beq hc]
      split at h
      · rename_i after hclosed
        cases h
        exact .emptyObject hclosed
      · obtain ⟨⟨members, after⟩, hread, h⟩ := bind_eq_ok.mp h
        cases h
        exact .object (hmembers hread)
    · exact .scalar h hends

theorem elements_found_succ (hvalue : ValuesFound fuel) (hitems : ItemsFound fuel) :
    ItemsFound (fuel + 1) := by
  intro s items rest h
  rw [elements] at h
  obtain ⟨⟨v, after⟩, hread, h⟩ := bind_eq_ok.mp h
  dsimp only at h
  split at h
  · rename_i hclosed
    cases h
    exact .lastItem (hvalue hread (ends_of_skipBlanks hclosed (by simp))) hclosed
  · rename_i more hcomma
    obtain ⟨⟨others, left⟩, hothers, h⟩ := bind_eq_ok.mp h
    cases h
    exact .item (hvalue hread (ends_of_skipBlanks hcomma (by simp))) hcomma (hitems hothers)
  · cases h

theorem membersFrom_found_succ (hvalue : ValuesFound fuel) (hmembers : MembersFound fuel) :
    MembersFound (fuel + 1) := by
  intro before s members rest h
  unfold membersFrom at h
  split at h
  · obtain ⟨⟨name, named⟩, hkey, h⟩ := bind_eq_ok.mp h
    dsimp only at h
    split at h
    · rename_i more hcolon
      obtain ⟨⟨v, after⟩, hread, h⟩ := bind_eq_ok.mp h
      dsimp only at h
      split at h
      · rename_i hclosed
        cases h
        exact .lastMember hkey hcolon (hvalue hread (ends_of_skipBlanks hclosed (by simp))) hclosed
      · rename_i others hcomma
        exact .member hkey hcolon (hvalue hread (ends_of_skipBlanks hcomma (by simp))) hcomma (hmembers h)
      · cases h
    · cases h
  · cases h

/-- What the reader reads there is a derivation of. -/
theorem reader_found (fuel : Nat) : ValuesFound fuel ∧ ItemsFound fuel ∧ MembersFound fuel := by
  induction fuel with
  | zero =>
    refine ⟨fun h => ?_, fun h => ?_, fun h => ?_⟩
    · rw [value] at h; cases h
    · rw [elements] at h; cases h
    · rw [membersFrom] at h; cases h
  | succ fuel ih =>
    obtain ⟨hvalue, hitems, hmembers⟩ := ih
    exact ⟨value_found_succ hitems hmembers, elements_found_succ hvalue hitems,
      membersFrom_found_succ hvalue hmembers⟩

/-! ### What a text starts with -/

/-- The characters that a value or a name starts with. -/
def isOpening (c : Char) : Bool := c == '"' || c == '[' || c == '{' || isScalarChar c

theorem isOpening_ne (hc : isOpening c = true) {d : Char} (hd : isOpening d = false) : c ≠ d := by
  rintro rfl
  rw [hc] at hd
  cases hd

theorem Found.opening (h : Found p s rest) : ∃ c cs, s = c :: cs ∧ isOpening c = true := by
  induction h with
  | string | emptyArray | array | emptyObject | object | lastMember | member => exact ⟨_, _, rfl, rfl⟩
  | scalar read ends =>
    obtain ⟨c, text, hs, hown, -⟩ := scalar_local read ends
    exact ⟨c, _, hs, by simp [isOpening, hown c List.mem_cons_self]⟩
  | lastItem _ _ ih | item _ _ _ ih _ => exact ih

/-! ### To the reader -/

theorem length_skipBlanks_le (s : List Char) : (skipBlanks s).length ≤ s.length :=
  (List.dropWhile_suffix _).length_le

theorem length_lt_of_skipBlanks (h : skipBlanks s = c :: rest) : rest.length < s.length := by
  have hle := length_skipBlanks_le s
  rw [h, List.length_cons] at hle
  omega

theorem string_length {x : Str} (h : string s = .ok (x, rest)) : rest.length < s.length := by
  obtain ⟨text, rfl, -⟩ := string_local h
  simp only [List.length_append, List.length_cons]
  omega

theorem skipBlanks_ne (h : Found p (skipBlanks s) rest) {d : Char} (hd : isOpening d = false) (more : List Char) :
    skipBlanks s ≠ d :: more := by
  intro heq
  obtain ⟨c, cs, hc, hopening⟩ := h.opening
  rw [heq] at hc
  exact isOpening_ne hopening hd (List.cons.inj hc).1.symm

theorem Found.shorter (h : Found p s rest) : rest.length < s.length := by
  induction h with
  | string body => exact (string_length body).trans (Nat.lt_succ_self _)
  | scalar read ends =>
    obtain ⟨c, text, rfl, -, -⟩ := scalar_local read ends
    simp only [List.length_cons, List.length_append]
    omega
  | emptyArray closed | emptyObject closed => exact (length_lt_of_skipBlanks closed).trans (Nat.lt_succ_self _)
  | @array items s rest each ih | @object members s rest each ih =>
    exact (ih.trans_le (length_skipBlanks_le s)).trans (Nat.lt_succ_self _)
  | lastItem item closed ih => exact (length_lt_of_skipBlanks closed).trans ih
  | @item v items s after more rest item comma others ih ihOthers =>
    exact ((ihOthers.trans_le (length_skipBlanks_le more)).trans (length_lt_of_skipBlanks comma)).trans ih
  | @lastMember before name v s named more after rest key colon item closed ih =>
    have hafter := ih.trans_le (length_skipBlanks_le more)
    exact (((length_lt_of_skipBlanks closed).trans hafter).trans
      ((length_lt_of_skipBlanks colon).trans (string_length key))).trans (Nat.lt_succ_self _)
  | @member before members name v s named more after others rest key colon item comma each ih ihEach =>
    have hafter := ih.trans_le (length_skipBlanks_le more)
    have hrest := (ihEach.trans_le (length_skipBlanks_le others)).trans (length_lt_of_skipBlanks comma)
    exact ((hrest.trans hafter).trans
      ((length_lt_of_skipBlanks colon).trans (string_length key))).trans (Nat.lt_succ_self _)

theorem succ_of_need (h : p.need s ≤ fuel) : ∃ n, fuel = n + 1 := by
  have hpos : 0 < p.need s := by cases p <;> simp [Part.need]
  exact ⟨fuel - 1, by omega⟩

/-- What there is a derivation of is read. -/
theorem Found.read (h : Found p s rest) : ∀ fuel, p.need s ≤ fuel → p.ReadBy fuel s rest := by
  induction h with
  | string body =>
    intro fuel hfuel
    obtain ⟨fuel, rfl⟩ := succ_of_need hfuel
    rw [Part.ReadBy, Json.value, if_pos (by decide), body]
    rfl
  | scalar read ends =>
    intro fuel hfuel
    obtain ⟨fuel, rfl⟩ := succ_of_need hfuel
    obtain ⟨c, text, rfl, hown, -⟩ := scalar_local read ends
    have hne {d : Char} (hd : isScalarChar d = false) : c ≠ d := ne_of_scalarChar (hown c List.mem_cons_self) hd
    rw [Part.ReadBy, Json.value, if_neg (by simpa using hne (d := '"') rfl),
      if_neg (by simpa using hne (d := '[') rfl), if_neg (by simpa using hne (d := '{') rfl), read]
  | emptyArray closed =>
    intro fuel hfuel
    obtain ⟨fuel, rfl⟩ := succ_of_need hfuel
    rw [Part.ReadBy, Json.value, if_neg (by decide), if_pos (by decide), closed]
    rfl
  | @array items s rest each ih =>
    intro fuel hfuel
    obtain ⟨fuel, rfl⟩ := succ_of_need hfuel
    have hle := length_skipBlanks_le s
    have hread : elements fuel (skipBlanks s) = .ok (items, rest) :=
      ih fuel (by simp only [Part.need, List.length_cons] at hfuel ⊢; omega)
    rw [Part.ReadBy, Json.value, if_neg (by decide), if_pos (by decide)]
    split
    · rename_i heq
      exact absurd heq (skipBlanks_ne each rfl _)
    · rw [hread]
      rfl
  | emptyObject closed =>
    intro fuel hfuel
    obtain ⟨fuel, rfl⟩ := succ_of_need hfuel
    rw [Part.ReadBy, Json.value, if_neg (by decide), if_neg (by decide), if_pos (by decide), closed]
    rfl
  | @object members s rest each ih =>
    intro fuel hfuel
    obtain ⟨fuel, rfl⟩ := succ_of_need hfuel
    have hle := length_skipBlanks_le s
    have hread : membersFrom fuel [] (skipBlanks s) = .ok (members, rest) :=
      ih fuel (by simp only [Part.need, List.length_cons] at hfuel ⊢; omega)
    rw [Part.ReadBy, Json.value, if_neg (by decide), if_neg (by decide), if_pos (by decide)]
    split
    · rename_i heq
      exact absurd heq (skipBlanks_ne each rfl _)
    · rw [hread]
      rfl
  | @lastItem v s after rest item closed ih =>
    intro fuel hfuel
    obtain ⟨fuel, rfl⟩ := succ_of_need hfuel
    have hread : Json.value fuel s = .ok (v, after) := ih fuel (by simp only [Part.need] at hfuel ⊢; omega)
    rw [Part.ReadBy, elements, hread]
    simp only [bind, Except.bind, closed]
    rfl
  | @item v items s after more rest item comma others ih ihOthers =>
    intro fuel hfuel
    obtain ⟨fuel, rfl⟩ := succ_of_need hfuel
    have hmore := (length_skipBlanks_le more).trans_lt ((length_lt_of_skipBlanks comma).trans item.shorter)
    have hread : Json.value fuel s = .ok (v, after) := ih fuel (by simp only [Part.need] at hfuel ⊢; omega)
    have hothers : elements fuel (skipBlanks more) = .ok (items, rest) :=
      ihOthers fuel (by simp only [Part.need] at hfuel ⊢; omega)
    rw [Part.ReadBy, elements, hread]
    simp only [bind, Except.bind, comma, hothers]
    rfl
  | @lastMember before name v s named more after rest key colon item closed ih =>
    intro fuel hfuel
    obtain ⟨fuel, rfl⟩ := succ_of_need hfuel
    have hmore := (length_skipBlanks_le more).trans_lt ((length_lt_of_skipBlanks colon).trans (string_length key))
    have hread : Json.value fuel (skipBlanks more) = .ok (v, after) :=
      ih fuel (by simp only [Part.need, List.length_cons] at hfuel ⊢; omega)
    rw [Part.ReadBy, membersFrom]
    simp only [bind, Except.bind, key, colon, hread, closed]
    rfl
  | @member before members name v s named more after others rest key colon item comma each ih ihEach =>
    intro fuel hfuel
    obtain ⟨fuel, rfl⟩ := succ_of_need hfuel
    have hmore := (length_skipBlanks_le more).trans_lt ((length_lt_of_skipBlanks colon).trans (string_length key))
    have hothers := (length_skipBlanks_le others).trans_lt ((length_lt_of_skipBlanks comma).trans item.shorter)
    have hread : Json.value fuel (skipBlanks more) = .ok (v, after) :=
      ih fuel (by simp only [Part.need, List.length_cons] at hfuel ⊢; omega)
    have heach : membersFrom fuel (put before name v) (skipBlanks others) = .ok (members, rest) :=
      ihEach fuel (by simp only [Part.need, List.length_cons] at hfuel ⊢; omega)
    rw [Part.ReadBy, membersFrom]
    simp only [bind, Except.bind, key, colon, hread, comma, heach]

theorem ends_of_skipBlanks_nil (h : skipBlanks s = []) : Ends s := by
  cases s with
  | nil => exact ends_nil
  | cons c s =>
    have hc : isJsonBlank c = true := by
      by_contra hc
      rw [skipBlanks_cons (by simpa using hc)] at h
      cases h
    simp [Ends, hc]

/-- A text is read as a value if there is a derivation of the value from its first character that is not
blank, and only blanks are left. -/
theorem read_eq_ok : Json.read s = .ok v ↔
    (∀ cs, s ≠ '\uFEFF' :: cs) ∧ ∃ rest, Found (.value v) (skipBlanks s) rest ∧ skipBlanks rest = [] := by
  rw [Json.read, Files.mapError_eq_ok]
  unfold document
  constructor
  · intro h
    split at h
    · cases h
    · rename_i hmark
      obtain ⟨⟨w, rest⟩, hread, h⟩ := bind_eq_ok.mp h
      dsimp only at h
      split at h
      · rename_i hleft
        cases h
        exact ⟨fun cs hcs => hmark cs hcs,
          rest, (reader_found _).1 hread (ends_of_skipBlanks_nil hleft), hleft⟩
      · cases h
  · rintro ⟨hmark, rest, hfound, hleft⟩
    have hle := length_skipBlanks_le s
    have hread : value (2 * s.length + 2) (skipBlanks s) = .ok (v, rest) :=
      hfound.read _ (by simp only [Part.need]; omega)
    split
    · exact absurd rfl (hmark _)
    · rw [hread]
      simp only [bind, Except.bind, hleft]
      rfl

end

end Highlighter.Json

/-! Texts of code points. An escape can write half of a surrogate pair into a text; such a half is no
character, and a text that has one cannot be written in bytes. What a program makes of characters alone is a
`String`; what comes out of escapes is a `Str`. -/

namespace Highlighter

/-- A character, or a surrogate that stands alone, by its number from the first one on. -/
inductive CodePoint where
  | char (c : Char)
  | lone (n : Fin 0x800)
  deriving DecidableEq, Repr, Inhabited

namespace CodePoint

/-- The number of the first surrogate. -/
def firstSurrogate : Nat := 0xD800

def code : CodePoint → Nat
  | char c => c.toNat
  | lone n => firstSurrogate + n

/-- The code point of a number: half of a surrogate pair is no character. -/
def ofCode (code : Nat) : CodePoint :=
  if h : firstSurrogate ≤ code ∧ code < firstSurrogate + 0x800 then lone ⟨code - firstSurrogate, by omega⟩
  else char (Char.ofNat code)

def char? : CodePoint → Option Char
  | char c => some c
  | lone _ => none

/-- Whether it is a digit of ASCII. -/
def isDigit (p : CodePoint) : Bool := p.char?.any (·.isDigit)

theorem ofCode_toNat (c : Char) : ofCode c.toNat = char c := by
  have hvalid : c.toNat < 0xD800 ∨ 0xDFFF < c.toNat ∧ c.toNat < 0x110000 := c.valid
  rw [ofCode, dif_neg (by unfold firstSurrogate; omega), Char.ofNat_toNat]

theorem code_of_ofCode_eq_lone {code : Nat} {n : Fin 0x800} (h : ofCode code = lone n) : (lone n).code = code := by
  unfold ofCode at h
  split at h
  · rename_i hbounds
    rw [← lone.inj h]
    exact Nat.add_sub_cancel' hbounds.1
  · cases h

theorem ofCode_lone (n : Fin 0x800) : ofCode (lone n).code = lone n := by
  rw [ofCode, dif_pos (by simp only [code]; omega)]
  simp [code]

@[simp] theorem char?_char (c : Char) : (char c).char? = some c := rfl

@[simp] theorem char?_lone (n : Fin 0x800) : (lone n).char? = none := rfl

end CodePoint

/-- A text of code points. -/
@[ext] structure Str where
  ofList ::
  toList : List CodePoint
  deriving DecidableEq, Repr, Inhabited

namespace Str

@[coe] def ofString (s : String) : Str := ofList (s.toList.map .char)

instance : Coe String Str := ⟨ofString⟩

instance : Append Str := ⟨fun s t => ofList (s.toList ++ t.toList)⟩

def length (s : Str) : Nat := s.toList.length

/-- Texts with another between each two of them. -/
def intercalate (sep : Str) (ss : List Str) : Str := ofList (sep.toList.intercalate (ss.map toList))

/-- Whether a text can be written in bytes. -/
def isEncodable (s : Str) : Bool := s.toList.all (·.char?.isSome)

/-- The text as one of characters. -/
def text? (s : Str) : Option String :=
  if s.isEncodable then some (String.ofList (s.toList.filterMap (·.char?))) else none

/-! ### Texts of characters -/

variable {s t : Str} {a b : String} {ss : List Str}

@[simp] theorem toList_ofString (a : String) : (ofString a).toList = a.toList.map .char := rfl

@[simp, norm_cast] theorem ofString_inj : (a : Str) = b ↔ a = b := by
  constructor
  · intro h
    have hchars : a.toList.map CodePoint.char = b.toList.map CodePoint.char := congrArg toList h
    exact String.toList_inj.mp ((List.map_inj_right fun _ _ => CodePoint.char.inj).mp hchars)
  · exact congrArg ofString

@[simp] theorem ofString_beq (a b : String) : ((a : Str) == b) = (a == b) := by
  rw [Bool.eq_iff_iff, beq_iff_eq, beq_iff_eq, ofString_inj]

@[simp] theorem length_ofString (a : String) : (a : Str).length = a.length := by
  simp [length, String.length_toList]

@[simp] theorem toList_append (s t : Str) : (s ++ t).toList = s.toList ++ t.toList := rfl

@[simp, norm_cast] theorem ofString_append (a b : String) :
    ((a ++ b : String) : Str) = (a : Str) ++ (b : Str) := by
  ext1
  simp

@[simp] theorem isEncodable_ofString (a : String) : (a : Str).isEncodable = true := by
  simp [isEncodable]

theorem filterMap_char? (cs : List Char) : (cs.map CodePoint.char).filterMap (·.char?) = cs := by
  simp [List.filterMap_map, Function.comp_def]

theorem isEncodable_iff : s.isEncodable = true ↔ ∃ a : String, s = a := by
  constructor
  · intro h
    refine ⟨String.ofList (s.toList.filterMap (·.char?)), ?_⟩
    ext1
    rw [toList_ofString, String.toList_ofList]
    rw [isEncodable, List.all_eq_true] at h
    generalize s.toList = cs at h
    induction cs with
    | nil => rfl
    | cons c cs ih =>
      rw [List.forall_mem_cons] at h
      cases c with
      | char c =>
        simp only [List.filterMap_cons, CodePoint.char?_char, List.map_cons, ← ih h.2]
      | lone n => cases h.1
  · rintro ⟨a, rfl⟩
    exact isEncodable_ofString a

@[simp] theorem text?_ofString (a : String) : (a : Str).text? = some a := by
  rw [text?, if_pos (isEncodable_ofString a), toList_ofString, filterMap_char?, String.ofList_toList]

theorem text?_eq_some : s.text? = some a ↔ s = a := by
  constructor
  · intro h
    by_cases hs : s.isEncodable = true
    · obtain ⟨b, rfl⟩ := isEncodable_iff.mp hs
      rw [text?_ofString] at h
      rw [Option.some.inj h]
    · rw [text?, if_neg hs] at h
      cases h
  · rintro rfl
    exact text?_ofString a

theorem text?_eq_none : s.text? = none ↔ s.isEncodable = false := by
  unfold text?
  split
  · simp [*]
  · simp [*]

protected theorem append_assoc (s t u : Str) : s ++ t ++ u = s ++ (t ++ u) := Str.ext (List.append_assoc ..)

@[simp] theorem append_empty (s : Str) : s ++ (("" : String) : Str) = s := Str.ext (List.append_nil _)

@[simp] theorem empty_append (s : Str) : (("" : String) : Str) ++ s = s := rfl

@[simp] theorem isEncodable_append : (s ++ t).isEncodable = (s.isEncodable && t.isEncodable) := List.all_append

end Str

end Highlighter

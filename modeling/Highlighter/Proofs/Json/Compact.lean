import Highlighter.Proofs.Json.Numbers
import Highlighter.Proofs.Text.Encoding
import Mathlib.Data.List.Chain

/-! What is written on one line in ASCII is read back as the value. A string comes back as it was unless
a high surrogate that stands alone is followed by a low one: the two escapes are read as one character. -/

namespace Highlighter.Json

open Highlighter.Decimal (Binary64)

/-- The ways a code point is written in ASCII: a short escape, itself, an escape of its own code, or the escapes of
two surrogates. -/
inductive Spelled (p : CodePoint) : List Char → Prop
  | short {c d : Char} (is : p = .char c) (stands : shortEscape? d = some c) (ascii : d.toNat < 128)
    (notLong : d ≠ 'u') : Spelled p ['\\', d]
  | plain {c : Char} (is : p = .char c) (notQuote : c ≠ '"') (notEscape : c ≠ '\\') (low : 32 ≤ c.toNat)
    (ascii : c.toNat < 128) : Spelled p [c]
  | escape {code : Nat} (bound : code < 0x10000) (is : p = .ofCode code) : Spelled p (hexEscape code)
  | pair {n : Nat} (bound : n < 0x100000) (is : p = .char (Char.ofNat (0x10000 + n))) :
    Spelled p (hexEscape (0xD800 + n / 0x400) ++ hexEscape (0xDC00 + n % 0x400))

/-- A high surrogate before a low one: the escapes of the two are read as one character. -/
def Paired : CodePoint → CodePoint → Prop
  | .lone high, .lone low => high.val < 0x400 ∧ 0x400 ≤ low.val
  | _, _ => False

def Unpaired (s : Str) : Prop := s.toList.IsChain fun p q => ¬ Paired p q

def Ascii (s : List Char) : Prop := ∀ c ∈ s, c.toNat < 128

/-- A value that can be read again from one line: its integers are not too long, its doubles are in the
form that readers give them, its strings and names have no pairs, and each name is there once. -/
inductive Sendable : Value → Prop
  | null : Sendable .null
  | bool (b : Bool) : Sendable (.bool b)
  | int {n : Int} (short : (Nat.toDigits 10 n.natAbs).length ≤ greatestIntegerLength) : Sendable (.int n)
  | float {x : Binary64} (normal : x.IsNormal) : Sendable (.float x)
  | string {s : Str} (unpaired : Unpaired s) : Sendable (.string s)
  | array {items : List Value} (each : ∀ v ∈ items, Sendable v) : Sendable (.array items)
  | object {members : Members} (names : (members.map (·.1)).Nodup)
    (unpaired : ∀ m ∈ members, Unpaired m.1) (each : ∀ m ∈ members, Sendable m.2) :
    Sendable (.object members)

/-- What is written in front of a text is ASCII and read as the value. -/
def Spells (v : Value) (onto : List Char → List Char) : Prop :=
  ∃ text, (∀ rest, onto rest = text ++ rest) ∧ Reads v text ∧ Ascii text

section
variable {c : Char} {p q : CodePoint} {s : List CodePoint} {t rest text : List Char} {code low fuel opening : Nat}

/-! ### Characters -/

theorem spelled_char (c : Char) : Spelled (.char c) (stringChar true c) := by
  unfold stringChar
  cases h : requiredEscape? c with
  | some escape =>
    unfold requiredEscape? at h
    split at h <;> cases h <;> exact .short rfl rfl (by decide) (by decide)
  | none =>
    obtain ⟨hquote, hescape⟩ := requiredEscape?_none h
    have hvalid := Text.toNat_valid c
    by_cases hplain : 32 ≤ c.toNat ∧ c.toNat < 127
    · have hother : ¬ (c.toNat < 32 || (true && 127 ≤ c.toNat)) = true := by simp; omega
      simpa only [if_neg hother] using .plain rfl hquote hescape hplain.1 (by omega)
    · have hother : (c.toNat < 32 || (true && 127 ≤ c.toNat)) = true := by simp; omega
      simp only [if_pos hother]
      split
      · exact .escape (by assumption) (CodePoint.ofCode_toNat c).symm
      · refine .pair (by omega) ?_
        rw [Nat.add_sub_cancel' (by omega), Char.ofNat_toNat]

theorem spelled : (p : CodePoint) → Spelled p (stringPoint true p)
  | .char c => spelled_char c
  | .lone n =>
    .escape (by simp only [CodePoint.code, CodePoint.firstSurrogate]; omega) (CodePoint.ofCode_lone n).symm

theorem ascii_hexEscape (n : Nat) : Ascii (hexEscape n) := by
  have hdigit : ∀ k, (hexDigitOf k).toNat < 128 := by
    have hall : ∀ d < 16, (Nat.digitChar d).toNat < 128 := by decide
    exact fun k => hall _ (Nat.mod_lt k (by decide))
  simp [Ascii, hexEscape, hdigit]

theorem Spelled.ascii (h : Spelled p text) : Ascii text := by
  cases h with
  | short is stands ascii notLong => simpa [Ascii] using ascii
  | plain is notQuote notEscape low ascii => simpa [Ascii] using ascii
  | escape => exact ascii_hexEscape _
  | pair => exact List.forall_mem_append.mpr ⟨ascii_hexEscape _, ascii_hexEscape _⟩

theorem Spelled.ne_nil (h : Spelled p text) : text ≠ [] := by
  cases h <;> simp [hexEscape]

/-! ### Escapes -/

theorem unicodeEscape_of_not_escape (h : ∀ more, rest ≠ '\\' :: 'u' :: more) :
    unicodeEscape code rest = .ok (.ofCode code, rest) := by
  unfold unicodeEscape
  dsimp only
  split
  · exact absurd rfl (h _)
  · rfl

/-- An escape that is followed by that of no low surrogate stands for itself. -/
theorem unicodeEscape_of_not_low (hbound : low < 0x10000) (hlow : low < 0xDC00 ∨ 0xE000 ≤ low) :
    unicodeEscape code (hexEscape low ++ rest) = .ok (.ofCode code, hexEscape low ++ rest) := by
  have hsplit : hexEscape low ++ rest = '\\' :: 'u' :: ((hexEscape low).drop 2 ++ rest) := rfl
  have hfour : fourHex? ((hexEscape low).drop 2 ++ rest) = some (low, rest) := fourHex?_hexEscape hbound
  have hnone : (decide (0xDC00 ≤ low) && decide (low < 0xE000)) = false := by simp; omega
  rw [hsplit, unicodeEscape]
  split
  · simp only [hfour, hnone, Bool.false_eq_true, if_false]
  · rfl

/-- The escapes of a high and a low surrogate stand for one character. -/
theorem unicodeEscape_pair {n : Nat} (hn : n < 0x100000) (hrest : rest ≠ []) :
    unicodeEscape (0xD800 + n / 0x400) (hexEscape (0xDC00 + n % 0x400) ++ rest) =
      .ok (.char (Char.ofNat (0x10000 + n)), rest) := by
  have hsplit : hexEscape (0xDC00 + n % 0x400) ++ rest =
      '\\' :: 'u' :: ((hexEscape (0xDC00 + n % 0x400)).drop 2 ++ rest) := rfl
  have hfour : fourHex? ((hexEscape (0xDC00 + n % 0x400)).drop 2 ++ rest) = some (0xDC00 + n % 0x400, rest) :=
    fourHex?_hexEscape (by omega)
  have hlong : 4 < ((hexEscape (0xDC00 + n % 0x400)).drop 2 ++ rest).length := by
    have hpos := List.length_pos_iff.mpr hrest
    rw [List.length_append, show ((hexEscape (0xDC00 + n % 0x400)).drop 2).length = 4 from rfl]
    omega
  have hhigh : (decide (0xD800 ≤ 0xD800 + n / 0x400) && decide (0xD800 + n / 0x400 < 0xDC00) &&
      decide (4 < ((hexEscape (0xDC00 + n % 0x400)).drop 2 ++ rest).length)) = true := by
    simp only [hlong, decide_true, Bool.and_true, Bool.and_eq_true, decide_eq_true_eq]
    omega
  have hlow : (decide (0xDC00 ≤ 0xDC00 + n % 0x400) && decide (0xDC00 + n % 0x400 < 0xE000)) = true := by
    simp only [Bool.and_eq_true, decide_eq_true_eq]
    omega
  have hvalue : 0x10000 + (0xD800 + n / 0x400 - 0xD800) * 0x400 + (0xDC00 + n % 0x400 - 0xDC00) =
      0x10000 + n := by omega
  rw [hsplit, unicodeEscape]
  simp only [hhigh, if_true, hfour, hlow, hvalue]

/-! ### Strings -/

/-- The escape of a surrogate stands for it, unless it is a high one that the escape of a low one follows. -/
theorem unicodeEscape_ofCode (h : ∀ high, CodePoint.ofCode code = .lone high → high.val < 0x400 →
    unicodeEscape code rest = .ok (.lone high, rest)) : unicodeEscape code rest = .ok (.ofCode code, rest) := by
  by_cases hhigh : code < 0xD800 ∨ 0xDC00 ≤ code
  · exact unicodeEscape_of_not_high hhigh
  · have hcode : CodePoint.ofCode code = .lone ⟨code - 0xD800, by omega⟩ :=
      dif_pos (by unfold CodePoint.firstSurrogate; omega)
    rw [hcode]
    exact h _ hcode (by simp only; omega)

/-- A code point is read back from the way it is spelled, where a high surrogate stays alone. -/
theorem Spelled.stringBody (h : Spelled p text) (hrest : rest ≠ [])
    (halone : ∀ high, p = .lone high → high.val < 0x400 →
      unicodeEscape (CodePoint.lone high).code rest = .ok (.lone high, rest)) :
    stringBody opening (fuel + 1) (text ++ rest) =
      (stringBody opening fuel rest).map fun found => (p :: found.1, found.2) := by
  cases h with
  | short is stands ascii notLong => exact is ▸ stringBody_short stands notLong
  | plain is notQuote notEscape low ascii => exact is ▸ stringBody_plain notQuote notEscape low
  | @escape code bound is =>
    refine stringBody_unicodeEscape bound hrest (is ▸ unicodeEscape_ofCode fun high hcode hlow => ?_)
    have hread := halone high (is.trans hcode) hlow
    rwa [CodePoint.code_of_ofCode_eq_lone hcode] at hread
  | @pair n bound is =>
    rw [List.append_assoc]
    exact stringBody_unicodeEscape (by omega) (by simp [hexEscape]) (is ▸ unicodeEscape_pair bound hrest)

/-- Nothing but a low surrogate completes an escape before it. -/
theorem Spelled.completes_none (h : Spelled q text) (hq : ∀ low, q = .lone low → low.val < 0x400) :
    unicodeEscape code (text ++ rest) = .ok (.ofCode code, text ++ rest) := by
  cases h with
  | short is stands ascii notLong => exact unicodeEscape_of_not_escape (by simpa using notLong)
  | plain is notQuote notEscape low ascii => exact unicodeEscape_of_not_escape (by simp [notEscape])
  | @escape low bound is =>
    refine unicodeEscape_of_not_low bound ?_
    by_contra hlow
    have hcontra := hq ⟨low - 0xD800, by omega⟩ (is.trans (dif_pos (by unfold CodePoint.firstSurrogate; omega)))
    simp only at hcontra
    omega
  | @pair n bound is =>
    rw [List.append_assoc]
    exact unicodeEscape_of_not_low (by omega) (by omega)

/-- The code points of a string without pairs are read back. -/
theorem stringBody_ascii (h : s.IsChain fun p q => ¬ Paired p q) (hfuel : s.length < fuel) :
    stringBody opening fuel (s.flatMap (stringPoint true) ++ '"' :: rest) = .ok (s, rest) := by
  induction s generalizing fuel with
  | nil =>
    obtain ⟨fuel, rfl⟩ : ∃ n, fuel = n + 1 := ⟨fuel - 1, by simp at hfuel; omega⟩
    rfl
  | cons p s ih =>
    obtain ⟨fuel, rfl⟩ : ∃ n, fuel = n + 1 := ⟨fuel - 1, by simp at hfuel; omega⟩
    have halone : ∀ high, p = .lone high → high.val < 0x400 →
        unicodeEscape (CodePoint.lone high).code (s.flatMap (stringPoint true) ++ '"' :: rest) =
          .ok (.lone high, s.flatMap (stringPoint true) ++ '"' :: rest) := by
      rintro high rfl hhigh
      nth_rewrite 2 [← CodePoint.ofCode_lone high]
      cases s with
      | nil => exact unicodeEscape_of_not_escape (by simp)
      | cons q s =>
        rw [List.flatMap_cons, List.append_assoc]
        refine (spelled q).completes_none ?_
        rintro low rfl
        by_contra hlow
        exact (List.isChain_cons_cons.mp h).1 ⟨hhigh, by omega⟩
    rw [List.flatMap_cons, List.append_assoc, (spelled p).stringBody (by simp) halone,
      ih h.tail (by simpa using hfuel)]
    rfl

/-- A text of characters has no pairs. -/
theorem unpaired_ofString (a : String) : Unpaired a := by
  unfold Unpaired
  rw [Str.toList_ofString]
  generalize a.toList = cs
  induction cs with
  | nil => exact List.isChain_nil
  | cons c cs ih =>
    cases cs with
    | nil => exact List.isChain_singleton _
    | cons d cs => exact List.isChain_cons_cons.mpr ⟨id, ih⟩

theorem length_le_ascii : s.length ≤ (s.flatMap (stringPoint true)).length := by
  induction s with
  | nil => simp
  | cons p s ih =>
    have hpos := List.length_pos_iff.mpr (spelled p).ne_nil
    rw [List.flatMap_cons, List.length_append, List.length_cons]
    omega

theorem readsBody_ascii {x : Str} (h : Unpaired x) : ReadsBody x.toList (x.toList.flatMap (stringPoint true)) := by
  intro rest
  have hlength := length_le_ascii (s := x.toList)
  rw [string, stringBody_ascii h (by rw [List.length_append]; omega)]
  rfl

theorem reads_asciiText {x : Str} (h : Unpaired x) : Reads (.string x) (stringText true x) :=
  reads_string (readsBody_ascii h)

theorem ascii_flatMap (s : List CodePoint) : Ascii (s.flatMap (stringPoint true)) := by
  intro c hc
  obtain ⟨p, -, hp⟩ := List.mem_flatMap.mp hc
  exact (spelled p).ascii c hp

theorem ascii_append {s : List Char} : Ascii (s ++ t) ↔ Ascii s ∧ Ascii t := List.forall_mem_append

theorem ascii_cons : Ascii (c :: t) ↔ c.toNat < 128 ∧ Ascii t := List.forall_mem_cons

theorem ascii_nil : Ascii [] := nofun

theorem ascii_stringText (s : Str) : Ascii (stringText true s) := by
  simp [stringText, ascii_append, ascii_cons, ascii_flatMap, ascii_nil]

/-! ### Numbers -/

theorem ascii_digits (h : ∀ c ∈ t, c.isDigit = true) : Ascii t := by
  intro c hc
  exact (Char.isDigit_iff_toNat.mp (h c hc)).2.trans_lt (by decide)

theorem ascii_intText (n : Int) : Ascii (intText n) := by
  have hdigits := ascii_digits (isDigit_toDigits n.natAbs)
  rcases intText_cases n with ⟨h, -⟩ | ⟨h, -⟩ <;> simp [h, ascii_cons, hdigits]

theorem Shows.ascii {d : Decimal.Scaled} (h : Shows d text) : Ascii text := by
  obtain ⟨t, ht, rfl, -⟩ := h
  have hwhole : Ascii t.whole := by
    rcases ht.whole with hzero | ⟨-, hdigits⟩
    · simp [hzero, Ascii]
    · exact ascii_digits hdigits
  have hpoint : Ascii (NumberText.pointText t.fraction) := by
    cases hcases : t.fraction with
    | nil => exact ascii_nil
    | cons c cs => exact ascii_cons.mpr ⟨by decide, hcases ▸ ascii_digits ht.fraction⟩
  have hexponent : Ascii (NumberText.exponentText t.exponent) := by
    cases hcases : t.exponent with
    | none => exact ascii_nil
    | some e =>
      have hdigits := ascii_digits (ht.exponent e hcases).2
      obtain ⟨low, ds⟩ := e
      cases low <;> simpa [NumberText.exponentText, ascii_cons] using hdigits
  exact ascii_append.mpr ⟨ascii_append.mpr ⟨hwhole, hpoint⟩, hexponent⟩

theorem ascii_floatText {x : Binary64} (hx : x.IsNormal) : Ascii (floatText x) := by
  cases x with
  | nan => simp [floatText, Binary64.render, Ascii]
  | infinite negative => cases negative <;> simp [floatText, Binary64.render, Ascii]
  | finite negative m q =>
    have hlayout := (layout_shows (written_exponent hx)).ascii
    have htext : floatText (.finite negative m q) = if negative then
        '-' :: Decimal.layout (Binary64.written m q) else Decimal.layout (Binary64.written m q) := rfl
    rw [htext]
    cases negative
    · exact hlayout
    · exact ascii_cons.mpr ⟨by decide, hlayout⟩

end

/-! ### Values -/

theorem spells_scalar {v : Value} (h : Reads v (scalarText true v)) (hascii : Ascii (scalarText true v))
    (harray : ∀ items, v ≠ .array items) (hobject : ∀ members, v ≠ .object members) :
    Spells v (compactOnto v) :=
  ⟨_, fun rest => compactOnto.eq_3 v rest harray hobject, h, hascii⟩

theorem compactItems_reads : ∀ {items : List Value}, items ≠ [] → (∀ v ∈ items, Spells v (compactOnto v)) →
    ∃ text, (∀ rest, compactItems items (']' :: rest) = text ++ rest) ∧ ReadsItems items text ∧ Ascii text
  | [v], _, h => by
    obtain ⟨text, honto, hreads, hascii⟩ := h v List.mem_cons_self
    refine ⟨_, fun rest => ?_, readsItems_last hreads blanks_nil, ?_⟩
    · simp [compactItems, honto]
    · simp [ascii_append, ascii_cons, ascii_nil, hascii]
  | v :: w :: items, _, h => by
    obtain ⟨text, honto, hreads, hascii⟩ := h v List.mem_cons_self
    obtain ⟨more, hmore, hitems, hmoreAscii⟩ := compactItems_reads (List.cons_ne_nil w items)
      fun x hx => h x (List.mem_cons_of_mem _ hx)
    refine ⟨_, fun rest => ?_, readsItems_cons hreads blanks_nil blanks_space hitems, ?_⟩
    · rw [compactItems, honto, hmore]
      simp
    · simp [ascii_append, ascii_cons, hascii, hmoreAscii]

theorem compactMembers_reads : ∀ {members : Members}, members ≠ [] →
    (∀ m ∈ members, Unpaired m.1) → (∀ m ∈ members, Spells m.2 (compactOnto m.2)) →
    ∃ text, (∀ rest, compactMembers members ('}' :: rest) = text ++ rest) ∧ ReadsMembers members text ∧
      Ascii text
  | [(name, v)], _, hnames, h => by
    obtain ⟨text, honto, hreads, hascii⟩ := h _ List.mem_cons_self
    refine ⟨_, fun rest => ?_, readsMembers_last (readsBody_ascii (hnames _ List.mem_cons_self)) blanks_nil
      blanks_space hreads blanks_nil, ?_⟩
    · simp [compactMembers, stringText, honto]
    · simp [ascii_append, ascii_cons, ascii_nil, ascii_flatMap, hascii]
  | (name, v) :: w :: members, _, hnames, h => by
    obtain ⟨text, honto, hreads, hascii⟩ := h _ List.mem_cons_self
    obtain ⟨more, hmore, hmembers, hmoreAscii⟩ := compactMembers_reads (List.cons_ne_nil w members)
      (fun x hx => hnames x (List.mem_cons_of_mem _ hx)) fun x hx => h x (List.mem_cons_of_mem _ hx)
    refine ⟨_, fun rest => ?_, readsMembers_cons (readsBody_ascii (hnames _ List.mem_cons_self)) blanks_nil
      blanks_space hreads blanks_nil blanks_space hmembers, ?_⟩
    · rw [compactMembers, honto, hmore]
      simp [stringText]
    · simp [ascii_append, ascii_cons, ascii_flatMap, hascii, hmoreAscii]

/-- What is written of a value is read as the value. -/
theorem Sendable.spells {v : Value} (h : Sendable v) : Spells v (compactOnto v) := by
  induction h with
  | null =>
    exact spells_scalar (reads_word (by simp [constants, scalarText])) (by simp [Ascii, scalarText]) (by simp)
      (by simp)
  | bool b =>
    cases b <;>
      exact spells_scalar (reads_word (by simp [constants, scalarText])) (by simp [Ascii, scalarText]) (by simp)
        (by simp)
  | @int n short => exact spells_scalar (reads_intText short) (ascii_intText n) (by simp) (by simp)
  | @float x normal => exact spells_scalar (reads_floatText normal) (ascii_floatText normal) (by simp) (by simp)
  | @string s unpaired =>
    exact spells_scalar (reads_asciiText unpaired) (ascii_stringText s) (by simp) (by simp)
  | @array items _ ih =>
    cases items with
    | nil => exact ⟨['[', ']'], fun rest => rfl, reads_emptyArray blanks_nil, by simp [Ascii]⟩
    | cons v items =>
      obtain ⟨text, honto, hreads, hascii⟩ := compactItems_reads (List.cons_ne_nil v items) ih
      refine ⟨_, fun rest => ?_, hreads.reads blanks_nil, ?_⟩
      · rw [compactOnto, honto]
        rfl
      · simp [ascii_cons, hascii]
  | @object members names unpaired _ ih =>
    cases members with
    | nil => exact ⟨['{', '}'], fun rest => rfl, reads_emptyObject blanks_nil, by simp [Ascii]⟩
    | cons m members =>
      obtain ⟨text, honto, hreads, hascii⟩ := compactMembers_reads (List.cons_ne_nil m members) unpaired ih
      refine ⟨_, fun rest => ?_, hreads.reads blanks_nil names, ?_⟩
      · rw [compactOnto, honto]
        rfl
      · simp [ascii_cons, hascii]

theorem Sendable.ascii_compact {v : Value} (h : Sendable v) : Ascii (compact v) := by
  obtain ⟨text, honto, -, hascii⟩ := h.spells
  rwa [compact, honto, List.append_nil]

/-- A value that is written on one line is read again. -/
theorem Sendable.read_compact {v : Value} (h : Sendable v) : read (compact v) = .ok v := by
  obtain ⟨text, honto, hreads, -⟩ := h.spells
  rw [compact, honto, read, hreads.document blanks_nil]
  rfl

end Highlighter.Json

import Highlighter.Json.Printer
import Highlighter.Proofs.Json.Reading

/-! What is written as JSON is read back as the value. An integer must not have more digits than are
accepted, and a double must be written as a number that it is the nearest to. -/

namespace Highlighter.Json

section
variable {c d : Char} {s rest text : List Char} {n : Nat} {fuel opening : Nat}

/-! ### Strings -/

theorem stringBody_short (hd : shortEscape? d = some c) (hu : d ≠ 'u') :
    stringBody opening (fuel + 1) ('\\' :: d :: rest) =
      (stringBody opening fuel rest).map fun found => (.char c :: found.1, found.2) := by
  rw [stringBody, hd]
  · cases stringBody opening fuel rest <;> rfl
  · simpa using hu

theorem stringBody_plain (hquote : c ≠ '"') (hescape : c ≠ '\\') (hlow : 32 ≤ c.toNat) :
    stringBody opening (fuel + 1) (c :: rest) =
      (stringBody opening fuel rest).map fun found => (.char c :: found.1, found.2) := by
  rw [stringBody, if_neg (by omega)]
  · cases stringBody opening fuel rest <;> rfl
  all_goals simp [hquote, hescape]

theorem hexDigit?_hexDigitOf (n : Nat) : Text.hexDigit? (hexDigitOf n) = some (n % 16) := by
  have h : ∀ d < 16, Text.hexDigit? (Nat.digitChar d) = some d := by decide
  exact h _ (Nat.mod_lt n (by decide))

theorem fourHex?_hexEscape (hn : n < 0x10000) :
    fourHex? ((hexEscape n).drop 2 ++ rest) = some (n, rest) := by
  have hvalue : ((n / 4096 % 16 * 16 + n / 256 % 16) * 16 + n / 16 % 16) * 16 + n % 16 = n := by omega
  simp only [hexEscape, List.drop_succ_cons, List.drop_zero, List.cons_append, List.nil_append, fourHex?,
    hexDigit?_hexDigitOf, bind, Option.bind, hvalue]
  rfl

/-- An escape that is no high surrogate stands for its code point, whatever follows. -/
theorem unicodeEscape_of_not_high (h : n < 0xD800 ∨ 0xDC00 ≤ n) :
    unicodeEscape n rest = .ok (CodePoint.ofCode n, rest) := by
  have hnone : (decide (0xD800 ≤ n) && decide (n < 0xDC00)) = false := by simp; omega
  unfold unicodeEscape
  simp only [hnone, Bool.false_and, Bool.false_eq_true, if_false]
  split <;> rfl

theorem stringBody_unicodeEscape (hn : n < 0x10000) (hrest : rest ≠ []) {p : CodePoint} {after : List Char}
    (h : unicodeEscape n rest = .ok (p, after)) :
    stringBody opening (fuel + 1) (hexEscape n ++ rest) =
      (stringBody opening fuel after).map fun found => (p :: found.1, found.2) := by
  have hread : fourHex? ((hexEscape n).drop 2 ++ rest) = some (n, rest) := fourHex?_hexEscape hn
  have hlong : ¬ ((hexEscape n).drop 2 ++ rest).length ≤ 4 := by
    have hpos := List.length_pos_iff.mpr hrest
    rw [List.length_append, show ((hexEscape n).drop 2).length = 4 from rfl]
    omega
  have hsplit : hexEscape n ++ rest = '\\' :: 'u' :: ((hexEscape n).drop 2 ++ rest) := rfl
  rw [hsplit, stringBody, if_neg hlong, hread]
  simp only [h, bind, Except.bind]
  cases stringBody opening fuel after <;> rfl

/-- The escapes that every string needs. -/
theorem requiredEscape?_short (h : requiredEscape? c = some text) :
    ∃ d, text = ['\\', d] ∧ shortEscape? d = some c ∧ d ≠ 'u' := by
  unfold requiredEscape? at h
  split at h <;> cases h <;> exact ⟨_, rfl, rfl, by decide⟩

theorem requiredEscape?_none (h : requiredEscape? c = none) : c ≠ '"' ∧ c ≠ '\\' := by
  constructor <;> rintro rfl <;> cases h

/-- A character that is written as it is or as an escape is read back. -/
theorem stringBody_stringChar (c : Char) (hrest : rest ≠ []) :
    stringBody opening (fuel + 1) (stringChar false c ++ rest) =
      (stringBody opening fuel rest).map fun found => (.char c :: found.1, found.2) := by
  unfold stringChar
  cases h : requiredEscape? c with
  | some escape =>
    obtain ⟨d, rfl, hd, hu⟩ := requiredEscape?_short h
    exact stringBody_short hd hu
  | none =>
    obtain ⟨hquote, hescape⟩ := requiredEscape?_none h
    by_cases hlow : c.toNat < 32
    · have hread : stringBody opening (fuel + 1) (hexEscape c.toNat ++ rest) = _ :=
        stringBody_unicodeEscape (by omega) hrest (unicodeEscape_of_not_high (.inl (by omega)))
      rw [CodePoint.ofCode_toNat] at hread
      simpa [hlow, show c.toNat < 0x10000 by omega] using hread
    · simpa [hlow] using stringBody_plain hquote hescape (by omega)

theorem stringChar_ne_nil (c : Char) : stringChar false c ≠ [] := by
  unfold stringChar
  cases h : requiredEscape? c with
  | some escape =>
    obtain ⟨d, rfl, -⟩ := requiredEscape?_short h
    simp
  | none =>
    by_cases hlow : c.toNat < 32
    · simp [hlow, show c.toNat < 0x10000 by omega, hexEscape]
    · simp [hlow]

theorem stringBody_flatMap (h : s.length < fuel) :
    stringBody opening fuel (s.flatMap (stringChar false) ++ '"' :: rest) = .ok (s.map .char, rest) := by
  induction s generalizing fuel with
  | nil =>
    obtain ⟨fuel, rfl⟩ : ∃ n, fuel = n + 1 := ⟨fuel - 1, by simp at h; omega⟩
    rfl
  | cons c s ih =>
    obtain ⟨fuel, rfl⟩ : ∃ n, fuel = n + 1 := ⟨fuel - 1, by simp at h; omega⟩
    rw [List.flatMap_cons, List.append_assoc, stringBody_stringChar c (by simp), ih (by simpa using h)]
    rfl

theorem length_le_flatMap : s.length ≤ (s.flatMap (stringChar false)).length := by
  induction s with
  | nil => simp
  | cons c s ih =>
    have hpos := List.length_pos_iff.mpr (stringChar_ne_nil c)
    rw [List.flatMap_cons, List.length_append, List.length_cons]
    omega

theorem flatMap_stringPoint (asciiOnly : Bool) (s : List Char) :
    (s.map CodePoint.char).flatMap (stringPoint asciiOnly) = s.flatMap (stringChar asciiOnly) :=
  List.flatMap_map ..

theorem readsBody_plain {s : Str} (h : s.isEncodable = true) :
    ReadsBody s.toList (s.toList.flatMap (stringPoint false)) := by
  obtain ⟨a, rfl⟩ := Str.isEncodable_iff.mp h
  intro rest
  have hlength := length_le_flatMap (s := a.toList)
  rw [Str.toList_ofString, flatMap_stringPoint, string, stringBody_flatMap (by rw [List.length_append]; omega)]
  rfl

theorem reads_stringText {s : Str} (h : s.isEncodable = true) : Reads (.string s) (stringText false s) :=
  reads_string (readsBody_plain h)

/-! ### Integers -/

theorem natOfDigits_toDigits (n : Nat) : natOfDigits (Nat.toDigits 10 n) = n :=
  Nat.ofDigitChars_toDigits (by decide) (by decide)

theorem isDigit_toDigits (n : Nat) : ∀ c ∈ Nat.toDigits 10 n, c.isDigit = true :=
  fun _ => Nat.isDigit_of_mem_toDigits (by decide) (by decide)

/-- Only zero starts with the digit zero. -/
theorem toDigits_head : ∀ {n : Nat}, 0 < n → ∃ c cs, Nat.toDigits 10 n = c :: cs ∧ c ≠ '0' := by
  intro n
  induction n using Nat.strongRecOn with
  | ind n ih =>
    intro hn
    by_cases hlt : n < 10
    · rw [Nat.toDigits_of_lt_base hlt]
      have hdigit : ∀ d < 10, 0 < d → Nat.digitChar d ≠ '0' := by decide
      exact ⟨_, [], rfl, hdigit n hlt hn⟩
    · obtain ⟨c, cs, hcs, hc⟩ := ih (n / 10) (by omega) (by omega)
      rw [Nat.toDigits_of_base_le (by decide) (by omega), hcs]
      exact ⟨c, _, rfl, hc⟩

/-- What a value ends before does not go on with a number. -/
theorem Ends.not_number (h : Ends rest) : leadingDigits rest = ([], rest) ∧ fraction? rest = none ∧
    exponent? rest = none := by
  cases rest with
  | nil => exact ⟨rfl, rfl, rfl⟩
  | cons c rest =>
    have hc := h c rfl
    simp only [isJsonBlank, Bool.or_eq_true, beq_iff_eq] at hc
    rcases hc with (((rfl | rfl) | rfl) | rfl) | rfl | rfl | rfl <;> exact ⟨rfl, rfl, rfl⟩

theorem leadingDigits_append {ds : List Char} (hds : ∀ c ∈ ds, c.isDigit = true) (h : Ends rest) :
    leadingDigits (ds ++ rest) = (ds, rest) := by
  obtain ⟨htake, hdrop⟩ := Prod.mk.inj h.not_number.1
  rw [leadingDigits, List.takeWhile_append_of_pos hds, List.dropWhile_append_of_pos hds, htake, hdrop,
    List.append_nil]

theorem wholePart?_toDigits (n : Nat) (h : Ends rest) :
    wholePart? (Nat.toDigits 10 n ++ rest) = some (Nat.toDigits 10 n, rest) := by
  by_cases hn : n = 0
  · subst hn
    rfl
  · obtain ⟨c, cs, hcs, hc⟩ := toDigits_head (Nat.pos_of_ne_zero hn)
    have hdigits := isDigit_toDigits n
    rw [hcs] at hdigits ⊢
    rw [List.cons_append, wholePart?, if_neg (by simpa using hc), if_pos (hdigits c List.mem_cons_self),
      ← List.cons_append, leadingDigits_append hdigits h]

/-- No word starts like a number. -/
theorem constant?_of_number (h : c.isDigit = true ∨ c = '-' ∧ ∃ d ∈ s.head?, d.isDigit = true) :
    constant? (c :: s) = none := by
  have hother {d e : Char} (hd : d.isDigit = true) (he : e.isDigit = false) : e ≠ d := by
    rintro rfl
    rw [he] at hd
    cases hd
  rcases h with hdigit | ⟨rfl, d, hd, hdigit⟩
  · have hc {e : Char} := hother (e := e) hdigit
    simp [constant?, constants, hc]
  · cases s with
    | nil => cases hd
    | cons e s =>
      obtain rfl : e = d := by simpa using hd
      simp [constant?, constants, hother hdigit]

/-- The integer that digits are read as, behind a minus sign or not. -/
theorem number?_toDigits (hn : (Nat.toDigits 10 n).length ≤ greatestIntegerLength) (h : Ends rest) :
    number? (Nat.toDigits 10 n ++ rest) = some (.ok (.int n, rest)) ∧
      number? ('-' :: (Nat.toDigits 10 n ++ rest)) = some (.ok (.int (-n), rest)) := by
  have hwhole := wholePart?_toDigits n h
  obtain ⟨-, hfraction, hexponent⟩ := h.not_number
  have hlength : ¬greatestIntegerLength < (Nat.toDigits 10 n).length := by omega
  constructor
  · unfold number?
    split
    rename_i negative unsigned hsign
    split at hsign
    · rename_i r hr
      have hminus := isDigit_toDigits n '-'
      obtain ⟨c, cs, hcs⟩ := List.exists_cons_of_ne_nil (Nat.toDigits_ne_nil (n := n) (b := 10))
      rw [hcs] at hr hminus
      obtain rfl : c = '-' := (List.cons.inj hr).1
      cases hminus List.mem_cons_self
    · cases hsign
      simp [hwhole, hfraction, hexponent, hlength, natOfDigits_toDigits]
  · simp [number?, hwhole, hfraction, hexponent, hlength, natOfDigits_toDigits]

/-- The characters an integer is written in. -/
theorem intText_cases (n : Int) : intText n = Nat.toDigits 10 n.natAbs ∧ n = n.natAbs ∨
    intText n = '-' :: Nat.toDigits 10 n.natAbs ∧ n = -n.natAbs := by
  unfold intText
  split
  · exact .inr ⟨rfl, by omega⟩
  · exact .inl ⟨rfl, by omega⟩

theorem reads_intText {n : Int} (hn : (Nat.toDigits 10 n.natAbs).length ≤ greatestIntegerLength) :
    Reads (.int n) (intText n) := by
  obtain ⟨c, cs, hcs⟩ := List.exists_cons_of_ne_nil (Nat.toDigits_ne_nil (n := n.natAbs) (b := 10))
  have hdigit : c.isDigit = true := isDigit_toDigits n.natAbs c (by simp [hcs])
  have hother {e : Char} (he : e.isDigit = false) : c ≠ e := by
    rintro rfl
    rw [he] at hdigit
    cases hdigit
  rcases intText_cases n with ⟨htext, hvalue⟩ | ⟨htext, hvalue⟩
  · refine reads_scalar ⟨c, cs, htext.trans hcs, ?_, hother rfl, hother rfl⟩ ?_ fun hends => ?_
    · simp [isJsonBlank, hother]
    · simp [htext, hcs, hother]
    · have hnumber := (number?_toDigits hn hends).1
      rw [← hvalue] at hnumber
      rw [htext, scalar, hnumber, hcs, List.cons_append, constant?_of_number (.inl hdigit)]
      rfl
  · refine reads_scalar ⟨'-', _, htext, rfl, by decide, by decide⟩ (by simp [htext]) fun hends => ?_
    have hnumber := (number?_toDigits hn hends).2
    rw [← hvalue] at hnumber
    rw [htext, List.cons_append, scalar, hnumber,
      constant?_of_number (.inr ⟨rfl, c, by simp [hcs], hdigit⟩)]
    rfl

end

/-! ### Values -/

/-- A value that can be read again: its integers are not too long, its doubles are written as numbers that are read
as them, its texts can be written in bytes, and no object has two members of one name. -/
inductive Legible : Value → Prop
  | null : Legible .null
  | bool (b : Bool) : Legible (.bool b)
  | int {n : Int} (short : (Nat.toDigits 10 n.natAbs).length ≤ greatestIntegerLength) :
    Legible (.int n)
  | float {x : Decimal.Binary64} (exact : Reads (.float x) (floatText x)) : Legible (.float x)
  | string {s : Str} (encodable : s.isEncodable = true) : Legible (.string s)
  | array {items : List Value} (each : ∀ v ∈ items, Legible v) : Legible (.array items)
  | object {members : Members} (names : (members.map (·.1)).Nodup)
    (encodable : ∀ m ∈ members, m.1.isEncodable = true) (each : ∀ m ∈ members, Legible m.2) :
    Legible (.object members)

theorem reads_word {word : List Char} {v : Value} (h : (word, v) ∈ constants) : Reads v word := by
  simp only [constants, List.mem_cons, Prod.mk.injEq, List.not_mem_nil, or_false] at h
  rcases h with ⟨rfl, rfl⟩ | ⟨rfl, rfl⟩ | ⟨rfl, rfl⟩ | ⟨rfl, rfl⟩ | ⟨rfl, rfl⟩ | ⟨rfl, rfl⟩ <;>
    exact reads_scalar ⟨_, _, rfl, by decide, by decide, by decide⟩ (by simp) fun _ => rfl

/-! ### Characters that do not occur -/

theorem not_mem_toDigits (n : Nat) : '\r' ∉ Nat.toDigits 10 n := fun h => by
  have hdigit := isDigit_toDigits n _ h
  cases hdigit

theorem ne_hexDigitOf (n : Nat) : '\r' ≠ hexDigitOf n := by
  have hall : ∀ d < 16, '\r' ≠ Nat.digitChar d := by decide
  exact hall _ (Nat.mod_lt n (by decide))

theorem not_mem_stringChar (c : Char) : '\r' ∉ stringChar false c := by
  unfold stringChar
  cases h : requiredEscape? c with
  | some escape =>
    unfold requiredEscape? at h
    split at h <;> cases h <;> decide
  | none =>
    have hc : '\r' ≠ c := by rintro rfl; cases h
    by_cases hlow : c.toNat < 32
    · simp [hlow, show c.toNat < 0x10000 by omega, hexEscape, ne_hexDigitOf]
    · simpa [hlow] using hc

theorem not_mem_stringPoint (p : CodePoint) : '\r' ∉ stringPoint false p := by
  cases p with
  | char c => exact not_mem_stringChar c
  | lone n => simp [stringPoint, hexEscape, ne_hexDigitOf]

theorem not_mem_stringText (s : Str) : '\r' ∉ stringText false s := by
  simp [stringText, not_mem_stringPoint]

theorem not_mem_intText (n : Int) : '\r' ∉ intText n := by
  rcases intText_cases n with ⟨h, -⟩ | ⟨h, -⟩ <;> simp [h, not_mem_toDigits]

theorem not_mem_layout (d : Decimal.Scaled) : '\r' ∉ Decimal.layout d := by
  have hdigits := not_mem_toDigits d.digits
  unfold Decimal.layout
  dsimp only
  split
  · have hexponent := not_mem_toDigits (d.exponent + (Nat.toDigits 10 d.digits).length - 1).natAbs
    simp only [List.mem_append, List.mem_cons, not_or]
    refine ⟨?_, by decide, by split <;> decide, ?_⟩
    · split
      · simp
      · rename_i c rest hds
        rw [hds, List.mem_cons, not_or] at hdigits
        split <;> simp [hdigits]
    · split <;> simp [hexponent]
  split
  · simp [hdigits]
  split
  · simp only [List.mem_append, List.mem_cons, not_or]
    exact ⟨fun h => hdigits (List.mem_of_mem_take h), by decide, fun h => hdigits (List.mem_of_mem_drop h)⟩
  · simp [hdigits]

theorem not_mem_floatText (x : Decimal.Binary64) : '\r' ∉ floatText x := by
  unfold floatText Decimal.Binary64.render
  cases x with
  | nan => decide
  | infinite negative => cases negative <;> decide
  | finite negative m q =>
    dsimp only
    split <;> simp [not_mem_layout]

/-! ### Layouts -/

/-- What is written in front of a text is read as the value; it holds no line end but line feeds. -/
def Lays (v : Value) (onto : List Char → List Char) : Prop :=
  ∃ text, (∀ rest, onto rest = text ++ rest) ∧ Reads v text ∧ '\r' ∉ text

/-- The indentation of a line, after the line end. -/
def indent (depth : Nat) : List Char := '\n' :: List.replicate (2 * depth) ' '

theorem newLine_eq (depth : Nat) (rest : List Char) : newLine depth rest = indent depth ++ rest := rfl

theorem blanks_indent (depth : Nat) : Blanks (indent depth) := by
  intro c hc
  rcases List.mem_cons.mp hc with rfl | hc
  · rfl
  · rw [List.eq_of_mem_replicate hc]
    rfl

theorem not_mem_indent (depth : Nat) : '\r' ∉ indent depth := by simp [indent]

theorem prettyItems_reads (outer depth : Nat) : ∀ {items : List Value}, items ≠ [] →
    (∀ v ∈ items, Lays v (prettyOnto depth v)) → ∃ text,
      (∀ rest, prettyItems depth items (newLine outer (']' :: rest)) = text ++ rest) ∧
        ReadsItems items text ∧ '\r' ∉ text
  | [v], _, h => by
    obtain ⟨text, honto, hreads, hcr⟩ := h v List.mem_cons_self
    refine ⟨_, fun rest => ?_, readsItems_last hreads (blanks_indent outer), ?_⟩
    · simp [prettyItems, honto, newLine_eq]
    · simp [hcr, not_mem_indent]
  | v :: w :: items, _, h => by
    obtain ⟨text, honto, hreads, hcr⟩ := h v List.mem_cons_self
    obtain ⟨more, hmore, hitems, hmorecr⟩ := prettyItems_reads outer depth
      (List.cons_ne_nil w items) fun x hx => h x (List.mem_cons_of_mem _ hx)
    refine ⟨_, fun rest => ?_, readsItems_cons hreads blanks_nil (blanks_indent depth) hitems, ?_⟩
    · rw [prettyItems, honto, hmore]
      simp [newLine_eq]
    · simp [hcr, hmorecr, not_mem_indent]

theorem prettyMembers_reads (outer depth : Nat) : ∀ {members : Members}, members ≠ [] →
    (∀ m ∈ members, m.1.isEncodable = true) → (∀ m ∈ members, Lays m.2 (prettyOnto depth m.2)) → ∃ text,
      (∀ rest, prettyMembers depth members (newLine outer ('}' :: rest)) = text ++ rest) ∧
        ReadsMembers members text ∧ '\r' ∉ text
  | [(name, v)], _, hnames, h => by
    obtain ⟨text, honto, hreads, hcr⟩ := h _ List.mem_cons_self
    refine ⟨_, fun rest => ?_, readsMembers_last (readsBody_plain (hnames _ List.mem_cons_self)) blanks_nil
      blanks_space hreads (blanks_indent outer), ?_⟩
    · simp [prettyMembers, stringText, honto, newLine_eq]
    · simp [hcr, not_mem_stringPoint, not_mem_indent]
  | (name, v) :: w :: members, _, hnames, h => by
    obtain ⟨text, honto, hreads, hcr⟩ := h _ List.mem_cons_self
    obtain ⟨more, hmore, hmembers, hmorecr⟩ := prettyMembers_reads outer depth (List.cons_ne_nil w members)
      (fun x hx => hnames x (List.mem_cons_of_mem _ hx)) fun x hx => h x (List.mem_cons_of_mem _ hx)
    refine ⟨_, fun rest => ?_, readsMembers_cons (readsBody_plain (hnames _ List.mem_cons_self)) blanks_nil
      blanks_space hreads blanks_nil (blanks_indent depth) hmembers, ?_⟩
    · rw [prettyMembers, honto, hmore]
      simp [newLine_eq, stringText]
    · simp [hcr, hmorecr, not_mem_stringPoint, not_mem_indent]

theorem lays_scalar {v : Value} (h : Reads v (scalarText false v)) (hcr : '\r' ∉ scalarText false v)
    (harray : ∀ w items, v ≠ .array (w :: items)) (hobject : ∀ m members, v ≠ .object (m :: members))
    (depth : Nat) : Lays v (prettyOnto depth v) :=
  ⟨_, fun rest => prettyOnto.eq_3 depth v rest harray hobject, h, hcr⟩

/-- A value that can be read again is read again, at whatever depth it is laid out. -/
theorem Legible.lays {v : Value} (h : Legible v) : ∀ depth, Lays v (prettyOnto depth v) := by
  induction h with
  | null => exact lays_scalar (reads_word (by simp [constants, scalarText])) (by decide) nofun nofun
  | bool b =>
    cases b <;>
      exact lays_scalar (reads_word (by simp [constants, scalarText])) (by decide) nofun nofun
  | @int n short => exact lays_scalar (reads_intText short) (not_mem_intText n) nofun nofun
  | @float x exact => exact lays_scalar exact (not_mem_floatText x) nofun nofun
  | @string s encodable => exact lays_scalar (reads_stringText encodable) (not_mem_stringText s) nofun nofun
  | @array items _ ih =>
    intro depth
    cases items with
    | nil => exact lays_scalar (reads_emptyArray blanks_nil) (by decide) nofun nofun depth
    | cons v items =>
      obtain ⟨text, honto, hreads, hcr⟩ := prettyItems_reads depth (depth + 1)
        (List.cons_ne_nil v items) fun w hw => ih w hw (depth + 1)
      refine ⟨_, fun rest => ?_, hreads.reads (blanks_indent (depth + 1)), ?_⟩
      · rw [prettyOnto, newLine_eq, honto]
        simp
      · simp [hcr, not_mem_indent]
  | @object members names encodable _ ih =>
    intro depth
    cases members with
    | nil => exact lays_scalar (reads_emptyObject blanks_nil) (by decide) nofun nofun depth
    | cons m members =>
      obtain ⟨text, honto, hreads, hcr⟩ := prettyMembers_reads depth (depth + 1)
        (List.cons_ne_nil m members) encodable fun w hw => ih w hw (depth + 1)
      refine ⟨_, fun rest => ?_, hreads.reads (blanks_indent (depth + 1)) names, ?_⟩
      · rw [prettyOnto, newLine_eq, honto]
        simp
      · simp [hcr, not_mem_indent]

/-- The text of a file that holds a value is read as the value. -/
theorem Legible.read_fileText {v : Value} (h : Legible v) : read v.fileText.toList = .ok v := by
  obtain ⟨text, honto, hreads, -⟩ := h.lays 0
  have hblanks : Blanks ['\n'] := by simp [Blanks, isJsonBlank]
  rw [Value.fileText, String.toList_ofList, pretty, honto, List.append_nil, read, hreads.document hblanks]
  rfl

theorem Legible.not_mem_fileText {v : Value} (h : Legible v) : '\r' ∉ v.fileText.toList := by
  obtain ⟨text, honto, -, hcr⟩ := h.lays 0
  rw [Value.fileText, String.toList_ofList, pretty, honto]
  simp [hcr]

end Highlighter.Json

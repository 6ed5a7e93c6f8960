import Highlighter.Proofs.Files.Paths
import Highlighter.Proofs.Json.Compact
import Highlighter.Text.Blank

/-! The pieces a JSON text is read from. A number or a word is read by itself, up to what does not belong
to one, and a string up to its closing quote, so neither hangs on what comes after it. -/

namespace Highlighter.Json

open Highlighter.Files (bind_eq_ok)

/-- Where a place of a JSON text is: after a blank or a mark or at the front, after any other character,
in a string, or in a string after a backslash. -/
inductive Mode where
  | gap
  | bare
  | quoted
  | escaped
  deriving DecidableEq

def isMark (c : Char) : Bool := [',', ':', '[', ']', '{', '}'].contains c

namespace Mode

def isOutside : Mode → Bool
  | gap | bare => true
  | quoted | escaped => false

/-- The place after a character. -/
def after : Mode → Char → Mode
  | quoted, c => if c == '"' then bare else if c == '\\' then escaped else quoted
  | escaped, _ => quoted
  | _, c => if c == '"' then quoted else if isJsonBlank c || isMark c then gap else bare

/-- The place after a text. -/
def run (m : Mode) (s : List Char) : Mode := s.foldl after m

/-- What a character must be to stand there. -/
def Admits : Mode → Char → Prop
  | quoted, c => 32 ≤ c.toNat
  | escaped, c => 32 ≤ c.toNat ∧ c ≠ ','
  | _, c => isJsonBlank c = true ∨ Text.isBlank c = false ∧ c ≠ '/'

end Mode

/-- The rest of a string, from some place in it up to its closing quote. -/
def InString : Mode → List Char → Prop
  | m, [] => m = .quoted
  | m, c :: s => m.Admits c ∧ (m.after c).isOutside = false ∧ InString (m.after c) s

/-! ### Numbers and words -/

/-- The characters that numbers and the words for values are written in. -/
def isScalarChar (c : Char) : Bool := c.isAlphanum || c == '+' || c == '-' || c == '.'

/-- A text that no number or word goes on into. -/
def Apart (rest : List Char) : Prop := ∀ c ∈ rest.head?, isScalarChar c = false

section
variable {c : Char} {s t rest word : List Char} {v : Value}

theorem ne_of_scalarChar {d : Char} (hc : isScalarChar c = true) (hd : isScalarChar d = false) : c ≠ d := by
  rintro rfl
  rw [hc] at hd
  cases hd

theorem apart_cons (h : Apart (c :: t)) : isScalarChar c = false := h c rfl

theorem Apart.ne (h : Apart (c :: t)) {d : Char} (hd : isScalarChar d = true) : c ≠ d :=
  (ne_of_scalarChar hd (apart_cons h)).symm

theorem Apart.not_digit (h : Apart (c :: t)) : c.isDigit = false := by
  have hc := apart_cons h
  simp only [isScalarChar, Char.isAlphanum, Bool.or_eq_false_iff] at hc
  exact hc.1.1.1.2

theorem Ends.apart (h : Ends rest) : Apart rest := by
  intro c hc
  have hends := h c hc
  simp only [isJsonBlank, Bool.or_eq_true, beq_iff_eq] at hends
  rcases hends with (((rfl | rfl) | rfl) | rfl) | rfl | rfl | rfl <;> rfl

theorem not_ends_scalarChar (hc : isScalarChar c = true) : ¬ Ends (c :: t) :=
  fun hends => ne_of_scalarChar hc (apart_cons hends.apart) rfl

theorem leadingDigits_apart (ht : Apart t) :
    leadingDigits (s ++ t) = ((leadingDigits s).1, (leadingDigits s).2 ++ t) := by
  induction s with
  | nil =>
    cases t with
    | nil => rfl
    | cons c t => simp [leadingDigits, ht.not_digit]
  | cons c s ih =>
    simp only [leadingDigits, Prod.mk.injEq, List.cons_append] at ih ⊢
    by_cases hc : c.isDigit = true <;> simp [hc, ih]

theorem wholePart?_apart (ht : Apart t) :
    wholePart? (s ++ t) = (wholePart? s).map fun found => (found.1, found.2 ++ t) := by
  cases s with
  | nil =>
    cases t with
    | nil => rfl
    | cons c t => simp [wholePart?, ht.not_digit, ht.ne (d := '0') rfl]
  | cons c s =>
    have hdigits := leadingDigits_apart (s := c :: s) ht
    rw [List.cons_append] at hdigits ⊢
    by_cases hzero : c = '0'
    · simp [wholePart?, hzero]
    · by_cases hc : c.isDigit = true <;> simp [wholePart?, hzero, hc, hdigits]

theorem fraction?_apart (ht : Apart t) :
    fraction? (s ++ t) = (fraction? s).map fun found => (found.1, found.2 ++ t) := by
  cases s with
  | nil =>
    cases t with
    | nil => rfl
    | cons c t =>
      rw [List.nil_append, fraction?]
      · rfl
      · rintro rest ⟨⟩
        exact ht.ne (d := '.') rfl rfl
  | cons c s =>
    by_cases hc : c = '.'
    · subst hc
      rw [List.cons_append, fraction?, fraction?, leadingDigits_apart ht]
      dsimp only
      split <;> rfl
    · simp [fraction?, hc]

/-- The digits of an exponent, whose sign is known. -/
def exponentDigits (negative : Bool) (s : List Char) : Option (Int × List Char) :=
  let (ds, after) := leadingDigits s
  if ds.isEmpty then none
  else some (if negative then -(natOfDigits ds : Int) else natOfDigits ds, after)

theorem exponentDigits_apart (ht : Apart t) (negative : Bool) : exponentDigits negative (s ++ t) =
    (exponentDigits negative s).map fun found => (found.1, found.2 ++ t) := by
  rw [exponentDigits, exponentDigits, leadingDigits_apart ht]
  dsimp only
  split <;> rfl

theorem exponent?_of_not_sign (hc : c = 'e' ∨ c = 'E') (hs : ∀ d ∈ s.head?, d ≠ '-' ∧ d ≠ '+') :
    exponent? (c :: s) = exponentDigits false s := by
  have hmark : (c == 'e' || c == 'E') = true := by simpa using hc
  rw [exponent?, if_pos hmark]
  · rfl
  · rintro r rfl
    exact (hs '-' rfl).1 rfl
  · rintro r rfl
    exact (hs '+' rfl).2 rfl

theorem exponent?_apart (ht : Apart t) :
    exponent? (s ++ t) = (exponent? s).map fun found => (found.1, found.2 ++ t) := by
  rcases s with _ | ⟨c, s⟩
  · cases t with
    | nil => rfl
    | cons c t => simp [exponent?, ht.ne (d := 'e') rfl, ht.ne (d := 'E') rfl]
  by_cases hc : c = 'e' ∨ c = 'E'
  · have hmark : (c == 'e' || c == 'E') = true := by simpa using hc
    rcases s with _ | ⟨d, s⟩
    · have hsign : ∀ d ∈ t.head?, d ≠ '-' ∧ d ≠ '+' := by
        intro d hd
        constructor <;> rintro rfl <;> cases ht _ hd
      rw [List.cons_append, List.nil_append, exponent?_of_not_sign hc hsign,
        exponent?_of_not_sign hc (by simp)]
      exact exponentDigits_apart (s := []) ht false
    · rw [List.cons_append, List.cons_append]
      by_cases hminus : d = '-'
      · subst hminus
        rw [exponent?, exponent?, if_pos hmark, if_pos hmark]
        exact exponentDigits_apart ht true
      by_cases hplus : d = '+'
      · subst hplus
        rw [exponent?, exponent?, if_pos hmark, if_pos hmark]
        exact exponentDigits_apart ht false
      · rw [exponent?_of_not_sign hc (by simp [hminus, hplus]),
          exponent?_of_not_sign hc (by simp [hminus, hplus])]
        exact exponentDigits_apart (s := d :: s) ht false
  · have hmark : (c == 'e' || c == 'E') = false := by simpa [not_or] using hc
    simp [exponent?, hmark]

/-- A number whose sign is known. -/
def unsignedNumber? (negative : Bool) (unsigned : List Char) :
    Option (Except Fault (Value × List Char)) := do
  let (whole, rest) ← wholePart? unsigned
  match fraction? rest, exponent? ((fraction? rest).elim rest (·.2)) with
  | none, none =>
    if greatestIntegerLength < whole.length then return .error (.hugeInteger whole.length)
    else
      let n : Int := natOfDigits whole
      return .ok (.int (if negative then -n else n), rest)
  | fraction, exponent =>
    let ds := (fraction.map (·.1)).getD []
    let e := (exponent.map (·.1)).getD 0
    let after := (exponent.map (·.2)).getD ((fraction.map (·.2)).getD rest)
    return .ok (.float (.ofDecimal negative (natOfDigits (whole ++ ds)) (e - ds.length)), after)

theorem number?_of_not_minus (hs : ∀ r, s ≠ '-' :: r) : number? s = unsignedNumber? false s := by
  unfold number?
  split
  rename_i negative unsigned hsign
  split at hsign
  · exact absurd rfl (hs _)
  · cases hsign
    rfl

theorem unsignedNumber?_apart (ht : Apart t) (negative : Bool) : unsignedNumber? negative (s ++ t) =
    (unsignedNumber? negative s).map fun found => found.map fun found => (found.1, found.2 ++ t) := by
  rw [unsignedNumber?, unsignedNumber?, wholePart?_apart ht]
  cases wholePart? s with
  | none => rfl
  | some found =>
    obtain ⟨whole, r⟩ := found
    have hafter : (fraction? (r ++ t)).elim (r ++ t) (·.2) = (fraction? r).elim r (·.2) ++ t := by
      rw [fraction?_apart ht]
      cases fraction? r <;> rfl
    simp only [bind, Option.bind, Option.map_some, hafter, exponent?_apart ht]
    rw [fraction?_apart ht]
    cases fraction? r <;> cases exponent? _ <;> simp only [Option.map_none, Option.map_some]
    · split <;> rfl
    all_goals rfl

theorem number?_apart (ht : Apart t) : number? (s ++ t) =
    (number? s).map fun found => found.map fun found => (found.1, found.2 ++ t) := by
  by_cases hminus : ∃ r, s = '-' :: r
  · obtain ⟨r, rfl⟩ := hminus
    exact unsignedNumber?_apart ht true
  · have hs : ∀ r, s ≠ '-' :: r := fun r hr => hminus ⟨r, hr⟩
    have hst : ∀ r, s ++ t ≠ '-' :: r := by
      intro r hr
      cases s with
      | nil =>
        rw [List.nil_append] at hr
        subst hr
        exact ht.ne (d := '-') rfl rfl
      | cons c s => exact hs s (by rw [(List.cons.inj hr).1])
    rw [number?_of_not_minus hs, number?_of_not_minus hst]
    exact unsignedNumber?_apart ht false

theorem isPrefixOf_apart (hword : ∀ c ∈ word, isScalarChar c = true) (ht : Apart t) :
    word.isPrefixOf (s ++ t) = word.isPrefixOf s := by
  induction word generalizing s with
  | nil => simp
  | cons d word ih =>
    rw [List.forall_mem_cons] at hword
    cases s with
    | nil =>
      cases t with
      | nil => rfl
      | cons c t => simp [List.isPrefixOf, (ht.ne hword.1).symm]
    | cons c s => simp [List.isPrefixOf, ih hword.2]

theorem findSome?_apart (ht : Apart t) (words : List (List Char × Value))
    (h : ∀ m ∈ words, ∀ c ∈ m.1, isScalarChar c = true) :
    words.findSome? (fun (word, v) => if word.isPrefixOf (s ++ t) then
        some (v, (s ++ t).drop word.length) else none) =
      (words.findSome? fun (word, v) => if word.isPrefixOf s then some (v, s.drop word.length)
        else none).map fun found => (found.1, found.2 ++ t) := by
  induction words with
  | nil => rfl
  | cons m words ih =>
    rw [List.forall_mem_cons] at h
    simp only [List.findSome?_cons, isPrefixOf_apart h.1 ht, ih h.2]
    by_cases hstarts : m.1.isPrefixOf s = true
    · have hlength := (List.isPrefixOf_iff_prefix.mp hstarts).length_le
      simp [hstarts, List.drop_append_of_le_length hlength]
    · simp [hstarts]

theorem isScalarChar_constants : ∀ m ∈ constants, ∀ c ∈ m.1, isScalarChar c = true := by
  have hall : constants.all (fun m => m.1.all isScalarChar) = true := by decide
  exact fun m hm => List.all_eq_true.mp (List.all_eq_true.mp hall m hm)

theorem constant?_apart (ht : Apart t) :
    constant? (s ++ t) = (constant? s).map fun found => (found.1, found.2 ++ t) :=
  findSome?_apart ht constants isScalarChar_constants

theorem scalar_apart (ht : Apart t) : (scalar (s ++ t)).toOption =
    (scalar s).toOption.map fun found => (found.1, found.2 ++ t) := by
  rw [scalar, scalar, constant?_apart ht]
  cases constant? s with
  | some found => rfl
  | none =>
    dsimp only [Option.map_none]
    rw [number?_apart ht]
    cases number? s with
    | none => rfl
    | some found => cases found <;> rfl

/-! ### What is left -/

theorem leadingDigits_suffix (s : List Char) : (leadingDigits s).2 <:+ s := List.dropWhile_suffix _

theorem wholePart?_suffix (h : wholePart? s = some (word, rest)) : rest <:+ s := by
  cases s with
  | nil => cases h
  | cons c s =>
    rw [wholePart?] at h
    split at h
    · cases h
      exact List.suffix_cons c rest
    split at h
    · cases h
      exact leadingDigits_suffix (c :: s)
    · cases h

theorem fraction?_suffix (h : fraction? s = some (word, rest)) : rest <:+ s := by
  unfold fraction? at h
  split at h
  · rename_i r
    dsimp only at h
    split at h
    · cases h
    · cases h
      exact (leadingDigits_suffix r).trans (List.suffix_cons '.' r)
  · cases h

theorem exponentDigits_suffix {e : Int} (negative : Bool) (h : exponentDigits negative s = some (e, rest)) :
    rest <:+ s := by
  unfold exponentDigits at h
  dsimp only at h
  split at h
  · cases h
  · cases h
    exact leadingDigits_suffix s

theorem exponent?_suffix {e : Int} (h : exponent? s = some (e, rest)) : rest <:+ s := by
  unfold exponent? at h
  split at h
  · rename_i c s
    refine List.IsSuffix.trans ?_ (List.suffix_cons c s)
    split at h
    · dsimp only at h
      split at h
      · exact (exponentDigits_suffix true h).trans (List.suffix_cons _ _)
      · exact (exponentDigits_suffix false h).trans (List.suffix_cons _ _)
      · exact exponentDigits_suffix false h
    · cases h
  · cases h

theorem unsignedNumber?_suffix (negative : Bool) (h : unsignedNumber? negative s = some (.ok (v, rest))) :
    rest <:+ s := by
  rw [unsignedNumber?] at h
  cases hwhole : wholePart? s with
  | none =>
    rw [hwhole] at h
    cases h
  | some found =>
    obtain ⟨whole, r⟩ := found
    refine List.IsSuffix.trans ?_ (wholePart?_suffix hwhole)
    rw [hwhole] at h
    simp only [bind, Option.bind] at h
    cases hfraction : fraction? r with
    | none =>
      rw [hfraction] at h
      cases hexponent : exponent? r with
      | none =>
        simp only [Option.elim, hexponent] at h
        split at h <;> cases h
        exact List.suffix_rfl
      | some e =>
        simp only [Option.elim, hexponent] at h
        cases h
        exact exponent?_suffix hexponent
    | some f =>
      rw [hfraction] at h
      refine List.IsSuffix.trans ?_ (fraction?_suffix hfraction)
      cases hexponent : exponent? f.2 with
      | none =>
        simp only [Option.elim, hexponent] at h
        cases h
        exact List.suffix_rfl
      | some e =>
        simp only [Option.elim, hexponent] at h
        cases h
        exact exponent?_suffix hexponent

theorem number?_suffix (h : number? s = some (.ok (v, rest))) : rest <:+ s := by
  by_cases hminus : ∃ r, s = '-' :: r
  · obtain ⟨r, rfl⟩ := hminus
    exact (unsignedNumber?_suffix true h).trans (List.suffix_cons _ _)
  · rw [number?_of_not_minus fun r hr => hminus ⟨r, hr⟩] at h
    exact unsignedNumber?_suffix false h

theorem constant?_suffix (h : constant? s = some (v, rest)) : rest <:+ s := by
  obtain ⟨⟨word, w⟩, -, h⟩ := List.exists_of_findSome?_eq_some h
  dsimp only at h
  split at h
  · cases h
    exact List.drop_suffix _ _
  · cases h

theorem scalar_suffix (h : scalar s = .ok (v, rest)) : rest <:+ s := by
  unfold scalar at h
  cases hconstant : constant? s with
  | some found =>
    rw [hconstant] at h
    cases h
    exact constant?_suffix hconstant
  | none =>
    rw [hconstant] at h
    cases hnumber : number? s with
    | none =>
      rw [hnumber] at h
      cases h
    | some found =>
      rw [hnumber] at h
      cases h
      exact number?_suffix hnumber

/-- A scalar that something else comes after is read from its own characters alone. -/
theorem scalar_local (h : scalar s = .ok (v, rest)) (hrest : Ends rest) :
    ∃ c text, s = c :: (text ++ rest) ∧ (∀ d ∈ c :: text, isScalarChar d = true) ∧
      ∀ {after}, Ends after → scalar (c :: (text ++ after)) = .ok (v, after) := by
  have hsplit : s.takeWhile isScalarChar ++ s.dropWhile isScalarChar = s := List.takeWhile_append_dropWhile
  have hapart : Apart (s.dropWhile isScalarChar) := by
    intro c hc
    have hnot := List.head?_dropWhile_not isScalarChar s
    rw [hc] at hnot
    exact hnot
  have hown : ∀ d ∈ s.takeWhile isScalarChar, isScalarChar d = true :=
    List.all_eq_true.mp List.all_takeWhile
  generalize s.takeWhile isScalarChar = text at hsplit hown
  generalize s.dropWhile isScalarChar = more at hsplit hapart
  subst hsplit
  have hread := scalar_apart (s := text) hapart
  rw [h] at hread
  cases htext : scalar text with
  | error f => rw [htext] at hread; cases hread
  | ok found =>
    obtain ⟨w, r⟩ := found
    rw [htext] at hread
    cases hread
    -- what is left of the characters would belong to the scalar
    obtain rfl : r = [] := by
      cases r with
      | nil => rfl
      | cons c r =>
        exact absurd hrest (not_ends_scalarChar (hown c ((scalar_suffix htext).mem List.mem_cons_self)))
    cases text with
    | nil => cases htext
    | cons c text =>
      refine ⟨c, text, rfl, hown, fun {after} hafter => ?_⟩
      have hagain := scalar_apart (s := c :: text) hafter.apart
      rw [htext] at hagain
      cases hscalar : scalar (c :: (text ++ after)) with
      | error f => rw [List.cons_append, hscalar] at hagain; cases hagain
      | ok found =>
        rw [List.cons_append, hscalar] at hagain
        cases hagain
        rfl

end

/-! ### Strings -/

section
variable {c : Char} {p : CodePoint} {x : List CodePoint} {s text rest after : List Char}
  {n code fuel opening : Nat}

theorem hexDigit?_bounds (h : Text.hexDigit? c = some n) : 32 ≤ c.toNat ∧ c ≠ '"' ∧ c ≠ '\\' := by
  have hle {d : Char} (hd : 32 ≤ d.toNat) (hdc : d ≤ c) : 32 ≤ c.toNat := Nat.le_trans hd hdc
  refine ⟨?_, ?_, ?_⟩
  · unfold Text.hexDigit? at h
    split at h
    · rename_i hdigit
      exact hle (d := '0') (by decide) (Char.isDigit_iff_toNat.mp hdigit).1
    split at h
    · rename_i hrange
      rw [Bool.and_eq_true, decide_eq_true_eq] at hrange
      exact hle (d := 'a') (by decide) hrange.1
    split at h
    · rename_i hrange
      rw [Bool.and_eq_true, decide_eq_true_eq] at hrange
      exact hle (d := 'A') (by decide) hrange.1
    · cases h
  · rintro rfl
    cases h
  · rintro rfl
    cases h

theorem fourHex?_eq_some (h : fourHex? s = some (n, rest)) : ∃ a b c d, s = a :: b :: c :: d :: rest ∧
    (∀ e ∈ [a, b, c, d], 32 ≤ e.toNat ∧ e ≠ '"' ∧ e ≠ '\\') ∧
    ∀ more, fourHex? (a :: b :: c :: d :: more) = some (n, more) := by
  unfold fourHex? at h
  split at h
  · rename_i a b c d r
    cases ha : Text.hexDigit? a with
    | none => rw [ha] at h; cases h
    | some i =>
    cases hb : Text.hexDigit? b with
    | none => rw [ha, hb] at h; cases h
    | some j =>
    cases hc : Text.hexDigit? c with
    | none => rw [ha, hb, hc] at h; cases h
    | some k =>
    cases hd : Text.hexDigit? d with
    | none => rw [ha, hb, hc, hd] at h; cases h
    | some l =>
    rw [ha, hb, hc, hd] at h
    cases h
    refine ⟨a, b, c, d, rfl, ?_, fun more => ?_⟩
    · simp only [List.forall_mem_cons]
      exact ⟨hexDigit?_bounds ha, hexDigit?_bounds hb, hexDigit?_bounds hc, hexDigit?_bounds hd, by simp⟩
    · simp [fourHex?, ha, hb, hc, hd]
  · cases h

/-- An escape with another one after it: together they stand for one character, or the second is left. -/
theorem unicodeEscape_escape {d₁ d₂ d₃ d₄ : Char} (hfour : ∀ more, fourHex? (d₁ :: d₂ :: d₃ :: d₄ :: more) =
    some (n, more)) (hs : s ≠ []) : unicodeEscape code ('\\' :: 'u' :: d₁ :: d₂ :: d₃ :: d₄ :: s) =
      if (0xD800 ≤ code && code < 0xDC00) && (0xDC00 ≤ n && n < 0xE000) then
        .ok (.char (Char.ofNat (0x10000 + (code - 0xD800) * 0x400 + (n - 0xDC00))), s)
      else .ok (.ofCode code, '\\' :: 'u' :: d₁ :: d₂ :: d₃ :: d₄ :: s) := by
  have hlong : 4 < (d₁ :: d₂ :: d₃ :: d₄ :: s).length := by
    have hpos := List.length_pos_iff.mpr hs
    simp only [List.length_cons]
    omega
  rw [unicodeEscape]
  simp only [hlong, hfour, decide_true, Bool.and_true]
  cases hhigh : (decide (0xD800 ≤ code) && decide (code < 0xDC00))
  · simp only [Bool.false_and, Bool.false_eq_true, if_false]
  · simp only [Bool.true_and, if_true]

theorem stringBody_unicode {more : List Char} (hfour : fourHex? s = some (code, rest)) (hlong : 4 < s.length)
    (h : unicodeEscape code rest = .ok (p, more)) : stringBody opening (fuel + 1) ('\\' :: 'u' :: s) =
      (stringBody opening fuel more).map fun found => (p :: found.1, found.2) := by
  rw [stringBody, if_neg (by omega), hfour]
  simp only [h, bind, Except.bind]
  cases stringBody opening fuel more <;> rfl

/-- An escape that a string goes on with after another one is whole. -/
theorem fourHex?_of_escapes {found : List CodePoint × List Char}
    (h : unicodeEscape code ('\\' :: 'u' :: s) = .ok (p, rest))
    (hbody : stringBody opening fuel rest = .ok found) : 4 < s.length ∧ ∃ n r, fourHex? s = some (n, r) := by
  have hleft (hrest : rest = '\\' :: 'u' :: s) : 4 < s.length ∧ ∃ n r, fourHex? s = some (n, r) := by
    subst hrest
    cases fuel with
    | zero => cases hbody
    | succ fuel =>
      rw [stringBody] at hbody
      split at hbody
      · cases hbody
      · rename_i hlong
        cases hfour : fourHex? s with
        | none => rw [hfour] at hbody; cases hbody
        | some found => exact ⟨by omega, found.1, found.2, rfl⟩
  rw [unicodeEscape] at h
  split at h
  · rename_i hcondition
    cases hfour : fourHex? s with
    | none => rw [hfour] at h; cases h
    | some found =>
      simp only [Bool.and_eq_true, decide_eq_true_eq] at hcondition
      exact ⟨hcondition.2, found.1, found.2, rfl⟩
  · cases h
    exact hleft rfl

/-- What has no quote in it and is in front of a text stands before the text's first quote. -/
theorem eq_append_of_quote {xs : List Char} (hxs : '"' ∉ xs) (h : text ++ '"' :: after = xs ++ rest) :
    ∃ more, text = xs ++ more ∧ rest = more ++ '"' :: after := by
  induction xs generalizing text with
  | nil => exact ⟨text, rfl, h.symm⟩
  | cons x xs ih =>
    rw [List.mem_cons, not_or] at hxs
    cases text with
    | nil => exact absurd (List.cons.inj h).1 hxs.1
    | cons y text =>
      rw [List.cons_append, List.cons_append, List.cons.injEq] at h
      obtain ⟨more, htext, hrest⟩ := ih hxs.2 h.2
      exact ⟨more, by rw [h.1, htext, List.cons_append], hrest⟩

/-- The code points of a string are read from a text in front of its closing quote, whatever comes after. -/
structure BodyText (x : List CodePoint) (text : List Char) : Prop where
  inString : InString .quoted text
  read : ∀ {opening fuel : Nat} {after : List Char}, text.length < fuel →
    stringBody opening fuel (text ++ '"' :: after) = .ok (x, after)

theorem inString_plain (hquote : c ≠ '"') (hescape : c ≠ '\\') (hlow : 32 ≤ c.toNat)
    (h : InString .quoted s) : InString .quoted (c :: s) := by
  have hafter : Mode.quoted.after c = .quoted := by simp [Mode.after, hquote, hescape]
  exact ⟨hlow, by rw [hafter]; rfl, by rwa [hafter]⟩

theorem inString_escape (hlow : 32 ≤ c.toNat) (hcomma : c ≠ ',') (h : InString .quoted s) :
    InString .quoted ('\\' :: c :: s) :=
  ⟨show 32 ≤ '\\'.toNat by decide, rfl, ⟨hlow, hcomma⟩, rfl, h⟩

theorem inString_hex {ds : List Char} (hds : ∀ d ∈ ds, 32 ≤ d.toNat ∧ d ≠ '"' ∧ d ≠ '\\')
    (h : InString .quoted s) : InString .quoted (ds ++ s) := by
  induction ds with
  | nil => exact h
  | cons d ds ih =>
    rw [List.forall_mem_cons] at hds
    obtain ⟨⟨hlow, hquote, hescape⟩, hds⟩ := hds
    exact inString_plain hquote hescape hlow (ih hds)

theorem shortEscape?_admits {d : Char} (h : shortEscape? d = some c) : 32 ≤ d.toNat ∧ d ≠ ',' := by
  unfold shortEscape? at h
  split at h <;> first | exact ⟨by decide, by decide⟩ | cases h

theorem BodyText.nil : BodyText [] [] where
  inString := rfl
  read {opening fuel after} hfuel := by
    obtain ⟨fuel, rfl⟩ := Nat.exists_eq_add_one_of_ne_zero (Nat.ne_zero_of_lt hfuel)
    rfl

theorem BodyText.plain (h : BodyText x text) (hquote : c ≠ '"') (hescape : c ≠ '\\')
    (hlow : 32 ≤ c.toNat) : BodyText (.char c :: x) (c :: text) where
  inString := inString_plain hquote hescape hlow h.inString
  read {opening fuel after} hfuel := by
    obtain ⟨fuel, rfl⟩ := Nat.exists_eq_add_one_of_ne_zero (Nat.ne_zero_of_lt hfuel)
    rw [List.cons_append, stringBody_plain hquote hescape hlow, h.read (by simpa using hfuel)]
    rfl

theorem BodyText.short {d : Char} (h : BodyText x text) (hd : shortEscape? d = some c) :
    BodyText (.char c :: x) ('\\' :: d :: text) where
  inString := by
    obtain ⟨hlow, hcomma⟩ := shortEscape?_admits hd
    exact inString_escape hlow hcomma h.inString
  read {opening fuel after} hfuel := by
    obtain ⟨fuel, rfl⟩ := Nat.exists_eq_add_one_of_ne_zero (Nat.ne_zero_of_lt hfuel)
    have hu : d ≠ 'u' := by rintro rfl; cases hd
    rw [List.cons_append, List.cons_append, stringBody_short hd hu, h.read (by simp at hfuel; omega)]
    rfl

/-- An escape, alone or with the one after it, in front of the rest of a string. -/
theorem BodyText.unicode {q : List Char} {d₁ d₂ d₃ d₄ : Char} (h : BodyText x text)
    (hdigits : ∀ d ∈ [d₁, d₂, d₃, d₄], 32 ≤ d.toNat ∧ d ≠ '"' ∧ d ≠ '\\')
    (hfour : ∀ more, fourHex? (d₁ :: d₂ :: d₃ :: d₄ :: more) = some (code, more))
    (hpair : InString .quoted (q ++ text))
    (hread : ∀ after, unicodeEscape code (q ++ (text ++ '"' :: after)) = .ok (p, text ++ '"' :: after)) :
    BodyText (p :: x) ('\\' :: 'u' :: d₁ :: d₂ :: d₃ :: d₄ :: (q ++ text)) where
  inString := inString_escape (by decide) (by decide) (inString_hex hdigits hpair)
  read {opening fuel after} hfuel := by
    obtain ⟨fuel, rfl⟩ := Nat.exists_eq_add_one_of_ne_zero (Nat.ne_zero_of_lt hfuel)
    have hsplit : ('\\' :: 'u' :: d₁ :: d₂ :: d₃ :: d₄ :: (q ++ text)) ++ '"' :: after =
        '\\' :: 'u' :: (d₁ :: d₂ :: d₃ :: d₄ :: (q ++ (text ++ '"' :: after))) := by simp
    rw [hsplit, stringBody_unicode (hfour _) (by simp) (hread after),
      h.read (by simp at hfuel; omega)]
    rfl

/-- An escape in a string that goes on: it is read alone, or together with a second one. -/
theorem bodyText_of_unicode {more : List Char} (hfour : fourHex? s = some (code, rest))
    (hescape : unicodeEscape code rest = .ok (p, more)) (htext : more = text ++ '"' :: after)
    (hread : stringBody opening fuel more = .ok (x, after)) (h : BodyText x text) :
    ∃ front, '\\' :: 'u' :: s = front ++ '"' :: after ∧ BodyText (p :: x) front := by
  obtain ⟨d₁, d₂, d₃, d₄, rfl, hdigits, hagain⟩ := fourHex?_eq_some hfour
  by_cases hnext : ∃ low, rest = '\\' :: 'u' :: low
  · obtain ⟨low, rfl⟩ := hnext
    obtain ⟨hwhole, n, r, hlow⟩ := fourHex?_of_escapes hescape hread
    obtain ⟨e₁, e₂, e₃, e₄, rfl, hmore, hlowAgain⟩ := fourHex?_eq_some hlow
    have hr : r ≠ [] := by
      rintro rfl
      simp at hwhole
    rw [unicodeEscape_escape hlowAgain hr] at hescape
    split at hescape
    · rename_i hpaired
      obtain ⟨rfl, hmoreText⟩ := Prod.mk.inj (Except.ok.inj hescape)
      rw [← hmoreText] at htext
      subst htext
      have hpair : InString .quoted (['\\', 'u', e₁, e₂, e₃, e₄] ++ text) :=
        inString_escape (by decide) (by decide) (inString_hex hmore h.inString)
      exact ⟨_, by simp, h.unicode hdigits hagain hpair fun after' =>
        (unicodeEscape_escape hlowAgain (s := text ++ '"' :: after') (by simp)).trans (if_pos hpaired)⟩
    · rename_i hsingle
      cases hescape
      have hquote : '"' ∉ ['\\', 'u', e₁, e₂, e₃, e₄] := by
        simp only [List.forall_mem_cons] at hmore
        simp [hmore.1.2.1.symm, hmore.2.1.2.1.symm, hmore.2.2.1.2.1.symm, hmore.2.2.2.1.2.1.symm]
      obtain ⟨tail, htail, hrest⟩ := eq_append_of_quote hquote htext.symm
      refine ⟨_, ?_, h.unicode (q := []) hdigits hagain h.inString fun after' => ?_⟩
      · rw [htext]
        simp
      rw [htail]
      exact (unicodeEscape_escape hlowAgain (s := tail ++ '"' :: after') (by simp)).trans (if_neg hsingle)
  · rw [unicodeEscape_of_not_escape fun low hlow => hnext ⟨low, hlow⟩] at hescape
    obtain ⟨rfl, rfl⟩ := Prod.mk.inj (Except.ok.inj hescape)
    refine ⟨_, ?_, h.unicode (q := []) hdigits hagain h.inString fun after' => ?_⟩
    · rw [htext]
      simp
    · refine unicodeEscape_of_not_escape fun low hlow => ?_
      rcases text with _ | ⟨d, _ | ⟨e, text⟩⟩
      · cases (List.cons.inj hlow).1
      · cases (List.cons.inj (List.cons.inj hlow).2).1
      · obtain ⟨hd, hlow⟩ := List.cons.inj hlow
        obtain ⟨he, -⟩ := List.cons.inj hlow
        rw [hd, he] at htext
        exact hnext ⟨_, htext⟩

/-- The rest of a string that is read is read from the text up to its closing quote. -/
theorem stringBody_local (h : stringBody opening fuel s = .ok (x, after)) :
    ∃ text, s = text ++ '"' :: after ∧ BodyText x text := by
  fun_induction stringBody opening fuel s generalizing x with
  | case1 | case2 | case4 | case5 | case6 | case8 | case10 => cases h
  | case3 fuel rest =>
    cases h
    exact ⟨[], rfl, .nil⟩
  | case7 fuel s hlong code rest hfour ih =>
    obtain ⟨⟨p, more⟩, hescape, h⟩ := bind_eq_ok.mp h
    obtain ⟨⟨tail, left⟩, hbody, h⟩ := bind_eq_ok.mp h
    cases h
    obtain ⟨text, htext, hread⟩ := ih more hbody
    exact bodyText_of_unicode hfour hescape htext hbody hread
  | case9 fuel d s hu c hshort ih =>
    obtain ⟨⟨tail, left⟩, hbody, h⟩ := bind_eq_ok.mp h
    cases h
    obtain ⟨text, rfl, hread⟩ := ih hbody
    exact ⟨'\\' :: d :: text, rfl, hread.short hshort⟩
  | case11 fuel c s hquote hend hunicode hescape hlow ih =>
    obtain ⟨⟨tail, left⟩, hbody, h⟩ := bind_eq_ok.mp h
    cases h
    obtain ⟨text, rfl, hread⟩ := ih hbody
    have hc : c ≠ '\\' := fun hc => by
      cases text with
      | nil => exact hescape '"' _ hc rfl
      | cons d text => exact hescape d _ hc rfl
    exact ⟨c :: text, rfl, hread.plain hquote hc (by omega)⟩

/-- A string is read from the text up to its closing quote alone. -/
theorem string_local {x : Str} (h : string s = .ok (x, after)) :
    ∃ text, s = text ++ '"' :: after ∧ InString .quoted text ∧ ReadsBody x.toList text := by
  obtain ⟨⟨body, left⟩, hbody, h⟩ := bind_eq_ok.mp h
  cases h
  obtain ⟨text, rfl, hread⟩ := stringBody_local hbody
  refine ⟨text, rfl, hread.inString, fun rest => bind_eq_ok.mpr ⟨_, hread.read ?_, ?_⟩⟩
  · simp only [List.length_append, List.length_cons]
    omega
  · rfl

end

end Highlighter.Json

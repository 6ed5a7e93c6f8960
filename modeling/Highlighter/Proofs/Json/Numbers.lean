import Highlighter.Proofs.Decimal.ReadingBack
import Highlighter.Proofs.Json.Printing

/-! A double that is written as JSON is read as the same double. Its text is taken apart into the pieces
that the reader looks for; each layout is one choice of them. -/

namespace Highlighter.Json

open Highlighter.Decimal (Binary64 Scaled nearest ofDecimal_shift)

/-- The pieces of the text of a double without a sign: digits, digits after a point, and the sign and
the digits of an exponent. -/
structure NumberText where
  whole : List Char
  fraction : List Char := []
  exponent : Option (Bool × List Char) := none

namespace NumberText

def pointText : List Char → List Char
  | [] => []
  | ds => '.' :: ds

def exponentText : Option (Bool × List Char) → List Char
  | none => []
  | some (negative, ds) => 'e' :: (if negative then '-' else '+') :: ds

def text (t : NumberText) : List Char := t.whole ++ pointText t.fraction ++ exponentText t.exponent

def exponentValue : Option (Bool × List Char) → Int
  | none => 0
  | some (negative, ds) => if negative then -natOfDigits ds else natOfDigits ds

def decimal (t : NumberText) : Scaled :=
  ⟨natOfDigits (t.whole ++ t.fraction), exponentValue t.exponent - t.fraction.length⟩

/-- The pieces are those of a double: a whole part that starts with zero is zero alone, and something
follows it. -/
structure WellFormed (t : NumberText) : Prop where
  whole : t.whole = ['0'] ∨
    (∃ c cs, t.whole = c :: cs ∧ c ≠ '0') ∧ ∀ c ∈ t.whole, c.isDigit = true
  fraction : ∀ c ∈ t.fraction, c.isDigit = true
  exponent : ∀ e ∈ t.exponent, e.2 ≠ [] ∧ ∀ c ∈ e.2, c.isDigit = true
  double : t.fraction ≠ [] ∨ t.exponent ≠ none

end NumberText

section
variable {t : NumberText} {ds rest text : List Char} {c : Char} {negative : Bool} {d : Scaled} {m : Nat} {q : Int}

/-- Digits end before a character that is none. -/
theorem leadingDigits_of_ends (hds : ∀ c ∈ ds, c.isDigit = true) (h : ∀ c ∈ rest.head?, c.isDigit = false) :
    leadingDigits (ds ++ rest) = (ds, rest) := by
  have hrest : leadingDigits rest = ([], rest) := by
    cases rest with
    | nil => rfl
    | cons c rest => simp [leadingDigits, h c rfl]
  obtain ⟨htake, hdrop⟩ := Prod.mk.inj hrest
  rw [leadingDigits, List.takeWhile_append_of_pos hds, List.dropWhile_append_of_pos hds, htake, hdrop,
    List.append_nil]

theorem Ends.not_digit (h : Ends rest) : ∀ c ∈ rest.head?, c.isDigit = false := by
  intro c hc
  have hends := h c hc
  simp only [isJsonBlank, Bool.or_eq_true, beq_iff_eq] at hends
  rcases hends with (((rfl | rfl) | rfl) | rfl) | rfl | rfl | rfl <;> rfl

/-- What follows the whole part or the fraction does not go on with digits. -/
theorem NumberText.not_digit_exponentText (h : Ends rest) (e : Option (Bool × List Char)) :
    ∀ c ∈ (exponentText e ++ rest).head?, c.isDigit = false := by
  cases e with
  | none => exact h.not_digit
  | some e => simp [exponentText]

theorem NumberText.not_digit_pointText (h : Ends rest) (ds : List Char) (e : Option (Bool × List Char)) :
    ∀ c ∈ (pointText ds ++ (exponentText e ++ rest)).head?, c.isDigit = false := by
  cases ds with
  | nil => exact not_digit_exponentText h e
  | cons d ds => simp [pointText]

namespace NumberText

theorem exponent?_exponentText (h : Ends rest) {e : Option (Bool × List Char)}
    (he : ∀ x ∈ e, x.2 ≠ [] ∧ ∀ c ∈ x.2, c.isDigit = true) :
    exponent? (exponentText e ++ rest) = e.map fun _ => (exponentValue e, rest) := by
  rcases e with - | ⟨negative, ds⟩
  · exact h.not_number.2.2
  · obtain ⟨hne, hds⟩ := he _ rfl
    have hread := leadingDigits_of_ends hds h.not_digit
    cases negative <;> simp [exponentText, exponentValue, exponent?, hread, hne]

theorem fraction?_pointText (h : Ends rest) {e : Option (Bool × List Char)}
    (hds : ∀ c ∈ ds, c.isDigit = true) :
    fraction? (pointText ds ++ (exponentText e ++ rest)) =
      if ds = [] then none else some (ds, exponentText e ++ rest) := by
  cases ds with
  | nil =>
    rcases e with - | e
    · exact h.not_number.2.1
    · rfl
  | cons d ds =>
    have hread := leadingDigits_of_ends hds (not_digit_exponentText h e)
    simp only [List.cons_append] at hread
    simp [pointText, fraction?, hread]

theorem wholePart?_text (h : Ends rest) (ht : t.WellFormed) : wholePart? (t.text ++ rest) =
    some (t.whole, pointText t.fraction ++ (exponentText t.exponent ++ rest)) := by
  have hsplit : t.text ++ rest = t.whole ++ (pointText t.fraction ++ (exponentText t.exponent ++ rest)) := by
    simp [text]
  rw [hsplit]
  rcases ht.whole with hzero | ⟨⟨c, cs, hwhole, hc⟩, hdigits⟩
  · rw [hzero]
    rfl
  · have hread := leadingDigits_of_ends hdigits (not_digit_pointText h t.fraction t.exponent)
    have hdigit : c.isDigit = true := hdigits c (by simp [hwhole])
    rw [hwhole] at hread ⊢
    rw [List.cons_append] at hread ⊢
    rw [wholePart?, if_neg (by simpa using hc), if_pos hdigit, hread]

theorem text_eq_cons (ht : t.WellFormed) : ∃ c cs, t.text = c :: cs ∧ c.isDigit = true := by
  rcases ht.whole with hzero | ⟨⟨c, cs, hwhole, -⟩, hdigits⟩
  · exact ⟨'0', _, by rw [text, hzero]; rfl, rfl⟩
  · exact ⟨c, _, by rw [text, hwhole]; rfl, hdigits c (by simp [hwhole])⟩

/-- The text is read as the double that is nearest to its decimal, behind a minus sign or not. -/
theorem number?_text (h : Ends rest) (ht : t.WellFormed) (negative : Bool) :
    number? ((if negative then '-' :: t.text else t.text) ++ rest) =
      some (.ok (.float (nearest negative t.decimal), rest)) := by
  have hwhole := wholePart?_text h ht
  have hfraction := @fraction?_pointText t.fraction rest h t.exponent ht.fraction
  have hexponent := exponent?_exponentText h ht.exponent
  obtain ⟨c, cs, htext, hc⟩ := text_eq_cons ht
  have hminus : c ≠ '-' := by
    rintro rfl
    cases hc
  have hpower : exponent? ((fraction? (pointText t.fraction ++ (exponentText t.exponent ++ rest))).elim
      (pointText t.fraction ++ (exponentText t.exponent ++ rest)) (·.2)) =
        t.exponent.map fun _ => (exponentValue t.exponent, rest) := by
    rw [hfraction, ← hexponent]
    by_cases hnil : t.fraction = [] <;> simp [hnil, pointText]
  have hdouble := ht.double
  -- the sign is taken off, and then the pieces are found that there are
  cases negative
  · simp only [Bool.false_eq_true, if_false, htext, List.cons_append] at hwhole ⊢
    unfold number?
    split
    rename_i negative unsigned hsign
    split at hsign
    · rename_i r hr
      exact absurd (List.cons.inj hr).1 hminus
    · cases hsign
      simp only [hwhole, bind, Option.bind]
      rw [hpower, hfraction]
      cases he : t.exponent <;> by_cases hnil : t.fraction = [] <;>
        simp_all [nearest, decimal, exponentText, exponentValue, pointText]
  · simp only [if_true, List.cons_append, number?, hwhole, bind, Option.bind]
    rw [hpower, hfraction]
    cases he : t.exponent <;> by_cases hnil : t.fraction = [] <;>
      simp_all [nearest, decimal, exponentText, exponentValue, pointText]

end NumberText

/-! ### Digits -/

theorem natOfDigits_append (ds es : List Char) :
    natOfDigits (ds ++ es) = 10 ^ es.length * natOfDigits ds + natOfDigits es :=
  (Nat.ofDigitChars_append 0).trans Nat.ofDigitChars_eq_ofDigitChars_zero

theorem natOfDigits_zeros (k : Nat) : natOfDigits (List.replicate k '0') = 0 :=
  Nat.ofDigitChars_replicate_zero

theorem isDigit_zeros (k : Nat) : ∀ c ∈ List.replicate k '0', c.isDigit = true := by
  intro c hc
  rw [List.eq_of_mem_replicate hc]
  rfl

/-! ### Layouts -/

/-- A text is made of pieces whose decimal has the same nearest doubles. -/
def Shows (d : Scaled) (text : List Char) : Prop :=
  ∃ t : NumberText, t.WellFormed ∧ t.text = text ∧ ∀ negative, nearest negative t.decimal = nearest negative d

theorem toDigits_whole (hd : d.digits ≠ 0) :
    (∃ c cs, Nat.toDigits 10 d.digits = c :: cs ∧ c ≠ '0') ∧
      ∀ c ∈ Nat.toDigits 10 d.digits, c.isDigit = true :=
  ⟨toDigits_head (Nat.pos_of_ne_zero hd), isDigit_toDigits _⟩

/-- The point after the first digit, and an exponent. -/
theorem shows_exponent {cs es : List Char} {low : Bool} (hdigits : Nat.toDigits 10 d.digits = c :: cs)
    (hc : c ≠ '0') (hes : ∀ c ∈ es, c.isDigit = true) (hne : es ≠ [])
    (he : NumberText.exponentValue (some (low, es)) = d.exponent + cs.length) :
    Shows d ((if cs.isEmpty then [c] else c :: '.' :: cs) ++ 'e' :: (if low then '-' else '+') :: es) := by
  have hall := isDigit_toDigits d.digits
  rw [hdigits] at hall
  obtain ⟨hfirst, hmore⟩ := List.forall_mem_cons.mp hall
  have hvalue := natOfDigits_toDigits d.digits
  rw [hdigits] at hvalue
  refine ⟨{ whole := [c], fraction := cs, exponent := some (low, es) }, ?_, ?_, fun negative => ?_⟩
  · exact { whole := .inr ⟨⟨c, [], rfl, hc⟩, by simpa using hfirst⟩, fraction := hmore,
            exponent := by rintro e ⟨⟩; exact ⟨hne, hes⟩, double := .inr (by simp) }
  · cases cs <;> simp [NumberText.text, NumberText.pointText, NumberText.exponentText]
  · simp only [NumberText.decimal, he, List.singleton_append, hvalue, Int.add_sub_cancel]

/-- A point among digits, and no exponent. -/
theorem shows_pointed {whole fraction : List Char}
    (hwhole : whole = ['0'] ∨ (∃ c cs, whole = c :: cs ∧ c ≠ '0') ∧ ∀ c ∈ whole, c.isDigit = true)
    (hfraction : ∀ c ∈ fraction, c.isDigit = true) (hne : fraction ≠ [])
    (hd : ∀ negative, nearest negative ⟨natOfDigits (whole ++ fraction), -fraction.length⟩ = nearest negative d) :
    Shows d (whole ++ '.' :: fraction) := by
  refine ⟨{ whole, fraction }, ⟨hwhole, hfraction, nofun, .inl hne⟩, ?_, fun negative => ?_⟩
  · obtain ⟨c, cs, rfl⟩ := List.exists_cons_of_ne_nil hne
    simp [NumberText.text, NumberText.pointText, NumberText.exponentText]
  · simpa [NumberText.decimal, NumberText.exponentValue] using hd negative

/-- Zeros between the point and the digits. -/
theorem shows_below {k : Nat} (hk : d.exponent + (Nat.toDigits 10 d.digits).length = -k) :
    Shows d (['0'] ++ '.' :: (List.replicate k '0' ++ Nat.toDigits 10 d.digits)) := by
  refine shows_pointed (.inl rfl) ?_ (by simp [Nat.toDigits_ne_nil]) fun negative => ?_
  · exact fun c hc => (List.mem_append.mp hc).elim (isDigit_zeros k c) (isDigit_toDigits _ c)
  · have hvalue : natOfDigits (['0'] ++ (List.replicate k '0' ++ Nat.toDigits 10 d.digits)) = d.digits := by
      have hzeros : ['0'] ++ List.replicate k '0' = List.replicate (k + 1) '0' := rfl
      rw [← List.append_assoc, hzeros, natOfDigits_append, natOfDigits_zeros, natOfDigits_toDigits,
        Nat.mul_zero, Nat.zero_add]
    have hexponent : -((List.replicate k '0' ++ Nat.toDigits 10 d.digits).length : Int) = d.exponent := by
      rw [List.length_append, List.length_replicate]
      omega
    rw [hvalue, hexponent]

/-- The point among the digits. -/
theorem shows_within {p : Nat} (hd : d.digits ≠ 0) (hp : 0 < p) (hlt : p < (Nat.toDigits 10 d.digits).length)
    (hpoint : d.exponent + (Nat.toDigits 10 d.digits).length = p) :
    Shows d ((Nat.toDigits 10 d.digits).take p ++ '.' :: (Nat.toDigits 10 d.digits).drop p) := by
  obtain ⟨⟨c, cs, hcons, hc⟩, hdigits⟩ := toDigits_whole hd
  refine shows_pointed (.inr ⟨⟨c, cs.take (p - 1), ?_, hc⟩, ?_⟩) ?_ (by simpa using hlt) fun negative => ?_
  · rw [hcons, List.take_cons hp]
  · exact fun c hc => hdigits c (List.mem_of_mem_take hc)
  · exact fun c hc => hdigits c (List.mem_of_mem_drop hc)
  · have hexponent : -(((Nat.toDigits 10 d.digits).drop p).length : Int) = d.exponent := by
      rw [List.length_drop]
      omega
    rw [List.take_append_drop, natOfDigits_toDigits, hexponent]

/-- Zeros between the digits and the point. -/
theorem shows_behind {k : Nat} (hk : d.exponent = k) (hd : d.digits = 0 → k = 0) :
    Shows d ((Nat.toDigits 10 d.digits ++ List.replicate k '0') ++ '.' :: ['0']) := by
  have hvalue : natOfDigits ((Nat.toDigits 10 d.digits ++ List.replicate k '0') ++ ['0']) =
      d.digits * 10 ^ (k + 1) := by
    rw [List.append_assoc, ← List.replicate_succ', natOfDigits_append, natOfDigits_zeros, natOfDigits_toDigits,
      List.length_replicate, Nat.add_zero, Nat.mul_comm]
  refine shows_pointed ?_ (by simp) (by simp) fun negative => ?_
  · by_cases hzero : d.digits = 0
    · rw [hzero, hd hzero]
      exact .inl rfl
    · obtain ⟨⟨c, cs, hcons, hc⟩, hdigits⟩ := toDigits_whole hzero
      refine .inr ⟨⟨c, cs ++ List.replicate k '0', by rw [hcons]; rfl, hc⟩, fun c hc => ?_⟩
      exact (List.mem_append.mp hc).elim (hdigits c) (isDigit_zeros k c)
  · rw [hvalue, List.length_singleton]
    by_cases hzero : d.digits = 0
    · simp [nearest, Binary64.ofDecimal, hzero]
    · have hshift := @ofDecimal_shift negative d.digits d.exponent hzero (k + 1)
      rw [show d.exponent - ((k + 1 : Nat) : Int) = -((1 : Nat) : Int) by omega] at hshift
      exact hshift

/-- The digits of an exponent, filled up to two. -/
theorem natOfDigits_padded {n : Nat} {es : List Char}
    (hes : es = if (Nat.toDigits 10 n).length < 2 then '0' :: Nat.toDigits 10 n else Nat.toDigits 10 n) :
    natOfDigits es = n ∧ (∀ c ∈ es, c.isDigit = true) ∧ es ≠ [] := by
  have hdigits := isDigit_toDigits n
  split at hes
  · subst hes
    exact ⟨natOfDigits_toDigits n, List.forall_mem_cons.mpr ⟨rfl, hdigits⟩, List.cons_ne_nil _ _⟩
  · subst hes
    exact ⟨natOfDigits_toDigits n, hdigits, Nat.toDigits_ne_nil⟩

/-- The layout of a decimal is a text of its value. -/
theorem layout_shows (hd : d.digits = 0 → d.exponent = 0) : Shows d (Decimal.layout d) := by
  unfold Decimal.layout
  dsimp only
  split
  · rename_i hfar
    have hdigits : d.digits ≠ 0 := by
      intro hzero
      simp [hd hzero, hzero] at hfar
    obtain ⟨c, cs, hcons, hc⟩ := toDigits_head (Nat.pos_of_ne_zero hdigits)
    generalize he : d.exponent + (Nat.toDigits 10 d.digits).length - 1 = e
    obtain ⟨hvalue, hes, hne⟩ := natOfDigits_padded (n := e.natAbs) rfl
    have hexponent : NumberText.exponentValue (some (decide (e < 0), if (Nat.toDigits 10 e.natAbs).length < 2 then
        '0' :: Nat.toDigits 10 e.natAbs else Nat.toDigits 10 e.natAbs)) = d.exponent + cs.length := by
      rw [hcons, List.length_cons] at he
      simp only [NumberText.exponentValue, hvalue, decide_eq_true_eq]
      split <;> omega
    have hshows := shows_exponent hcons hc hes hne hexponent
    simpa [hcons] using hshows
  split
  · rename_i hpoint
    have hshows := @shows_below d (-(d.exponent + (Nat.toDigits 10 d.digits).length)).toNat (by omega)
    simpa using hshows
  split
  · rename_i hpos hpoint
    have hdigits : d.digits ≠ 0 := by
      intro hzero
      simp [hd hzero, hzero] at hpoint
    exact shows_within hdigits (by omega) (by omega) (by omega)
  · have hshows := @shows_behind d (d.exponent + (Nat.toDigits 10 d.digits).length -
      (Nat.toDigits 10 d.digits).length).toNat (by omega) (by omega)
    simpa using hshows

/-! ### Doubles -/

/-- Zero is written with the exponent zero. -/
theorem written_exponent (hx : Binary64.IsNormal (.finite negative m q))
    (hzero : (Binary64.written m q).digits = 0) : (Binary64.written m q).exponent = 0 := by
  have hnearest := Decimal.written_nearest hx
  have hm : m = 0 := by
    simp only [nearest, hzero, Binary64.ofDecimal, beq_self_eq_true, Bool.true_or, if_true, Binary64.zero,
      Binary64.finite.injEq] at hnearest
    exact hnearest.2.1.symm
  simp [Binary64.written, hm, Decimal.stripZeros]

/-- A text made of the pieces of a number is read as the double nearest to it. -/
theorem reads_number {d : Scaled} (h : Shows d text) (negative : Bool) :
    Reads (.float (nearest negative d)) (if negative then '-' :: text else text) := by
  obtain ⟨t, ht, rfl, hd⟩ := h
  obtain ⟨c, cs, htext, hc⟩ := NumberText.text_eq_cons ht
  have hother {e : Char} (he : e.isDigit = false) : c ≠ e := by
    rintro rfl
    rw [he] at hc
    cases hc
  have hread {rest : List Char} (hends : Ends rest) := NumberText.number?_text hends ht negative
  simp only [hd] at hread
  cases negative
  · refine reads_scalar ⟨c, cs, htext, ?_, hother rfl, hother rfl⟩ ?_ fun hends => ?_
    · simp [isJsonBlank, hother]
    · simp [htext, hother]
    · have hnumber := hread hends
      simp only [Bool.false_eq_true, if_false] at hnumber ⊢
      rw [scalar, hnumber, htext, List.cons_append, constant?_of_number (.inl hc)]
      rfl
  · refine reads_scalar ⟨'-', _, rfl, rfl, by decide, by decide⟩ (by simp) fun hends => ?_
    have hnumber := hread hends
    simp only [if_true, List.cons_append] at hnumber ⊢
    rw [scalar, hnumber, constant?_of_number (.inr ⟨rfl, c, by simp [htext], hc⟩)]
    rfl

/-- The text of a double is read as the double. -/
theorem reads_floatText {x : Binary64} (hx : x.IsNormal) : Reads (.float x) (floatText x) := by
  cases x with
  | nan => exact reads_word (by simp [constants, floatText, Binary64.render])
  | infinite negative => cases negative <;> exact reads_word (by simp [constants, floatText, Binary64.render])
  | finite negative m q =>
    have hreads := reads_number (layout_shows (written_exponent hx)) negative
    rwa [Decimal.written_nearest hx] at hreads

/-! ### Integers that are too long -/

/-- An integer with more digits than are accepted stops the reader. -/
theorem read_hugeInteger {n : Nat} (hn : greatestIntegerLength < (Nat.toDigits 10 n).length) :
    read (Nat.toDigits 10 n) = .error (.hugeInteger (Nat.toDigits 10 n).length) := by
  obtain ⟨c, cs, hcons⟩ := List.exists_cons_of_ne_nil (Nat.toDigits_ne_nil (n := n) (b := 10))
  have hdigit : c.isDigit = true := isDigit_toDigits n c (by simp [hcons])
  have hother {e : Char} (he : e.isDigit = false) : c ≠ e := by
    rintro rfl
    rw [he] at hdigit
    cases hdigit
  have hwhole := wholePart?_toDigits n ends_nil
  have hnumber : number? (c :: cs) = some (.error (.hugeInteger (Nat.toDigits 10 n).length)) := by
    rw [List.append_nil, hcons] at hwhole
    rw [hcons] at hn
    unfold number?
    split
    rename_i negative unsigned hsign
    split at hsign
    · rename_i r hr
      exact absurd (List.cons.inj hr).1 (hother rfl)
    · cases hsign
      simpa [hwhole, hcons, fraction?, exponent?] using hn
  have hblank : isJsonBlank c = false := by simp [isJsonBlank, hother]
  have hvalue (fuel : Nat) : value (fuel + 1) (c :: cs) = .error (.hugeInteger (Nat.toDigits 10 n).length) := by
    rw [value, if_neg (by simpa using hother rfl), if_neg (by simpa using hother rfl),
      if_neg (by simpa using hother rfl), scalar, constant?_of_number (.inl hdigit), hnumber]
    rfl
  rw [read, hcons, document]
  · rw [skipBlanks_cons hblank, hvalue, hcons]
    rfl
  · rintro rest hrest
    exact absurd (List.cons.inj hrest).1 (hother rfl)

end

end Highlighter.Json

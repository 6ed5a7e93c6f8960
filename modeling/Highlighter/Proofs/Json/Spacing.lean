import Highlighter.Proofs.Json.Derivation
import Mathlib

/-! Blanks between the pieces of a JSON text. Outside strings they may come and go, as long as two pieces
are not joined, and the same value is read. Outside strings a JSON text holds no other blanks than four, no
slashes, and after a comma another item or member; in strings it holds no control characters. -/

namespace Highlighter.Json

/-- The second text is the first with other blanks, from a place in both. Between two pieces a blank may
be added or left out where one stands before, or a mark, or where a value would end. -/
inductive Respaced : Mode → List Char → List Char → Prop
  | nil {m : Mode} : Respaced m [] []
  | keep {m : Mode} {c : Char} {s t : List Char} (others : Respaced (m.after c) s t) :
    Respaced m (c :: s) (c :: t)
  | fewer {m : Mode} {b : Char} {s t : List Char} (outside : m.isOutside = true) (loose : m = .gap ∨ Ends t)
    (blank : isJsonBlank b = true) (others : Respaced .gap s t) : Respaced m (b :: s) t
  | more {m : Mode} {b : Char} {s t : List Char} (outside : m.isOutside = true) (loose : m = .gap ∨ Ends s)
    (blank : isJsonBlank b = true) (others : Respaced .gap s t) : Respaced m s (b :: t)

/-- The texts start with the same character that is not blank, and go on with the same pieces, or both
are empty. -/
inductive Abreast : List Char → List Char → Prop
  | nil : Abreast [] []
  | cons {c : Char} {s t : List Char} (visible : isJsonBlank c = false)
    (others : Respaced (Mode.gap.after c) s t) : Abreast (c :: s) (c :: t)

section
variable {m : Mode} {b c : Char} {s t text rest : List Char} {p : Part} {v : Value}

/-! ### Places -/

theorem Mode.after_of_outside (hm : m.isOutside = true) (c : Char) : m.after c = gap.after c := by
  cases m <;> first | rfl | cases hm

theorem Mode.after_blank (hm : m.isOutside = true) (hb : isJsonBlank b = true) : m.after b = gap := by
  have hquote : b ≠ '"' := by
    rintro rfl
    cases hb
  rw [after_of_outside hm]
  simp [after, hquote, hb]

theorem Mode.after_scalarChar (hm : m.isOutside = true) (hc : isScalarChar c = true) : m.after c = bare := by
  have hnone : ['"', ' ', '\t', '\n', '\r', ',', ':', '[', ']', '{', '}'].all (!isScalarChar ·) = true := by
    decide
  have hne : ∀ d ∈ ['"', ' ', '\t', '\n', '\r', ',', ':', '[', ']', '{', '}'], c ≠ d :=
    fun d hd => ne_of_scalarChar hc (by simpa using List.all_eq_true.mp hnone d hd)
  simp only [List.forall_mem_cons] at hne
  rw [after_of_outside hm]
  simp [after, isJsonBlank, isMark, hne]

/-! ### Texts with other blanks -/

theorem Respaced.refl (m : Mode) (s : List Char) : Respaced m s s := by
  induction s generalizing m with
  | nil => exact .nil
  | cons c s ih => exact .keep (ih _)

theorem Respaced.symm (h : Respaced m s t) : Respaced m t s := by
  induction h with
  | nil => exact .nil
  | keep _ ih => exact .keep ih
  | fewer outside loose blank _ ih => exact .more outside loose blank ih
  | more outside loose blank _ ih => exact .fewer outside loose blank ih

theorem Respaced.gap (h : Respaced m s t) (hm : m.isOutside = true) : Respaced .gap s t := by
  cases h with
  | nil => exact .nil
  | keep others => exact .keep (Mode.after_of_outside hm _ ▸ others)
  | fewer outside loose blank others => exact .fewer rfl (.inl rfl) blank others
  | more outside loose blank others => exact .more rfl (.inl rfl) blank others

/-- Where a value would end in both, it does not matter what stands before. -/
theorem Respaced.tighten (h : Respaced .gap s t) (hm : m.isOutside = true) (hs : Ends s) (ht : Ends t) :
    Respaced m s t := by
  cases h with
  | nil => exact .nil
  | keep others => exact .keep (Mode.after_of_outside hm _ ▸ others)
  | fewer outside loose blank others => exact .fewer hm (.inr ht) blank others
  | more outside loose blank others => exact .more hm (.inr hs) blank others

/-- The texts are abreast where their next pieces start. -/
theorem Respaced.abreast (h : Respaced m s t) (hm : m.isOutside = true) :
    Abreast (skipBlanks s) (skipBlanks t) := by
  induction h with
  | nil => exact .nil
  | @keep m c s t others ih =>
    by_cases hc : isJsonBlank c = true
    · have hgap := Mode.after_blank hm hc
      have hskip := ih (by rw [hgap]; rfl)
      simpa [skipBlanks, hc] using hskip
    · rw [Bool.not_eq_true] at hc
      rw [skipBlanks_cons hc, skipBlanks_cons hc]
      exact .cons hc (Mode.after_of_outside hm c ▸ others)
  | fewer outside loose blank others ih => simpa [skipBlanks, blank] using ih rfl
  | more outside loose blank others ih => simpa [skipBlanks, blank] using ih rfl

/-- The next mark of one text is that of the other. -/
theorem Respaced.next (h : Respaced .gap s t) (hs : skipBlanks s = c :: rest) :
    ∃ rest', skipBlanks t = c :: rest' ∧ Respaced (Mode.gap.after c) rest rest' := by
  have habreast := h.abreast rfl
  rw [hs] at habreast
  generalize skipBlanks t = u at habreast
  cases habreast with
  | cons visible others => exact ⟨_, rfl, others⟩

theorem Respaced.next_nil (h : Respaced .gap s t) (hs : skipBlanks s = []) : skipBlanks t = [] := by
  have habreast := h.abreast rfl
  rw [hs] at habreast
  generalize skipBlanks t = u at habreast
  cases habreast
  rfl

/-- In a string nothing changes. -/
theorem Respaced.inString (htext : InString m text) (hm : m.isOutside = false)
    (h : Respaced m (text ++ rest) t) : ∃ rest', t = text ++ rest' ∧ Respaced .quoted rest rest' := by
  induction text generalizing m t with
  | nil =>
    obtain rfl : m = .quoted := htext
    exact ⟨t, rfl, h⟩
  | cons c text ih =>
    obtain ⟨-, hinside, htext⟩ := htext
    cases h with
    | keep others =>
      obtain ⟨rest', rfl, hrest⟩ := ih htext hinside others
      exact ⟨rest', rfl, hrest⟩
    | fewer outside => rw [hm] at outside; cases outside
    | more outside => rw [hm] at outside; cases outside

theorem Respaced.quote (h : Respaced .quoted ('"' :: rest) t) :
    ∃ rest', t = '"' :: rest' ∧ Respaced .bare rest rest' := by
  cases h with
  | keep others => exact ⟨_, rfl, others⟩
  | fewer outside => cases outside
  | more outside => cases outside

/-- A scalar that has started goes on unchanged. -/
theorem Respaced.scalar (htext : ∀ d ∈ text, isScalarChar d = true) (h : Respaced .bare (text ++ rest) t) :
    ∃ rest', t = text ++ rest' ∧ Respaced .bare rest rest' := by
  induction text generalizing t with
  | nil => exact ⟨t, rfl, h⟩
  | cons c text ih =>
    rw [List.forall_mem_cons] at htext
    cases h with
    | keep others =>
      rw [Mode.after_scalarChar rfl htext.1] at others
      obtain ⟨rest', rfl, hrest⟩ := ih htext.2 others
      exact ⟨rest', rfl, hrest⟩
    | fewer outside loose blank others =>
      exact absurd (show Ends (c :: []) by simp [Ends, blank]) (not_ends_scalarChar htext.1)
    | more outside loose blank others =>
      rcases loose with hgap | hloose
      · cases hgap
      · exact absurd hloose (not_ends_scalarChar htext.1)

theorem Respaced.ends (h : Respaced .bare s t) (hs : Ends s) : Ends t := by
  cases h with
  | nil => exact hs
  | keep others => simpa [Ends] using hs
  | fewer outside loose blank others =>
    rcases loose with hgap | hloose
    · cases hgap
    · exact hloose
  | more outside loose blank others => simp [Ends, blank]

/-! ### Reading -/

/-- A string that has been opened is read in both. -/
theorem Respaced.string {x : Str} (body : string s = .ok (x, rest)) (h : Respaced .quoted s t) :
    ∃ rest', Json.string t = .ok (x, rest') ∧ Respaced .gap rest rest' := by
  obtain ⟨text, rfl, hin, hread⟩ := string_local body
  obtain ⟨t, rfl, hclosing⟩ := h.inString hin rfl
  obtain ⟨rest', rfl, hrest⟩ := hclosing.quote
  refine ⟨rest', ?_, hrest.gap rfl⟩
  rw [hread rest']

/-- What is read from a text is read from it with other blanks. -/
theorem Found.respaced (h : Found p s rest) (hst : Abreast s t) :
    ∃ rest', Found p t rest' ∧ Respaced .gap rest rest' := by
  induction h generalizing t with
  | @string x s rest body =>
    cases hst with
    | cons visible others =>
      obtain ⟨rest', hbody, hrest⟩ := Respaced.string body others
      exact ⟨rest', .string hbody, hrest⟩
  | @scalar v s rest read ends =>
    obtain ⟨c, text, rfl, hown, hread⟩ := scalar_local read ends
    cases hst with
    | cons visible others =>
      rw [Mode.after_scalarChar rfl (hown c List.mem_cons_self)] at others
      obtain ⟨rest', rfl, hrest⟩ := others.scalar fun d hd => hown d (List.mem_cons_of_mem _ hd)
      have hends := hrest.ends ends
      exact ⟨rest', .scalar (hread hends) hends, hrest.gap rfl⟩
  | emptyArray closed =>
    cases hst with
    | cons visible others =>
      obtain ⟨rest', hclosed, hrest⟩ := Respaced.next others closed
      exact ⟨rest', .emptyArray hclosed, hrest⟩
  | array each ih =>
    cases hst with
    | cons visible others =>
      obtain ⟨rest', hfound, hrest⟩ := ih (others.abreast rfl)
      exact ⟨rest', .array hfound, hrest⟩
  | emptyObject closed =>
    cases hst with
    | cons visible others =>
      obtain ⟨rest', hclosed, hrest⟩ := Respaced.next others closed
      exact ⟨rest', .emptyObject hclosed, hrest⟩
  | object each ih =>
    cases hst with
    | cons visible others =>
      obtain ⟨rest', hfound, hrest⟩ := ih (others.abreast rfl)
      exact ⟨rest', .object hfound, hrest⟩
  | lastItem item closed ih =>
    obtain ⟨after, hitem, hafter⟩ := ih hst
    obtain ⟨rest', hclosed, hrest⟩ := hafter.next closed
    exact ⟨rest', .lastItem hitem hclosed, hrest⟩
  | item item comma others ih ihOthers =>
    obtain ⟨after, hitem, hafter⟩ := ih hst
    obtain ⟨more, hcomma, hmore⟩ := hafter.next comma
    obtain ⟨rest', hothers, hrest⟩ := ihOthers (hmore.abreast rfl)
    exact ⟨rest', .item hitem hcomma hothers, hrest⟩
  | lastMember key colon item closed ih =>
    cases hst with
    | cons visible others =>
      obtain ⟨named, hkey, hnamed⟩ := Respaced.string key others
      obtain ⟨more, hcolon, hmore⟩ := hnamed.next colon
      obtain ⟨after, hitem, hafter⟩ := ih (hmore.abreast rfl)
      obtain ⟨rest', hclosed, hrest⟩ := hafter.next closed
      exact ⟨rest', .lastMember hkey hcolon hitem hclosed, hrest⟩
  | member key colon item comma each ih ihEach =>
    cases hst with
    | cons visible others =>
      obtain ⟨named, hkey, hnamed⟩ := Respaced.string key others
      obtain ⟨more, hcolon, hmore⟩ := hnamed.next colon
      obtain ⟨after, hitem, hafter⟩ := ih (hmore.abreast rfl)
      obtain ⟨more', hcomma, hmore'⟩ := hafter.next comma
      obtain ⟨rest', heach, hrest⟩ := ihEach (hmore'.abreast rfl)
      exact ⟨rest', .member hkey hcolon hitem hcomma heach, hrest⟩

/-- Texts that differ in blanks are read as the same value. -/
theorem Respaced.read (h : Respaced .gap s t) (hs : Json.read s = .ok v) : Json.read t = .ok v := by
  obtain ⟨-, rest, hfound, hleft⟩ := read_eq_ok.mp hs
  obtain ⟨rest', hfound', hrest⟩ := hfound.respaced (h.abreast rfl)
  refine read_eq_ok.mpr ⟨?_, rest', hfound', hrest.next_nil hleft⟩
  rintro cs rfl
  obtain ⟨c, more, hc, hopening⟩ := hfound'.opening
  rw [skipBlanks_cons rfl] at hc
  exact isOpening_ne hopening rfl (List.cons.inj hc).1.symm

theorem Respaced.read_iff (h : Respaced .gap s t) : Json.read s = .ok v ↔ Json.read t = .ok v :=
  ⟨h.read, h.symm.read⟩

end

/-! ### What stands where -/

/-- Every character is what it must be at its place, what comes after a comma outside strings is as it
should be, and the end is outside strings. -/
def LexicalWith (afterComma : List Char → Prop) : Mode → List Char → Prop
  | m, [] => m.isOutside = true
  | m, c :: s => m.Admits c ∧ (m.isOutside = true → c = ',' → afterComma s) ∧
      LexicalWith afterComma (m.after c) s

/-- Every character is what it must be at its place. -/
abbrev Lexical : Mode → List Char → Prop := LexicalWith fun _ => True

/-- Something else is to come, and not only the end of what it is in. -/
def GoesOn (s : List Char) : Prop := ∃ c cs, skipBlanks s = c :: cs ∧ isOpening c = true

section
variable {afterComma : List Char → Prop} {m : Mode} {b c : Char} {s t text rest : List Char} {p : Part} {v : Value}

theorem LexicalWith.lexical (h : LexicalWith afterComma m s) : Lexical m s := by
  induction s generalizing m with
  | nil => exact h
  | cons c s ih => exact ⟨h.1, fun _ _ => trivial, ih h.2.2⟩

theorem admits_outside (hm : m.isOutside = true) :
    m.Admits c ↔ isJsonBlank c = true ∨ Text.isBlank c = false ∧ c ≠ '/' := by
  cases m <;> first | rfl | cases hm

/-- Which place outside strings it is does not matter. -/
theorem lexicalWith_outside (hm : m.isOutside = true) :
    LexicalWith afterComma m s ↔ LexicalWith afterComma .gap s := by
  cases s with
  | nil => exact iff_of_true hm rfl
  | cons c s =>
    rw [LexicalWith, LexicalWith, Mode.after_of_outside hm, admits_outside hm, admits_outside (m := .gap) rfl, hm]
    rfl

theorem ne_comma_of_isJsonBlank (hb : isJsonBlank b = true) : b ≠ ',' := by
  rintro rfl
  cases hb

theorem lexicalWith_blank (hm : m.isOutside = true) (hb : isJsonBlank b = true) :
    LexicalWith afterComma m (b :: s) ↔ LexicalWith afterComma .gap s := by
  rw [LexicalWith, Mode.after_blank hm hb, admits_outside hm]
  simp [hb, ne_comma_of_isJsonBlank hb]

theorem lexicalWith_skipBlanks :
    LexicalWith afterComma .gap (skipBlanks s) ↔ LexicalWith afterComma .gap s := by
  induction s with
  | nil => rfl
  | cons c s ih =>
    by_cases hc : isJsonBlank c = true
    · rw [lexicalWith_blank rfl hc, ← ih, skipBlanks, List.dropWhile_cons_of_pos hc]
      rfl
    · rw [skipBlanks_cons (by simpa using hc)]

theorem scalarChar_range (hc : isScalarChar c = true) : 43 ≤ c.toNat ∧ c.toNat ≤ 122 ∧ c.toNat ≠ 47 := by
  have hrange {n m : Nat} (hlow : n ≤ c.toNat) (hhigh : c.toNat ≤ m) (h : 47 < n) (h' : m ≤ 122) :
      43 ≤ c.toNat ∧ c.toNat ≤ 122 ∧ c.toNat ≠ 47 := by omega
  simp only [isScalarChar, Char.isAlphanum, Char.isAlpha, Bool.or_eq_true, beq_iff_eq, Char.isUpper, Char.isLower,
    Bool.and_eq_true, decide_eq_true_eq, Char.isDigit_iff_toNat] at hc
  rcases hc with ((((hupper | hlower) | hdigit) | rfl) | rfl) | rfl
  · exact hrange (n := 'A'.toNat) (m := 'Z'.toNat) hupper.1 hupper.2 (by decide) (by decide)
  · exact hrange (n := 'a'.toNat) (m := 'z'.toNat) hlower.1 hlower.2 (by decide) (by decide)
  · exact hrange hdigit.1 hdigit.2 (by decide) (by decide)
  all_goals decide

theorem isBlank_scalarChar (hc : isScalarChar c = true) : Text.isBlank c = false ∧ c ≠ '/' := by
  have hrange := scalarChar_range hc
  constructor
  · simp only [Text.isBlank, Bool.or_eq_false_iff, Bool.and_eq_false_iff, decide_eq_false_iff_not,
      beq_eq_false_iff_ne]
    omega
  · rintro rfl
    exact hrange.2.2 rfl

theorem isBlank_isOpening (hc : isOpening c = true) : Text.isBlank c = false ∧ c ≠ '/' := by
  simp only [isOpening, Bool.or_eq_true, beq_iff_eq] at hc
  rcases hc with ((rfl | rfl) | rfl) | hc
  · decide
  · decide
  · decide
  · exact isBlank_scalarChar hc

/-! ### Parts of a text -/

theorem Lexical.drop (h : Lexical m (s ++ t)) : Lexical (m.run s) t := by
  induction s generalizing m with
  | nil => exact h
  | cons c s ih => exact ih h.2.2

theorem Lexical.replace (h : Lexical m (s ++ t)) (hrest : Lexical (m.run s) rest) : Lexical m (s ++ rest) := by
  induction s generalizing m with
  | nil => exact hrest
  | cons c s ih => exact ⟨h.1, fun _ _ => trivial, ih h.2.2 hrest⟩

theorem lexicalWith_blanks {bs : List Char} (hm : m.isOutside = true) (hbs : Blanks bs) :
    LexicalWith afterComma m (bs ++ s) ↔ LexicalWith afterComma .gap s := by
  induction bs generalizing m with
  | nil => exact lexicalWith_outside hm
  | cons b bs ih =>
    rw [List.cons_append, lexicalWith_blank hm (hbs b List.mem_cons_self),
      ih rfl fun c hc => hbs c (List.mem_cons_of_mem _ hc)]

/-! ### Pieces -/

theorem lexicalWith_comma (hcomma : afterComma s) (h : LexicalWith afterComma .gap s) :
    LexicalWith afterComma .gap (',' :: s) := ⟨.inr ⟨rfl, by decide⟩, fun _ _ => hcomma, h⟩

theorem lexicalWith_mark (hc : isMark c = true) (hcomma : c ≠ ',') (h : LexicalWith afterComma .gap s) :
    LexicalWith afterComma .gap (c :: s) := by
  have hplace : Mode.gap.after c = .gap ∧ Mode.gap.Admits c := by
    simp only [isMark, List.contains_eq_mem, List.mem_cons, List.not_mem_nil, or_false, decide_eq_true_eq] at hc
    rcases hc with rfl | rfl | rfl | rfl | rfl | rfl <;> exact ⟨rfl, .inr ⟨rfl, by decide⟩⟩
  exact ⟨hplace.2, fun _ hc => absurd hc hcomma, hplace.1.symm ▸ h⟩

theorem lexicalWith_scalar (htext : ∀ d ∈ text, isScalarChar d = true) (h : LexicalWith afterComma .gap rest) :
    LexicalWith afterComma .gap (text ++ rest) := by
  induction text with
  | nil => exact h
  | cons c text ih =>
    rw [List.forall_mem_cons] at htext
    refine ⟨.inr (isBlank_scalarChar htext.1), fun _ hc => ?_, ?_⟩
    · rw [hc] at htext
      cases htext.1
    · rw [Mode.after_scalarChar rfl htext.1, lexicalWith_outside rfl]
      exact ih htext.2

theorem lexicalWith_inString (htext : InString m text) (hm : m.isOutside = false)
    (h : LexicalWith afterComma .gap rest) : LexicalWith afterComma m (text ++ '"' :: rest) := by
  induction text generalizing m with
  | nil =>
    obtain rfl : m = .quoted := htext
    exact ⟨show 32 ≤ '"'.toNat by decide, nofun, (lexicalWith_outside (m := .bare) rfl).mpr h⟩
  | cons c text ih =>
    obtain ⟨hadmits, hinside, htext⟩ := htext
    exact ⟨hadmits, fun hout => absurd hout (by rw [hm]; decide), ih htext hinside⟩

theorem lexicalWith_string (htext : InString .quoted text) (h : LexicalWith afterComma .gap rest) :
    LexicalWith afterComma .gap ('"' :: (text ++ '"' :: rest)) :=
  ⟨.inr ⟨rfl, by decide⟩, fun _ hc => absurd hc (by decide), lexicalWith_inString htext rfl h⟩

/-! ### Whole texts -/

/-- What is read is lexical in front of what is lexical. -/
theorem Found.lexical (h : Found p s rest) (hrest : LexicalWith GoesOn .gap rest) : LexicalWith GoesOn .gap s := by
  have hmark {c : Char} {s rest : List Char} (hs : skipBlanks s = c :: rest) (hc : isMark c = true)
      (hcomma : c ≠ ',') (hrest : LexicalWith GoesOn .gap rest) : LexicalWith GoesOn .gap s := by
    rw [← lexicalWith_skipBlanks, hs]
    exact lexicalWith_mark hc hcomma hrest
  have hcomma {p : Part} {s more rest : List Char} (hs : skipBlanks s = ',' :: more)
      (hmore : Found p (skipBlanks more) rest) (h : LexicalWith GoesOn .gap (skipBlanks more)) :
      LexicalWith GoesOn .gap s := by
    rw [← lexicalWith_skipBlanks, hs]
    exact lexicalWith_comma hmore.opening (lexicalWith_skipBlanks.mp h)
  induction h with
  | string body =>
    obtain ⟨text, rfl, hin, -⟩ := string_local body
    exact lexicalWith_string hin hrest
  | scalar read ends =>
    obtain ⟨c, text, rfl, hown, -⟩ := scalar_local read ends
    exact lexicalWith_scalar hown hrest
  | emptyArray closed | emptyObject closed =>
    exact lexicalWith_mark rfl (by decide) (hmark closed rfl (by decide) hrest)
  | array each ih | object each ih =>
    exact lexicalWith_mark rfl (by decide) (lexicalWith_skipBlanks.mp (ih hrest))
  | lastItem item closed ih => exact ih (hmark closed rfl (by decide) hrest)
  | item item comma others ih ihOthers => exact ih (hcomma comma others (ihOthers hrest))
  | lastMember key colon item closed ih =>
    obtain ⟨text, rfl, hin, -⟩ := string_local key
    have hitem := ih (hmark closed rfl (by decide) hrest)
    exact lexicalWith_string hin (hmark colon rfl (by decide) (lexicalWith_skipBlanks.mp hitem))
  | member key colon item comma each ih ihEach =>
    obtain ⟨text, rfl, hin, -⟩ := string_local key
    have hitem := ih (hcomma comma each (ihEach hrest))
    exact lexicalWith_string hin (hmark colon rfl (by decide) (lexicalWith_skipBlanks.mp hitem))

theorem lexical_of_read (h : Json.read s = .ok v) : LexicalWith GoesOn .gap s := by
  obtain ⟨-, rest, hfound, hleft⟩ := read_eq_ok.mp h
  refine lexicalWith_skipBlanks.mp (hfound.lexical (lexicalWith_skipBlanks.mp ?_))
  rw [hleft]
  rfl

/-- Other blanks change nothing of it. -/
theorem Respaced.lexical (h : Respaced m s t) (hs : Lexical m s) : Lexical m t := by
  induction h with
  | nil => exact hs
  | keep others ih => exact ⟨hs.1, fun _ _ => trivial, ih hs.2.2⟩
  | fewer outside loose blank others ih =>
    exact (lexicalWith_outside outside).mpr (ih ((lexicalWith_blank outside blank).mp hs))
  | more outside loose blank others ih =>
    exact (lexicalWith_blank outside blank).mpr (ih ((lexicalWith_outside outside).mp hs))

end

end Highlighter.Json

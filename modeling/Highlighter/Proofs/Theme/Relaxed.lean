import Highlighter.Proofs.Json.Spacing
import Highlighter.Proofs.Text.Encoding
import Highlighter.Text.Lines
import Highlighter.Theme.Loading

/-! Theme files with comments and commas. Whatever lines of comments and commas before closing brackets are
put into a JSON text, the document of the text is read from it, unless a string holds a comma that looks
like one of those: that one is taken out of the string. A comma that was put in is taken out again, and what
stays of a text with lines of comments is the text with other blanks, which change nothing. -/

namespace Highlighter.Theme

open Highlighter.Json

/-- One comma is put into a text: somewhere between a closing bracket and the last character before it
that is no blank, which is neither an opening bracket nor a comma. -/
inductive OneComma : List Char → List Char → Prop
  | intro {front back bs cs : List Char} {c closing : Char}
    (outside : (Mode.gap.run (front ++ [c])).isOutside = true) (visible : Text.isBlank c = false)
    (filled : c ≠ '[' ∧ c ≠ '{' ∧ c ≠ ',') (before : Blanks bs) (after : Blanks cs)
    (closes : closing = '}' ∨ closing = ']') :
    OneComma (front ++ c :: (bs ++ (cs ++ closing :: back))) (front ++ c :: (bs ++ ',' :: (cs ++ closing :: back)))

/-- A string of the text holds a comma that nothing but blanks parts from a closing bracket. -/
def LooseInString (s : List Char) : Prop :=
  ∃ front bs closing back, s = front ++ ',' :: (bs ++ closing :: back) ∧
    (Mode.gap.run front).isOutside = false ∧ (∀ b ∈ bs, Text.isBlank b = true) ∧
    (closing = '}' ∨ closing = ']')

section
variable {m : Mode} {b c closing : Char} {s t u front back bs cs rest : List Char}

theorem isBlank_of_isJsonBlank (hb : isJsonBlank b = true) : Text.isBlank b = true := by
  simp only [isJsonBlank, Bool.or_eq_true, beq_iff_eq] at hb
  rcases hb with ((rfl | rfl) | rfl) | rfl <;> decide

/-! ### What closes next -/

theorem closesNext_blank (hb : Text.isBlank b = true) : closesNext (b :: s) = closesNext s := by
  rw [closesNext, closesNext, Text.trimLeft, Text.trimLeft, List.dropWhile_cons_of_pos hb]

theorem closesNext_visible (hc : Text.isBlank c = false) : closesNext (c :: s) = (c == '}' || c == ']') := by
  rw [closesNext, Text.trimLeft, List.dropWhile_cons_of_neg (by simp [hc])]

theorem closesNext_closing (hbs : ∀ b ∈ bs, Text.isBlank b = true) (hc : closing = '}' ∨ closing = ']') :
    closesNext (bs ++ closing :: back) = true := by
  induction bs with
  | nil =>
    rw [List.nil_append]
    rcases hc with rfl | rfl <;> exact closesNext_visible rfl
  | cons b bs ih =>
    rw [List.forall_mem_cons] at hbs
    rw [List.cons_append, closesNext_blank hbs.1, ih hbs.2]

theorem closing_of_closesNext (h : closesNext s = true) : ∃ bs closing back, s = bs ++ closing :: back ∧
    (∀ b ∈ bs, Text.isBlank b = true) ∧ (closing = '}' ∨ closing = ']') := by
  induction s with
  | nil => cases h
  | cons c s ih =>
    cases hc : Text.isBlank c with
    | true =>
      rw [closesNext_blank hc] at h
      obtain ⟨bs, closing, back, rfl, hbs, hclosing⟩ := ih h
      exact ⟨c :: bs, closing, back, rfl, List.forall_mem_cons.mpr ⟨hc, hbs⟩, hclosing⟩
    | false =>
      rw [closesNext_visible hc] at h
      exact ⟨[], c, s, rfl, by simp, by simpa using h⟩

/-- What comes after a character that is no blank does not matter. -/
theorem closesNext_append (hc : Text.isBlank c = false) :
    closesNext (front ++ c :: s) = closesNext (front ++ c :: t) := by
  induction front with
  | nil => rw [List.nil_append, List.nil_append, closesNext_visible hc, closesNext_visible hc]
  | cons d front ih =>
    rw [List.cons_append, List.cons_append]
    cases hd : Text.isBlank d with
    | true => rw [closesNext_blank hd, closesNext_blank hd, ih]
    | false => rw [closesNext_visible hd, closesNext_visible hd]

theorem closesNext_of_goesOn (h : GoesOn s) : closesNext s = false := by
  obtain ⟨c, cs, hc, hopening⟩ := h
  induction s with
  | nil => cases hc
  | cons d s ih =>
    by_cases hd : isJsonBlank d = true
    · rw [closesNext_blank (isBlank_of_isJsonBlank hd)]
      exact ih (by rwa [skipBlanks, List.dropWhile_cons_of_pos hd] at hc)
    · rw [skipBlanks_cons (by simpa using hd)] at hc
      obtain ⟨rfl, -⟩ := List.cons.inj hc
      rw [closesNext_visible (isBlank_isOpening hopening).1]
      simp [isOpening_ne hopening (d := '}') rfl, isOpening_ne hopening (d := ']') rfl]

/-! ### Taking commas out -/

theorem stripCommas_loose (h : closesNext s = true) : stripCommas (',' :: s) = stripCommas s := by
  simp [stripCommas, h]

theorem stripCommas_kept (h : c = ',' → closesNext s = false) :
    stripCommas (c :: s) = c :: stripCommas s := by
  rw [stripCommas, if_neg]
  intro hloose
  rw [Bool.and_eq_true, beq_iff_eq] at hloose
  rw [h hloose.1] at hloose
  cases hloose.2

theorem stripCommas_blanks (hbs : Blanks bs) : stripCommas (bs ++ s) = bs ++ stripCommas s := by
  induction bs with
  | nil => rfl
  | cons b bs ih =>
    have hcomma := ne_comma_of_isJsonBlank (hbs b List.mem_cons_self)
    rw [List.cons_append, stripCommas_kept (absurd · hcomma), ih fun c hc => hbs c (List.mem_cons_of_mem _ hc),
      List.cons_append]

theorem stripCommas_put (hc : Text.isBlank c = false) (hcomma : c ≠ ',') (hbs : Blanks bs)
    (hloose : closesNext s = true) :
    stripCommas (front ++ c :: (bs ++ ',' :: s)) = stripCommas (front ++ c :: (bs ++ s)) := by
  induction front with
  | nil =>
    rw [List.nil_append, List.nil_append, stripCommas_kept (absurd · hcomma),
      stripCommas_kept (absurd · hcomma), stripCommas_blanks hbs, stripCommas_blanks hbs,
      stripCommas_loose hloose]
  | cons d front ih =>
    have hnext : closesNext (front ++ c :: (bs ++ ',' :: s)) = closesNext (front ++ c :: (bs ++ s)) :=
      closesNext_append hc
    rw [List.cons_append, List.cons_append, stripCommas, stripCommas, hnext, ih]

/-- A comma that was put in is taken out. -/
theorem OneComma.stripCommas (h : OneComma s t) : stripCommas t = stripCommas s := by
  cases h with
  | intro outside visible filled before after closes =>
    exact stripCommas_put visible filled.2.2 before
      (closesNext_closing (fun b hb => isBlank_of_isJsonBlank (after b hb)) closes)

theorem OneComma.lexical (h : OneComma s t) (hs : Lexical .gap s) : Lexical .gap t := by
  cases h with
  | @intro front back bs cs c closing outside visible filled before after closes =>
    rw [List.append_cons] at hs ⊢
    have hrest := (lexicalWith_blanks outside before).mp hs.drop
    exact hs.replace ((lexicalWith_blanks outside before).mpr (lexicalWith_comma trivial hrest))

/-- In a JSON text there is nothing to be taken out but commas in strings. -/
theorem stripCommas_eq_self (hs : LexicalWith GoesOn m s)
    (hstrings : ∀ front bs closing back, s = front ++ ',' :: (bs ++ closing :: back) →
      (m.run front).isOutside = false → (∀ b ∈ bs, Text.isBlank b = true) →
      ¬ (closing = '}' ∨ closing = ']')) : stripCommas s = s := by
  induction s generalizing m with
  | nil => rfl
  | cons c s ih =>
    rw [stripCommas_kept, ih hs.2.2]
    · intro front bs closing back hs
      exact hstrings (c :: front) bs closing back (by rw [hs, List.cons_append])
    · rintro rfl
      cases hm : m.isOutside with
      | true => exact closesNext_of_goesOn (hs.2.1 hm rfl)
      | false =>
        by_contra hcloses
        rw [Bool.not_eq_false] at hcloses
        obtain ⟨bs, closing, back, rfl, hbs, hclosing⟩ := closing_of_closesNext hcloses
        exact hstrings [] bs closing back rfl hm hbs hclosing

/-! ### Other blanks -/

theorem closesNext_respaced (h : Respaced m s t) : closesNext s = closesNext t := by
  induction h with
  | nil => rfl
  | @keep m c s t others ih =>
    cases hc : Text.isBlank c with
    | true => rw [closesNext_blank hc, closesNext_blank hc, ih]
    | false => rw [closesNext_visible hc, closesNext_visible hc]
  | fewer outside loose blank others ih => rw [closesNext_blank (isBlank_of_isJsonBlank blank), ih]
  | more outside loose blank others ih => rw [closesNext_blank (isBlank_of_isJsonBlank blank), ih]

/-- Where a bracket closes next, blanks may come and go. -/
theorem ends_of_closesNext (hs : Lexical .gap s) (h : closesNext s = true) : Json.Ends (stripCommas s) := by
  cases s with
  | nil => cases h
  | cons c s =>
    rcases hs.1 with hblank | ⟨hvisible, -⟩
    · rw [stripCommas_kept (absurd · (ne_comma_of_isJsonBlank hblank))]
      simp [Json.Ends, hblank]
    · rw [closesNext_visible hvisible] at h
      have hclosing : c = '}' ∨ c = ']' := by simpa using h
      rw [stripCommas_kept (by rcases hclosing with rfl | rfl <;> simp)]
      exact ends_cons (.inr hclosing.symm)

theorem ends_stripCommas (hs : Lexical .gap s) (h : Json.Ends s) : Json.Ends (stripCommas s) := by
  cases s with
  | nil => exact h
  | cons c s =>
    rw [stripCommas]
    split
    · rename_i hloose
      rw [Bool.and_eq_true, beq_iff_eq] at hloose
      obtain ⟨rfl, hcloses⟩ := hloose
      exact ends_of_closesNext hs.2.2 hcloses
    · simpa [Json.Ends] using h

/-- Texts that differ in blanks still do after commas are taken out. -/
theorem stripCommas_respaced (h : Respaced m s t) (hs : Lexical m s) :
    Respaced m (stripCommas s) (stripCommas t) := by
  have ht := h.lexical hs
  induction h with
  | nil => exact .nil
  | @keep m c s t others ih =>
    have hothers := ih hs.2.2 ht.2.2
    rw [stripCommas, stripCommas, ← closesNext_respaced others]
    split
    · rename_i hloose
      rw [Bool.and_eq_true, beq_iff_eq] at hloose
      obtain ⟨rfl, hcloses⟩ := hloose
      cases m with
      | gap | bare =>
        exact hothers.tighten rfl (ends_of_closesNext hs.2.2 hcloses)
          (ends_of_closesNext ht.2.2 (closesNext_respaced others ▸ hcloses))
      | quoted => exact hothers
      | escaped => exact absurd rfl hs.1.2
    · exact .keep hothers
  | @fewer m b s t outside loose blank others ih =>
    rw [stripCommas_kept (absurd · (ne_comma_of_isJsonBlank blank))]
    have hgap := (lexicalWith_outside outside).mp ht
    exact .fewer outside (loose.imp_right (ends_stripCommas hgap)) blank
      (ih ((lexicalWith_blank outside blank).mp hs) hgap)
  | @more m b s t outside loose blank others ih =>
    rw [stripCommas_kept (absurd · (ne_comma_of_isJsonBlank blank))]
    have hgap := (lexicalWith_outside outside).mp hs
    exact .more outside (loose.imp_right (ends_stripCommas hgap)) blank
      (ih hgap ((lexicalWith_blank outside blank).mp ht))

end

/-! ### Lines of comments -/

/-- Lines that hold only a comment are put among lines. -/
inductive Commented : List (List Char) → List (List Char) → Prop
  | nil : Commented [] []
  | line {line : List Char} {lines others : List (List Char)} (rest : Commented lines others) :
    Commented (line :: lines) (line :: others)
  | comment {bs body : List Char} {lines others : List (List Char)} (blank : ∀ b ∈ bs, Text.isBlank b = true)
    (rest : Commented lines others) : Commented lines ((bs ++ '/' :: '/' :: body) :: others)

/-- Lines with a line feed between them. -/
def joined (lines : List (List Char)) : List Char := ['\n'].intercalate lines

section
variable {m : Mode} {s t line body bs : List Char} {lines others : List (List Char)} {c : Char}

theorem joined_cons (hlines : lines ≠ []) : joined (line :: lines) = line ++ '\n' :: joined lines := by
  obtain ⟨next, rest, rfl⟩ := List.exists_cons_of_ne_nil hlines
  rw [joined, List.intercalate_cons_cons, List.append_assoc]
  rfl

theorem joined_singleton : joined [line] = line := List.intercalate_singleton

theorem Commented.eq_nil (h : Commented lines []) : lines = [] := by
  cases h
  rfl

/-! ### The reader of comments -/

theorem startsComment_blank (hc : Text.isBlank c = true) : startsComment (c :: s) = startsComment s := by
  rw [startsComment, startsComment, Text.trimLeft, Text.trimLeft, List.dropWhile_cons_of_pos hc]

theorem startsComment_visible (hc : Text.isBlank c = false) (hslash : c ≠ '/') :
    startsComment (c :: s) = false := by
  rw [startsComment, Text.trimLeft, List.dropWhile_cons_of_neg (by simp [hc])]
  simp [List.isPrefixOf, hslash.symm]

theorem ne_slash_of_isBlank (hc : Text.isBlank c = true) : c ≠ '/' := by
  rintro rfl
  cases hc

/-- Blanks before a comment and the two slashes are passed over. -/
theorem stripComments_blanksBefore (hbs : ∀ b ∈ bs, Text.isBlank b = true) :
    stripComments .blanksBefore (bs ++ '/' :: '/' :: s) = stripComments .comment s := by
  induction bs with
  | nil => rfl
  | cons b bs ih =>
    rw [List.forall_mem_cons] at hbs
    rw [List.cons_append, stripComments, if_neg (by simpa using ne_slash_of_isBlank hbs.1), ih hbs.2]

theorem startsComment_slashes (hbs : ∀ b ∈ bs, Text.isBlank b = true) :
    startsComment (bs ++ '/' :: '/' :: s) = true := by
  induction bs with
  | nil => rfl
  | cons b bs ih =>
    rw [List.forall_mem_cons] at hbs
    rw [List.cons_append, startsComment_blank hbs.1, ih hbs.2]

/-- A comment at the front of a line is left out from the blanks before it on. -/
theorem stripComments_slashes (hbs : ∀ b ∈ bs, Text.isBlank b = true) :
    stripComments (.text true) (bs ++ '/' :: '/' :: s) = stripComments .comment s := by
  have hstarts := startsComment_slashes (s := s) hbs
  cases bs with
  | nil =>
    rw [List.nil_append] at hstarts ⊢
    rw [stripComments, hstarts]
    rfl
  | cons b bs =>
    rw [List.forall_mem_cons] at hbs
    rw [List.cons_append] at hstarts ⊢
    rw [stripComments, hstarts, Bool.true_and, if_pos rfl, if_neg (by simpa using ne_slash_of_isBlank hbs.1),
      stripComments_blanksBefore hbs.2]

theorem slashes_of_startsComment (h : startsComment s = true) :
    ∃ bs rest, s = bs ++ '/' :: '/' :: rest ∧ ∀ b ∈ bs, Text.isBlank b = true := by
  induction s with
  | nil => cases h
  | cons c s ih =>
    cases hc : Text.isBlank c with
    | true =>
      rw [startsComment_blank hc] at h
      obtain ⟨bs, rest, rfl, hbs⟩ := ih h
      exact ⟨c :: bs, rest, rfl, List.forall_mem_cons.mpr ⟨hc, hbs⟩⟩
    | false =>
      rw [startsComment, Text.trimLeft, List.dropWhile_cons_of_neg (by simp [hc])] at h
      obtain ⟨rest, hrest⟩ := List.isPrefixOf_iff_prefix.mp h
      exact ⟨[], rest, hrest.symm, by simp⟩

/-- Blanks before a comment go with it. -/
theorem stripComments_blanks (hbs : ∀ b ∈ bs, Text.isBlank b = true) (h : startsComment s = true) :
    stripComments (.text true) (bs ++ s) = stripComments (.text true) s := by
  obtain ⟨cs, rest, rfl, hcs⟩ := slashes_of_startsComment h
  rw [stripComments_slashes hcs, ← List.append_assoc, stripComments_slashes]
  exact fun b hb => (List.mem_append.mp hb).elim (hbs b) (hcs b)

theorem stripComments_comment (hbody : '\n' ∉ body) : stripComments .comment body = [] ∧
    stripComments .comment (body ++ '\n' :: s) = '\n' :: stripComments (.text true) s := by
  induction body with
  | nil => exact ⟨rfl, rfl⟩
  | cons c body ih =>
    rw [List.mem_cons, not_or] at hbody
    have hc : (c == '\n') = false := by simpa using Ne.symm hbody.1
    obtain ⟨hend, hline⟩ := ih hbody.2
    constructor
    · rw [stripComments, hc, if_neg (by decide), hend]
    · rw [List.cons_append, stripComments, hc, if_neg (by decide), hline]

/-- The rest of a line stays. -/
theorem stripComments_text (hline : '\n' ∉ line) : stripComments (.text false) line = line ∧
    stripComments (.text false) (line ++ '\n' :: s) = line ++ '\n' :: stripComments (.text true) s := by
  induction line with
  | nil => exact ⟨rfl, rfl⟩
  | cons c line ih =>
    rw [List.mem_cons, not_or] at hline
    have hc : (c == '\n') = false := by simpa using Ne.symm hline.1
    obtain ⟨hend, hmore⟩ := ih hline.2
    constructor
    · rw [stripComments, hc, Bool.false_and, if_neg (by decide), hend]
    · rw [List.cons_append, stripComments, hc, Bool.false_and, if_neg (by decide), hmore, List.cons_append]

/-- A line that no comment starts in stays. -/
theorem stripComments_line (hline : '\n' ∉ line) :
    (startsComment line = false → stripComments (.text true) line = line) ∧
    (startsComment (line ++ '\n' :: s) = false →
      stripComments (.text true) (line ++ '\n' :: s) = line ++ '\n' :: stripComments (.text true) s) := by
  cases line with
  | nil =>
    refine ⟨fun _ => rfl, fun hstarts => ?_⟩
    rw [List.nil_append] at hstarts ⊢
    rw [stripComments, hstarts]
    rfl
  | cons c line =>
    rw [List.mem_cons, not_or] at hline
    have hc : (c == '\n') = false := by simpa using Ne.symm hline.1
    obtain ⟨hend, hmore⟩ := stripComments_text (s := s) hline.2
    constructor
    · intro hstarts
      rw [stripComments, hstarts, Bool.and_false, if_neg (by decide), hc, hend]
    · intro hstarts
      rw [List.cons_append] at hstarts ⊢
      rw [stripComments, hstarts, Bool.and_false, if_neg (by decide), hc, hmore, List.cons_append]

/-! ### Lines of a JSON text -/

/-- Where a comment starts after a piece of a JSON text, the piece is blank. -/
theorem blanks_of_startsComment (hlexical : Lexical .gap (line ++ s)) (h : startsComment (line ++ t) = true) :
    Blanks line ∧ startsComment t = true := by
  induction line with
  | nil => exact ⟨blanks_nil, h⟩
  | cons c line ih =>
    rcases hlexical.1 with hblank | ⟨hvisible, hslash⟩
    · have hrest := (lexicalWith_blank rfl hblank).mp hlexical
      rw [List.cons_append, startsComment_blank (isBlank_of_isJsonBlank hblank)] at h
      obtain ⟨hline, ht⟩ := ih hrest h
      refine ⟨fun d hd => ?_, ht⟩
      rcases List.mem_cons.mp hd with rfl | hd
      · exact hblank
      · exact hline d hd
    · rw [List.cons_append, startsComment_visible hvisible hslash] at h
      cases h

theorem respaced_blanks (hbs : Blanks bs) (h : Respaced .gap s t) : Respaced .gap (bs ++ s) t := by
  induction bs with
  | nil => exact h
  | cons b bs ih =>
    exact .fewer rfl (.inl rfl) (hbs b List.mem_cons_self) (ih fun c hc => hbs c (List.mem_cons_of_mem _ hc))

theorem respaced_append (h : Respaced (m.run line) s t) : Respaced m (line ++ s) (line ++ t) := by
  induction line generalizing m with
  | nil => exact h
  | cons c line ih => exact .keep (ih h)

/-- A control character stands outside strings. -/
theorem outside_of_control (hc : c.toNat < 32) (h : Lexical m (c :: s)) : m.isOutside = true := by
  cases m with
  | gap | bare => rfl
  | quoted => exact absurd hc (Nat.not_lt.mpr h.1)
  | escaped => exact absurd hc (Nat.not_lt.mpr h.1.1)

/-- A line that is followed by comments only, or by other lines and comments. -/
theorem respaced_line (hlexical : Lexical .gap (joined (line :: lines)))
    (hrest : Lexical .gap (joined lines) → Respaced .gap (joined lines) t) :
    Respaced .gap (joined (line :: lines)) (line ++ '\n' :: t) := by
  by_cases hnil : lines = []
  · subst hnil
    rw [joined_singleton] at hlexical ⊢
    have hend : (Mode.gap.run line).isOutside = true := Lexical.drop (t := []) (by rwa [List.append_nil])
    have hfeed : Respaced (Mode.gap.run line) [] ('\n' :: t) :=
      .more hend (.inr ends_nil) rfl (hrest rfl)
    simpa using respaced_append hfeed
  · rw [joined_cons hnil] at hlexical ⊢
    have hfeed := hlexical.drop
    have hend := outside_of_control (by decide) hfeed
    refine respaced_append (.keep ?_)
    rw [Mode.after_blank hend rfl]
    exact hrest ((lexicalWith_blank hend rfl).mp hfeed)

/-- A blank line before a comment goes with it. -/
theorem respaced_blankLine (hline : Blanks line) (hlexical : Lexical .gap (joined (line :: lines)))
    (hrest : Lexical .gap (joined lines) → Respaced .gap (joined lines) t) :
    Respaced .gap (joined (line :: lines)) t := by
  by_cases hnil : lines = []
  · subst hnil
    rw [joined_singleton, ← List.append_nil line]
    exact respaced_blanks hline (hrest rfl)
  · rw [joined_cons hnil] at hlexical ⊢
    refine respaced_blanks hline (.fewer rfl (.inl rfl) rfl (hrest ?_))
    exact (lexicalWith_blank rfl rfl).mp ((lexicalWith_blanks rfl hline).mp hlexical)

/-- What stays of the lines of a JSON text with comments among them is the text with other blanks. -/
theorem respaced_stripComments (h : Commented lines others) (hfeeds : ∀ line ∈ others, '\n' ∉ line)
    (hlexical : Lexical .gap (joined lines)) :
    Respaced .gap (joined lines) (stripComments (.text true) (joined others)) := by
  induction h with
  | nil => exact .nil
  | @line line lines others rest ih =>
    rw [List.forall_mem_cons] at hfeeds
    have hfront : ∃ u, joined (line :: lines) = line ++ u := by
      by_cases hnil : lines = []
      · exact ⟨[], by rw [hnil, joined_singleton, List.append_nil]⟩
      · exact ⟨_, joined_cons hnil⟩
    obtain ⟨u, hu⟩ := hfront
    by_cases hothers : others = []
    · subst hothers
      obtain rfl := rest.eq_nil
      rw [joined_singleton] at hlexical ⊢
      cases hstarts : startsComment line with
      | true =>
        rw [← List.append_nil line] at hlexical hstarts
        cases (blanks_of_startsComment hlexical hstarts).2
      | false =>
        rw [(stripComments_line (s := []) hfeeds.1).1 hstarts]
        exact .refl _ _
    · rw [joined_cons hothers]
      cases hstarts : startsComment (line ++ '\n' :: joined others) with
      | true =>
        rw [hu] at hlexical
        obtain ⟨hblanks, hnext⟩ := blanks_of_startsComment hlexical hstarts
        rw [startsComment_blank rfl] at hnext
        have hgone : ∀ b ∈ line ++ ['\n'], Text.isBlank b = true := by
          intro b hb
          rcases List.mem_append.mp hb with hb | hb
          · exact isBlank_of_isJsonBlank (hblanks b hb)
          · rw [List.mem_singleton.mp hb]
            rfl
        rw [List.append_cons, stripComments_blanks hgone hnext]
        exact respaced_blankLine hblanks (hu ▸ hlexical) (ih hfeeds.2)
      | false =>
        rw [(stripComments_line hfeeds.1).2 hstarts]
        exact respaced_line hlexical (ih hfeeds.2)
  | @comment bs body lines others blank rest ih =>
    rw [List.forall_mem_cons] at hfeeds
    have hbody : '\n' ∉ body := fun hmem => hfeeds.1 (by simp [hmem])
    by_cases hothers : others = []
    · subst hothers
      obtain rfl := rest.eq_nil
      rw [joined_singleton, stripComments_slashes blank, (stripComments_comment (s := []) hbody).1]
      exact .nil
    · have hline : joined ((bs ++ '/' :: '/' :: body) :: others) =
          bs ++ '/' :: '/' :: (body ++ '\n' :: joined others) := by
        rw [joined_cons hothers]
        simp
      rw [hline, stripComments_slashes blank, (stripComments_comment hbody).2]
      exact .more rfl (.inl rfl) rfl (ih hfeeds.2 hlexical)

end

/-! ### Whole files -/

open Highlighter.Files (Disk Route Tree)
open Relation (ReflTransGen)

section
variable {m : Mode} {s t r : List Char} {disk : Disk} {path : Route} {name : Text.Bytes} {members d : Members}
  {v : Value}

/-- Uniform line ends are other blanks. -/
theorem respaced_unifyFrom {returned : Bool} (hreturned : returned = true → m = .gap) (h : Lexical m s) :
    Respaced m s (Text.unifyFrom '\r' '\n' returned s) := by
  fun_induction Text.unifyFrom '\r' '\n' returned s generalizing m with
  | case1 => exact .nil
  | case2 returned c rest hfeed ih =>
    simp only [Bool.and_eq_true, beq_iff_eq] at hfeed
    obtain ⟨rfl, rfl⟩ := hfeed
    obtain rfl := hreturned rfl
    exact .fewer rfl (.inl rfl) rfl (ih nofun ((lexicalWith_blank rfl rfl).mp h))
  | case3 returned c rest _ hret ih =>
    obtain rfl := beq_iff_eq.mp hret
    have hm := outside_of_control (by decide) h
    have hrest := ih (fun _ => rfl) ((lexicalWith_blank hm rfl).mp h)
    exact .fewer hm (.inr (by simp [Json.Ends, isJsonBlank])) rfl (.more rfl (.inl rfl) rfl hrest)
  | case4 returned c rest _ _ ih => exact .keep (ih nofun h.2.2)

theorem respaced_unifyLineEnds (h : Lexical m s) : Respaced m s (Text.unifyLineEnds s) :=
  respaced_unifyFrom nofun h

theorem readDocument_eq_ok (hname : path.toStr.name = .ok name)
    (hfile : disk.read name = .ok (Text.encodeUtf8 r)) :
    readDocument disk path = .ok d ↔ Json.read (plainJson (Text.unifyLineEnds r)) = .ok (.object d) := by
  have htext : readText disk path = .ok (some (Text.unifyLineEnds r)) := by
    unfold readText
    rw [hname]
    dsimp only [bind, Except.bind, Except.mapError]
    rw [hfile]
    dsimp only
    rw [Text.decodeUtf8?_encodeUtf8]
    rfl
  unfold readDocument
  rw [htext]
  dsimp only [bind, Except.bind]
  cases Json.read (plainJson (Text.unifyLineEnds r)) with
  | error e => cases e <;> simp
  | ok v => cases v <;> simp [pure, Except.pure]

theorem stripCommas_oneCommas (h : ReflTransGen OneComma s t) (hs : Lexical .gap s) :
    stripCommas t = stripCommas s ∧ Lexical .gap t := by
  induction h with
  | refl => exact ⟨rfl, hs⟩
  | tail _ hone ih => exact ⟨hone.stripCommas.trans ih.1, hone.lexical ih.2⟩

/-- A text with lines of comments is read as the text with the commas taken out. -/
theorem read_plainJson (ht : Lexical .gap t) (h : Commented (Text.linesOf t) (Text.linesOf r)) :
    Json.read (plainJson (Text.unifyLineEnds r)) = .ok v ↔ Json.read (stripCommas t) = .ok v := by
  have hjoined (s : List Char) : joined (Text.linesOf s) = Text.unifyLineEnds s :=
    Text.intercalate_linesOf s
  have hunified := respaced_unifyLineEnds ht
  have hlexical := hunified.lexical ht
  have hcomments := respaced_stripComments h
    (fun line hline => (Text.not_mem_linesOf hline).2) (by rwa [hjoined])
  rw [hjoined, hjoined] at hcomments
  exact ((stripCommas_respaced hunified ht).read_iff.trans
    (stripCommas_respaced hcomments hlexical).read_iff).symm

/-- A theme file that is a JSON object but for lines of comments and commas before closing brackets is read
as the object would be without the commas that are taken out of it; and these are in strings, so if no
string has such a comma, it is read as the object. -/
theorem readDocument_relaxed (hs : Json.read s = .ok (.object members)) (hcommas : ReflTransGen OneComma s t)
    (hcomments : Commented (Text.linesOf t) (Text.linesOf r))
    (hname : path.toStr.name = .ok name) (hfile : disk.read name = .ok (Text.encodeUtf8 r)) :
    (∀ d, readDocument disk path = .ok d ↔ Json.read (stripCommas s) = .ok (.object d)) ∧
    (¬ LooseInString s → readDocument disk path = .ok members) := by
  have hlexical := lexical_of_read hs
  obtain ⟨hstripped, ht⟩ := stripCommas_oneCommas hcommas hlexical.lexical
  have hread (d : Members) :
      readDocument disk path = .ok d ↔ Json.read (stripCommas s) = .ok (.object d) := by
    rw [readDocument_eq_ok hname hfile, read_plainJson ht hcomments, hstripped]
  refine ⟨hread, fun hloose => (hread members).mpr ?_⟩
  rw [stripCommas_eq_self hlexical, hs]
  intro front bs closing back hsplit hinside hbs hcloses
  exact hloose ⟨front, bs, closing, back, hsplit, hinside, hbs, hcloses⟩

end

/-! ### Two files -/

def themeFile (text : List Char) : Disk := Tree.disk ⟨[(["t.json"], .file (Text.encodeUtf8 text))]⟩

def themePath : Route := ⟨"/", ["t.json"]⟩

def themeName : Text.Bytes := Text.encodeUtf8 "/t.json".toList

/-- An object with an array, in three lines. -/
def plainObject : List Char := "\x7b\n\"a\": [\"]\"]\n\x7d".toList

/-- The same with a comma after the item and one after the array, and with comments before it and in it. -/
def relaxedObject : List Char := "// ,\n\x7b\n\"a\": [\"]\",],\n  // \x7d\n\x7d".toList

theorem themePath_name : themePath.toStr.name = .ok themeName := rfl

theorem readDocument_relaxed_object : readDocument (themeFile relaxedObject) themePath =
    .ok [("a", .array [.string "]"])] := by
  have hread : Json.read plainObject = .ok (.object [("a", .array [.string "]"])]) := by cbv
  have hitem : OneComma plainObject "\x7b\n\"a\": [\"]\",]\n\x7d".toList :=
    @OneComma.intro "\x7b\n\"a\": [\"]".toList "\n\x7d".toList [] [] '"' ']' (by decide) (by decide) (by decide)
      blanks_nil blanks_nil (.inr rfl)
  have harray : OneComma "\x7b\n\"a\": [\"]\",]\n\x7d".toList "\x7b\n\"a\": [\"]\",],\n\x7d".toList :=
    @OneComma.intro "\x7b\n\"a\": [\"]\",".toList [] [] ['\n'] ']' '\x7d' (by decide) (by decide) (by decide)
      blanks_nil (by simp [Blanks, isJsonBlank]) (.inl rfl)
  have hcomments : Commented (Text.linesOf "\x7b\n\"a\": [\"]\",],\n\x7d".toList)
      (Text.linesOf relaxedObject) :=
    @Commented.comment [] " ,".toList _ _ (by simp) (.line (.line
      (@Commented.comment "  ".toList " \x7d".toList _ _ (List.all_eq_true.mp rfl) (.line .nil))))
  refine (readDocument_relaxed hread (.tail (.single hitem) harray) hcomments themePath_name rfl).2 ?_
  rintro ⟨front, bs, closing, back, hsplit, -⟩
  have hcomma : ',' ∈ plainObject := by
    rw [hsplit]
    simp
  exact absurd hcomma (by decide)

/-- A theme whose name has a comma and a bracket. -/
def namedWithComma : List Char := "\x7b\"name\": \"a,]\"\x7d".toList

/-- The comma in the name is taken out. -/
theorem readDocument_namedWithComma :
    Json.read namedWithComma = .ok (.object [("name", .string "a,]")]) ∧
    ReflTransGen OneComma namedWithComma namedWithComma ∧
    Commented (Text.linesOf namedWithComma) (Text.linesOf namedWithComma) ∧
    themePath.toStr.name = .ok themeName ∧
    (themeFile namedWithComma).read themeName = .ok (Text.encodeUtf8 namedWithComma) ∧
    readDocument (themeFile namedWithComma) themePath = .ok [("name", .string "a]")] ∧
    readDocument (themeFile namedWithComma) themePath ≠ .ok [("name", .string "a,]")] := by
  have hread : readDocument (themeFile namedWithComma) themePath = .ok [("name", .string "a]")] := by cbv
  refine ⟨by cbv, .refl, .line .nil, rfl, rfl, hread, ?_⟩
  rw [hread]
  simp

end Highlighter.Theme

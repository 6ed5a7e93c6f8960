import Highlighter.Proofs.Protocol.Receiving
import Highlighter.Proofs.Text.Numerals
import Mathlib.Data.Option.Basic

/-! Reading a frame takes its header block with the break that ends it, and as many bytes of what follows as the
header announces: neither fewer nor more, whatever they are and in whatever pieces they come. A number that no
read can ask for is refused, and nothing but the header block is taken. -/

namespace Highlighter.Protocol

open Highlighter.Text (Bytes)

/-- A header line that gives a value for the length; the name of the field may be in any case. -/
def Gives (line value : Bytes) : Prop :=
  ∃ name, name.map lowerByte = Text.encodeUtf8 "content-length".toList ∧ line = name ++ 58 :: value

/-- Bytes that no line break divides. -/
def IsLine (line : Bytes) : Prop := ¬ lineBreak <:+: line

section
variable {b : UInt8} {bs line value header before rest : Bytes} {lines : List Bytes}

theorem headerLines_ne_nil (header : Bytes) : headerLines header ≠ [] := by
  unfold headerLines
  split
  · exact List.cons_ne_nil _ _
  · exact List.cons_ne_nil _ _
  · split <;> exact List.cons_ne_nil _ _

theorem headerLines_break (rest : Bytes) : headerLines (lineBreak ++ rest) = [] :: headerLines rest := rfl

theorem headerLines_cons (h : ¬ lineBreak <+: b :: rest) :
    ∃ line lines, headerLines rest = line :: lines ∧ headerLines (b :: rest) = (b :: line) :: lines := by
  obtain ⟨line, lines, hrest⟩ := List.exists_cons_of_ne_nil (headerLines_ne_nil rest)
  refine ⟨line, lines, hrest, ?_⟩
  rw [headerLines, hrest]
  rintro rest' rfl rfl
  exact h ⟨rest', rfl⟩

theorem IsLine.tail (h : IsLine (b :: line)) : IsLine line := fun hin =>
  h (hin.trans (List.suffix_cons b line).isInfix)

theorem headerLines_of_isLine (h : IsLine line) : headerLines line = [line] := by
  induction line with
  | nil => rfl
  | cons b line ih =>
    obtain ⟨first, others, hrest, hcons⟩ := headerLines_cons fun hstarts => h hstarts.isInfix
    rw [ih h.tail] at hrest
    cases hrest
    exact hcons

theorem headerLines_append (h : IsLine line) :
    headerLines (line ++ lineBreak ++ rest) = line :: headerLines rest := by
  induction line with
  | nil => rfl
  | cons b line ih =>
    have hnot : ¬ lineBreak <+: b :: (line ++ lineBreak ++ rest) := by
      rintro ⟨more, heq⟩
      obtain ⟨rfl, htail⟩ : 13 = b ∧ 10 :: more = line ++ lineBreak ++ rest := List.cons.inj heq
      cases line with
      | nil => cases htail
      | cons c line =>
        obtain rfl : 10 = c := (List.cons.inj htail).1
        exact h ⟨[], line, rfl⟩
    obtain ⟨first, others, hrest, hcons⟩ := headerLines_cons hnot
    rw [ih h.tail] at hrest
    cases hrest
    exact hcons

theorem headerLines_intercalate (hnil : lines ≠ []) (hlines : ∀ line ∈ lines, IsLine line) :
    headerLines (lineBreak.intercalate lines) = lines := by
  induction lines with
  | nil => exact absurd rfl hnil
  | cons line lines ih =>
    obtain ⟨hline, hlines⟩ := List.forall_mem_cons.mp hlines
    cases lines with
    | nil => rw [List.intercalate_singleton, headerLines_of_isLine hline]
    | cons next lines =>
      rw [List.intercalate_cons_cons, headerLines_append hline, ih (List.cons_ne_nil _ _) hlines]

theorem intercalate_cons_cons (b : UInt8) (line : Bytes) (lines : List Bytes) :
    lineBreak.intercalate ((b :: line) :: lines) = b :: lineBreak.intercalate (line :: lines) := by
  cases lines with
  | nil => simp
  | cons next lines => simp [List.intercalate_cons_cons]

theorem isLine_cons (h : IsLine line) (hstarts : ¬ lineBreak <+: b :: line) : IsLine (b :: line) := by
  intro hin
  exact (List.infix_cons_iff.mp hin).elim hstarts h

/-- The lines of a header block are what stands between its line breaks. -/
theorem intercalate_headerLines (header : Bytes) :
    lineBreak.intercalate (headerLines header) = header ∧ ∀ line ∈ headerLines header, IsLine line := by
  induction hn : header.length using Nat.strongRecOn generalizing header with
  | ind n ih =>
    subst hn
    have hnone : IsLine [] := fun hin => absurd (List.infix_nil.mp hin) (by decide)
    by_cases hbreak : lineBreak <+: header
    · obtain ⟨rest, rfl⟩ := hbreak
      have hshort : rest.length < (lineBreak ++ rest).length := by
        rw [List.length_append]
        exact Nat.lt_add_of_pos_left (by decide)
      obtain ⟨hjoin, hlines⟩ := ih rest.length hshort rest rfl
      rw [headerLines_break]
      refine ⟨?_, List.forall_mem_cons.mpr ⟨hnone, hlines⟩⟩
      obtain ⟨line, lines, hrest⟩ := List.exists_cons_of_ne_nil (headerLines_ne_nil rest)
      rw [hrest] at hjoin ⊢
      rw [List.intercalate_cons_cons, hjoin]
      rfl
    · cases header with
      | nil => exact ⟨rfl, List.forall_mem_singleton.mpr hnone⟩
      | cons b rest =>
        obtain ⟨hjoin, hlines⟩ := ih rest.length (Nat.lt_succ_self _) rest rfl
        obtain ⟨line, lines, hrest, hcons⟩ := headerLines_cons hbreak
        rw [hrest] at hjoin hlines
        obtain ⟨hline, hlines⟩ := List.forall_mem_cons.mp hlines
        rw [hcons, intercalate_cons_cons, hjoin]
        refine ⟨rfl, List.forall_mem_cons.mpr ⟨isLine_cons hline fun hstarts => hbreak ?_, hlines⟩⟩
        -- the line is the front of what follows
        have hfront : line <+: rest := by
          rw [← hjoin]
          cases lines with
          | nil => simp
          | cons next lines => simp [List.intercalate_cons_cons]
        exact hstarts.trans (List.cons_prefix_cons.mpr ⟨rfl, hfront⟩)

theorem lowerByte_colon : lowerByte b = 58 ↔ b = 58 := by
  have hall : ∀ n < 256, lowerByte (UInt8.ofNat n) = 58 ↔ UInt8.ofNat n = 58 := by decide +kernel
  simpa using hall b.toNat b.toNat_lt

theorem gives_iff : Gives line value ↔ lengthField.isPrefixOf (line.map lowerByte) = true ∧
    value = line.drop lengthField.length := by
  have hfield : lengthField = Text.encodeUtf8 "content-length".toList ++ [58] := by decide
  rw [List.isPrefixOf_iff_prefix, hfield]
  constructor
  · rintro ⟨name, hname, rfl⟩
    have hlength := congrArg List.length hname
    rw [List.length_map] at hlength
    refine ⟨⟨value.map lowerByte, ?_⟩, ?_⟩
    · rw [List.map_append, hname, List.map_cons, lowerByte_colon.mpr rfl]
      simp
    · rw [List.length_append, ← hlength, List.length_singleton, List.drop_append]
      simp
  · rintro ⟨⟨more, hmore⟩, rfl⟩
    obtain ⟨front, rest, rfl, hfront, -⟩ := List.map_eq_append_iff.mp hmore.symm
    obtain ⟨name, colon, rfl, hname, hcolon⟩ := List.map_eq_append_iff.mp hfront
    obtain ⟨c, hc, rfl⟩ : ∃ c, lowerByte c = 58 ∧ colon = [c] := by
      obtain ⟨c, rest, rfl, hc, hnil⟩ := List.map_eq_cons_iff.mp hcolon
      obtain rfl := List.map_eq_nil_iff.mp hnil
      exact ⟨c, hc, rfl⟩
    obtain rfl := lowerByte_colon.mp hc
    have hlength := congrArg List.length hname
    rw [List.length_map] at hlength
    refine ⟨name, hname, ?_⟩
    rw [List.length_append, ← hlength, List.length_singleton, List.append_assoc, List.drop_append]
    simp

/-- A header block that gives a length: the first of its lines that has one under this name. -/
inductive Announces : Bytes → Nat → Prop
  | intro {before after : List Bytes} {line value : Bytes} {n : Nat}
    (lines : ∀ l ∈ before ++ line :: after, IsLine l) (first : ∀ l ∈ before, ∀ v, ¬ Gives l v)
    (gives : Gives line value) (ascii : ∀ b ∈ value, b < 128)
    (number : Text.Numeral (Text.numberText (value.map fun b => Char.ofNat b.toNat)) n) :
    Announces (lineBreak.intercalate (before ++ line :: after)) n

theorem announcedLength_eq_some {n : Nat} : announcedLength header = some n ↔ Announces header n := by
  have hparts : announcedLength header = some n ↔ ∃ line,
      (headerLines header).find? (fun l => lengthField.isPrefixOf (l.map lowerByte)) = some line ∧
        (∀ b ∈ line.drop lengthField.length, b < 128) ∧
          Text.integer? ((line.drop lengthField.length).map fun b => Char.ofNat b.toNat) = some (n : Int) := by
    unfold announcedLength
    simp only [bind, Option.bind_eq_some_iff]
    refine exists_congr fun line => and_congr_right fun _ => ?_
    simp only [Option.guard_eq_some', List.all_eq_true, decide_eq_true_eq, exists_const, pure, Option.some.injEq]
    refine and_congr_right fun _ => ⟨?_, fun hnumber => ⟨n, hnumber, Int.natCast_nonneg n, Int.toNat_natCast n⟩⟩
    rintro ⟨k, hnumber, hk, rfl⟩
    rw [hnumber, Int.toNat_of_nonneg hk]
  rw [hparts]
  constructor
  · rintro ⟨line, hfind, hascii, hnumber⟩
    obtain ⟨hline, before, after, hsplit, hbefore⟩ := List.find?_eq_some_iff_append.mp hfind
    obtain ⟨hjoin, hlines⟩ := intercalate_headerLines header
    rw [hsplit] at hjoin hlines
    rw [← hjoin]
    refine .intro hlines (fun l hl v hv => ?_) (gives_iff.mpr ⟨hline, rfl⟩) hascii
      (Text.integer?_eq_some.mp hnumber)
    have hnot := hbefore l hl
    rw [(gives_iff.mp hv).1] at hnot
    cases hnot
  · rintro ⟨hlines, hfirst, hgives, hascii, hnumber⟩
    rename_i before after line value
    obtain ⟨hline, rfl⟩ := gives_iff.mp hgives
    refine ⟨line, ?_, hascii, Text.integer?_eq_some.mpr hnumber⟩
    rw [headerLines_intercalate (by simp) hlines, List.find?_eq_some_iff_append]
    refine ⟨hline, before, after, rfl, fun l hl => ?_⟩
    rw [Bool.not_eq_true', Bool.eq_false_iff]
    exact fun hcontra => hfirst l hl _ (gives_iff.mpr ⟨hcontra, rfl⟩)

theorem splitHeader_eq_none (h : ¬ headerBreak <:+: before.reverse)
    (hsplit : splitHeader before bs = none) : ¬ headerBreak <:+: before.reverse ++ bs := by
  induction bs generalizing before with
  | nil => simpa using h
  | cons b bs ih =>
    rw [splitHeader] at hsplit
    split at hsplit
    · cases hsplit
    · rename_i hend
      rw [isPrefixOf_headerEnd, List.reverse_cons] at hend
      have hnext : ¬ headerBreak <:+: (b :: before).reverse := by
        rw [List.reverse_cons, List.infix_concat_iff, not_or]
        exact ⟨hend, h⟩
      have hrest := ih hnext hsplit
      rwa [List.reverse_cons, List.append_assoc] at hrest

/-- A header block that is found is what stands before the first break of its kind. -/
theorem splitHeader_eq_some (h : ¬ headerBreak <:+: before.reverse)
    (hsplit : splitHeader before bs = some (header, rest)) :
    before.reverse ++ bs = header ++ headerBreak ++ rest ∧ Unbroken header := by
  induction bs generalizing before with
  | nil => cases hsplit
  | cons b bs ih =>
    rw [splitHeader] at hsplit
    split at hsplit
    · rename_i hend
      cases hsplit
      rw [isPrefixOf_headerEnd, List.reverse_cons] at hend
      obtain ⟨front, hfront⟩ := hend
      have hparts : front ++ [13, 10, 13] = before.reverse ∧ [10] = [b] :=
        List.append_inj' (by simpa [headerBreak] using hfront) rfl
      obtain ⟨hbefore, hbyte⟩ := hparts
      cases hbyte
      obtain rfl : before = (front ++ [13, 10, 13]).reverse := by rw [hbefore, List.reverse_reverse]
      have hheader : ((10 :: (front ++ [13, 10, 13]).reverse).drop 4).reverse = front := by simp
      rw [hheader]
      refine ⟨by simp [headerBreak], ?_⟩
      rwa [List.reverse_reverse] at h
    · rename_i hend
      rw [isPrefixOf_headerEnd, List.reverse_cons] at hend
      have hnext : ¬ headerBreak <:+: (b :: before).reverse := by
        rw [List.reverse_cons, List.infix_concat_iff, not_or]
        exact ⟨hend, h⟩
      obtain ⟨hbytes, hheader⟩ := ih hnext hsplit
      rw [List.reverse_cons, List.append_assoc] at hbytes
      exact ⟨hbytes, hheader⟩

theorem announcedLength_eq_none : announcedLength header = none ↔ ∀ n, ¬ Announces header n := by
  rw [Option.eq_none_iff_forall_ne_some]
  exact forall_congr' fun n => not_congr announcedLength_eq_some

end

/-- What a read takes from the front of bytes, what it gives, and the bytes it leaves. -/
inductive Consumes : Bytes → Arrival → Bytes → Prop
  /-- As many bytes follow the header block as it announces, whatever they hold. -/
  | used {header body rest : Bytes} (unbroken : Unbroken header) (announced : Announces header body.length)
    (size : body.length ≤ greatestRead) :
    Consumes (header ++ headerBreak ++ (body ++ rest)) (ofBody body) rest
  /-- No length that could be used: nothing after the break is taken. -/
  | lengthless {header rest : Bytes} (unbroken : Unbroken header) (unannounced : ∀ n, ¬ Announces header n) :
    Consumes (header ++ headerBreak ++ rest) (.unusable (.header header)) rest
  /-- The stream ends inside the body. -/
  | shortBody {header body : Bytes} {n : Nat} (unbroken : Unbroken header) (announced : Announces header n)
    (size : n ≤ greatestRead) (short : body.length < n) : Consumes (header ++ headerBreak ++ body) .ended []
  /-- A length that no read can ask for, of a body that is there or not: nothing after the break is taken. -/
  | oversized {header rest : Bytes} {n : Nat} (unbroken : Unbroken header) (announced : Announces header n)
    (size : greatestRead < n) : Consumes (header ++ headerBreak ++ rest) .oversized rest
  /-- The stream ends before the header block does. -/
  | shortHeader {bs : Bytes} (open_ : ¬ headerBreak <:+: bs) : Consumes bs .ended []

section
variable {bs rest : Bytes} {arrival : Arrival}

theorem consumes_frameOf (bs : Bytes) : Consumes bs (frameOf bs).1 (frameOf bs).2 := by
  have hempty : ¬ headerBreak <:+: ([] : Bytes).reverse := fun h => absurd (List.infix_nil.mp h) (by decide)
  unfold frameOf
  cases hsplit : splitHeader [] bs with
  | none => exact .shortHeader (splitHeader_eq_none hempty hsplit)
  | some parts =>
    obtain ⟨header, rest⟩ := parts
    obtain ⟨hbytes, hunbroken⟩ := splitHeader_eq_some hempty hsplit
    obtain rfl : bs = header ++ headerBreak ++ rest := hbytes
    dsimp only
    cases hlength : announcedLength header with
    | none => exact .lengthless hunbroken (announcedLength_eq_none.mp hlength)
    | some n =>
      have hannounced := announcedLength_eq_some.mp hlength
      dsimp only
      by_cases hhuge : greatestRead < n
      · rw [if_pos hhuge]
        exact .oversized hunbroken hannounced hhuge
      rw [if_neg hhuge]
      have hsize := Nat.not_lt.mp hhuge
      by_cases hshort : rest.length < n
      · rw [if_pos hshort]
        exact .shortBody hunbroken hannounced hsize hshort
      · rw [if_neg hshort]
        have hbody : (rest.take n).length = n := List.length_take_of_le (Nat.not_lt.mp hshort)
        have hused := @Consumes.used header (rest.take n) (rest.drop n) hunbroken (by rwa [hbody]) (by rwa [hbody])
        rwa [List.take_append_drop] at hused

/-- Bytes at whose front a frame of one kind stands have no frame of another kind there. -/
theorem frameOf_of_consumes (h : Consumes bs arrival rest) : frameOf bs = (arrival, rest) := by
  cases h with
  | used unbroken announced size =>
    rw [frameOf, splitHeader_headerBreak unbroken]
    simp only [announcedLength_eq_some.mpr announced, if_neg (Nat.not_lt.mpr size)]
    rw [if_neg (by rw [List.length_append]; omega), List.take_left, List.drop_left]
  | lengthless unbroken unannounced =>
    rw [frameOf, splitHeader_headerBreak unbroken]
    simp only [announcedLength_eq_none.mpr unannounced]
  | shortBody unbroken announced size short =>
    rw [frameOf, splitHeader_headerBreak unbroken]
    simp only [announcedLength_eq_some.mpr announced, if_neg (Nat.not_lt.mpr size), if_pos short]
  | oversized unbroken announced size =>
    rw [frameOf, splitHeader_headerBreak unbroken]
    simp only [announcedLength_eq_some.mpr announced, if_pos size]
  | shortHeader open_ =>
    have hnone : splitHeader [] bs = none := by
      rw [Option.eq_none_iff_forall_ne_some]
      rintro ⟨header, rest⟩ hsplit
      obtain ⟨hbytes, -⟩ := splitHeader_eq_some (fun h => absurd (List.infix_nil.mp h) (by decide)) hsplit
      obtain rfl : bs = header ++ headerBreak ++ rest := hbytes
      exact open_ (List.infix_append header headerBreak rest)
    rw [frameOf, hnone]

end

/-- A read of a frame takes exactly the frame, however the stream is cut: the bytes say which kind of frame is
at their front, and it is always of just one kind. A frame that ends early gives nothing, unless its length is
one that no read can ask for. -/
theorem readFrame_consumes (s : Stream) (arrival : Arrival) (rest : Bytes) :
    Consumes s.unread arrival rest ↔ (readFrame s).1 = arrival ∧ (readFrame s).2.unread = rest := by
  obtain ⟨harrival, hrest⟩ := readFrame_eq s
  rw [harrival, hrest]
  constructor
  · intro h
    rw [frameOf_of_consumes h]
    exact ⟨rfl, rfl⟩
  · rintro ⟨rfl, rfl⟩
    exact consumes_frameOf _

/-- A stream that ends inside the body of its frame, of which it has two bytes. -/
def unfinished : Stream := { unread := headerOf (greatestRead + 1) ++ headerBreak ++ [123, 125] }

/-- The stream ends inside the body, and the read does not say so: it fails, with the bytes of the body left. -/
theorem readFrame_unfinished : Announces (headerOf (greatestRead + 1)) (greatestRead + 1) ∧
    [123, 125].length < greatestRead + 1 ∧ (readFrame unfinished).1 ≠ .ended ∧
      (readFrame unfinished).1 = .oversized ∧ (readFrame unfinished).2.unread = [123, 125] := by
  have hannounced : Announces (headerOf (greatestRead + 1)) (greatestRead + 1) :=
    announcedLength_eq_some.mp (announcedLength_headerOf (by decide +kernel))
  have hunbroken := unbroken_of_not_mem (not_mem_headerOf (greatestRead + 1))
  obtain ⟨harrival, hrest⟩ := readFrame_eq unfinished
  have hfront : frameOf unfinished.unread = (.oversized, [123, 125]) :=
    frameOf_of_consumes (.oversized hunbroken hannounced (Nat.lt_succ_self _))
  rw [harrival, hrest, hfront]
  exact ⟨hannounced, by decide, nofun, rfl, rfl⟩

end Highlighter.Protocol

import Highlighter.Proofs.Json.Compact
import Highlighter.Protocol.Frame

/-! What is read from a stream depends on its bytes alone, not on the pieces they come in, so a read is
described by a function of bytes. A message that is framed is read as the message, and the read ends with
its last byte; so messages that are written one after another come back in order. -/

namespace Highlighter.Protocol

open Highlighter.Json (Ascii Members Sendable Value)
open Highlighter.Text (Bytes)

/-! ### Reading as a function of bytes -/

/-- The end of a header block. -/
def headerBreak : Bytes := [13, 10, 13, 10]

/-- The header block at the front of bytes and what follows it, given what was read before, backwards. -/
def splitHeader (before : Bytes) : Bytes → Option (Bytes × Bytes)
  | [] => none
  | b :: rest =>
    if headerEnd.isPrefixOf (b :: before) then some (((b :: before).drop 4).reverse, rest)
    else splitHeader (b :: before) rest

/-- The frame at the front of bytes and what follows it. -/
def frameOf (bs : Bytes) : Arrival × Bytes :=
  match splitHeader [] bs with
  | none => (.ended, [])
  | some (header, rest) =>
    match announcedLength header with
    | none => (.unusable (.header header), rest)
    | some length =>
      if greatestRead < length then (.oversized, rest)
      else if rest.length < length then (.ended, [])
      else (ofBody (rest.take length), rest.drop length)

section
variable {s : Stream} {b : UInt8} {bs before header rest : Bytes} {fuel length : Nat}

/-- A read gives a piece of what is unread, of a size that was asked for. -/
theorem read_piece (h : length ≤ greatestRead) : ∃ size ≤ length, (0 < length → 0 < size) ∧
    s.read length =
      (some (s.unread.take size), { s with unread := s.unread.drop size, reads := s.reads + 1 }) := by
  refine ⟨min length (max 1 (s.cut s.reads)), Nat.min_le_left _ _, by omega, ?_⟩
  rw [Stream.read, if_neg (Nat.not_lt.mpr h)]

theorem read_one (hs : s.unread = b :: rest) :
    (s.read 1).1 = some [b] ∧ (s.read 1).2.unread = rest := by
  simp [Stream.read, hs, greatestRead]

theorem readHeader_eq (h : s.unread.length ≤ fuel) :
    (readHeader fuel before s).1 = (splitHeader before s.unread).map (·.1) ∧
      (readHeader fuel before s).2.unread = ((splitHeader before s.unread).map (·.2)).getD [] := by
  induction fuel generalizing before s with
  | zero =>
    have hnil : s.unread = [] := List.eq_nil_of_length_eq_zero (by omega)
    simp [readHeader, hnil, splitHeader]
  | succ fuel ih =>
    cases hs : s.unread with
    | nil => simp [readHeader, Stream.read, hs, splitHeader, greatestRead]
    | cons b rest =>
      obtain ⟨hpiece, hafter⟩ := read_one hs
      have hrest : (s.read 1).2.unread.length ≤ fuel := by
        rw [hafter]
        simp [hs] at h
        omega
      rw [readHeader, splitHeader, ← hafter]
      generalize s.read 1 = found at hpiece hrest ⊢
      obtain ⟨piece, s'⟩ := found
      obtain rfl : piece = some [b] := hpiece
      dsimp only at hrest ⊢
      rw [List.reverse_singleton, List.singleton_append]
      split
      · exact ⟨rfl, rfl⟩
      · exact ih hrest

theorem take_piece {bs : Bytes} {size more : Nat} (h : size ≤ more) :
    bs.take size ++ (bs.drop size).take (more - (bs.take size).length) = bs.take more := by
  rcases Nat.le_total size bs.length with hle | hle
  · rw [List.length_take_of_le hle, ← List.take_add, Nat.add_sub_cancel' h]
  · rw [List.take_of_length_le hle, List.drop_eq_nil_of_le hle, List.take_nil, List.append_nil,
      List.take_of_length_le (hle.trans h)]

theorem drop_piece {bs : Bytes} {size more : Nat} (h : size ≤ more) :
    (bs.drop size).drop (more - (bs.take size).length) = bs.drop more := by
  rcases Nat.le_total size bs.length with hle | hle
  · rw [List.length_take_of_le hle, List.drop_drop, Nat.add_sub_cancel' h]
  · rw [List.drop_eq_nil_of_le hle, List.drop_nil, List.drop_eq_nil_of_le (hle.trans h)]

/-- A length that no read can ask for is refused before anything is read. -/
theorem readExact_oversized (h : greatestRead < length) :
    readExact (fuel + 1) length [] s = (.error .oversized, s) := by
  have hmore : ([] : Bytes).length < length := (Nat.zero_le _).trans_lt h
  rw [readExact, if_pos hmore, List.length_nil, Nat.sub_zero, Stream.read, if_pos h]

theorem readExact_eq (hsize : length - before.length ≤ greatestRead) (hlength : before.length ≤ length)
    (h : s.unread.length < fuel) :
    (readExact fuel length before s).1 = (if before.length + s.unread.length < length then .error .ended
        else .ok (before ++ s.unread.take (length - before.length))) ∧
      (readExact fuel length before s).2.unread = s.unread.drop (length - before.length) := by
  induction fuel generalizing before s with
  | zero => omega
  | succ fuel ih =>
    rw [readExact]
    by_cases hmore : before.length < length
    · rw [if_pos hmore]
      obtain ⟨size, hle, hpos, hread⟩ := @read_piece s _ hsize
      rw [hread]
      dsimp only
      cases hpiece : s.unread.take size with
      | nil =>
        have hnil : s.unread = [] := by
          rcases List.take_eq_nil_iff.mp hpiece with hzero | hnil
          · omega
          · exact hnil
        simp [hnil, hmore]
      | cons b piece =>
        dsimp only
        rw [← hpiece]
        have hfirst : 0 < (s.unread.take size).length := by simp [hpiece]
        have hpart := List.length_take_le size s.unread
        have hall : (s.unread.take size).length + (s.unread.drop size).length = s.unread.length := by
          rw [← List.length_append, List.take_append_drop]
        have htake := @take_piece s.unread _ _ hle
        have hdrop := @drop_piece s.unread _ _ hle
        generalize s.unread.take size = first at htake hdrop hfirst hpart hall ⊢
        obtain ⟨hbody, hafter⟩ := @ih { s with unread := s.unread.drop size, reads := s.reads + 1 }
          (before ++ first) (by rw [List.length_append]; omega) (by rw [List.length_append]; omega)
          (by dsimp only; omega)
        rw [hbody, hafter]
        dsimp only
        rw [List.length_append, Nat.add_assoc, hall, List.append_assoc, Nat.sub_add_eq, htake, hdrop]
        exact ⟨rfl, rfl⟩
    · rw [if_neg hmore]
      obtain rfl : before.length = length := by omega
      simp

/-- A read of a frame is told by the bytes that are unread, however the stream is cut. -/
theorem readFrame_eq (s : Stream) :
    (readFrame s).1 = (frameOf s.unread).1 ∧ (readFrame s).2.unread = (frameOf s.unread).2 := by
  obtain ⟨hheader, hafter⟩ := @readHeader_eq s [] s.unread.length (Nat.le_refl _)
  unfold readFrame frameOf
  cases hsplit : splitHeader [] s.unread with
  | none =>
    rw [hsplit] at hheader hafter
    generalize readHeader s.unread.length [] s = found at hheader hafter
    obtain ⟨header, s'⟩ := found
    obtain rfl : header = none := hheader
    exact ⟨rfl, hafter⟩
  | some parts =>
    obtain ⟨header, rest⟩ := parts
    rw [hsplit] at hheader hafter
    generalize readHeader s.unread.length [] s = found at hheader hafter
    obtain ⟨found, s'⟩ := found
    obtain rfl : found = some header := hheader
    obtain rfl : s'.unread = rest := hafter
    dsimp only
    cases announcedLength header with
    | none => exact ⟨rfl, rfl⟩
    | some length =>
      dsimp only
      by_cases hhuge : greatestRead < length
      · rw [readExact_oversized hhuge, if_pos hhuge]
        exact ⟨rfl, rfl⟩
      rw [if_neg hhuge]
      obtain ⟨hbody, hend⟩ := @readExact_eq s' [] (s'.unread.length + 1) length (Nat.not_lt.mp hhuge)
        (Nat.zero_le _) (Nat.lt_succ_self _)
      generalize readExact (s'.unread.length + 1) length [] s' = found at hbody hend
      obtain ⟨body, s''⟩ := found
      simp only [List.length_nil, Nat.zero_add, Nat.sub_zero, List.nil_append] at hbody hend
      subst hbody
      by_cases hshort : s'.unread.length < length
      · rw [if_pos hshort, if_pos hshort]
        exact ⟨rfl, hend.trans (List.drop_eq_nil_of_le (by omega))⟩
      · rw [if_neg hshort, if_neg hshort]
        exact ⟨rfl, hend⟩

/-- The first so many frames of a stream, read one after another, and the stream after them. -/
def readFrames : Nat → Stream → List Arrival × Stream
  | 0, s => ([], s)
  | n + 1, s =>
    let (arrival, s) := readFrame s
    let (arrivals, s) := readFrames n s
    (arrival :: arrivals, s)

/-! ### Header blocks -/

/-- A header block that does not end before the break that ends it. -/
def Unbroken (header : Bytes) : Prop := ¬ headerBreak <:+: header ++ [13, 10, 13]

theorem isPrefixOf_headerEnd {read : Bytes} :
    headerEnd.isPrefixOf read = true ↔ headerBreak <:+ read.reverse := by
  rw [List.isPrefixOf_iff_prefix, ← List.reverse_suffix]
  rfl

/-- Bytes at whose end no header block ends are gone through. -/
theorem splitHeader_append {more : Bytes} (h : ¬ headerBreak <:+: before.reverse ++ more) :
    splitHeader before (more ++ rest) = splitHeader (more.reverse ++ before) rest := by
  induction more generalizing before with
  | nil => rfl
  | cons b more ih =>
    have hnot : ¬ headerEnd.isPrefixOf (b :: before) = true := by
      rw [isPrefixOf_headerEnd, List.reverse_cons]
      refine fun hsuffix => h ?_
      rw [List.append_cons]
      exact hsuffix.isInfix.trans (List.infix_append' [] _ more)
    rw [List.cons_append, splitHeader, if_neg hnot, ih (by simpa using h)]
    simp

/-- A header block and the break after it are split off. -/
theorem splitHeader_headerBreak (h : Unbroken header) :
    splitHeader [] (header ++ headerBreak ++ rest) = some (header, rest) := by
  have hsplit : header ++ headerBreak ++ rest = (header ++ [13, 10, 13]) ++ 10 :: rest := by
    simp [headerBreak]
  rw [hsplit, splitHeader_append (by simpa [Unbroken] using h), splitHeader, if_pos]
  · simp
  · rw [isPrefixOf_headerEnd]
    exact ⟨header, by simp [headerBreak]⟩

/-- Without a line feed's companion no header block ends. -/
theorem unbroken_of_not_mem (h : (13 : UInt8) ∉ header) : Unbroken header := by
  rintro ⟨front, back, heq⟩
  rw [List.append_assoc] at heq
  rcases List.append_eq_append_iff.mp heq with ⟨more, hheader, hbreak⟩ | ⟨more, -, hbreak⟩
  · cases more with
    | nil => exact absurd (congrArg List.length hbreak) (by simp [headerBreak])
    | cons b more =>
      obtain rfl : 13 = b := (List.cons.inj hbreak).1
      exact h (by simp [hheader])
  · exact absurd (congrArg List.length hbreak) (by simp [headerBreak]; omega)

theorem headerLines_of_not_mem (h : (13 : UInt8) ∉ header) : headerLines header = [header] := by
  induction header with
  | nil => rfl
  | cons b header ih =>
    rw [List.mem_cons, not_or] at h
    rw [headerLines, ih h.2]
    exact fun rest hb => absurd hb.symm h.1

/-! ### The length of a body -/

theorem encodeUtf8_append (text more : List Char) :
    Text.encodeUtf8 (text ++ more) = Text.encodeUtf8 text ++ Text.encodeUtf8 more :=
  List.flatMap_append

theorem encodeUtf8_ascii {text : List Char} (h : Ascii text) :
    Text.encodeUtf8 text = text.map fun c => c.toNat.toUInt8 := by
  have heach : ∀ c ∈ text, Text.encodeChar c = [c.toNat.toUInt8] := fun c hc => if_pos (h c hc)
  rw [Text.encodeUtf8, List.flatMap_def, List.map_congr_left heach, ← List.flatMap_def, ← List.map_eq_flatMap]

theorem length_encodeUtf8_ascii {text : List Char} (h : Ascii text) :
    (Text.encodeUtf8 text).length = text.length := by
  rw [encodeUtf8_ascii h, List.length_map]

/-- ASCII bytes are the codes of their characters. -/
theorem map_toUInt8 {text : List Char} (h : Ascii text) :
    (text.map fun c => c.toNat.toUInt8).map (fun b => Char.ofNat b.toNat) = text := by
  have heach : ∀ c ∈ text, ((fun b : UInt8 => Char.ofNat b.toNat) ∘ fun c : Char => c.toNat.toUInt8) c = id c := by
    intro c hc
    have hbyte : c.toNat.toUInt8.toNat = c.toNat := Text.toNat_toUInt8 ((h c hc).trans (by decide))
    rw [Function.comp_apply, hbyte, Char.ofNat_toNat, id]
  rw [List.map_map, List.map_congr_left heach, List.map_id]

theorem isDigit_bounds {c : Char} (h : c.isDigit = true) : 48 ≤ c.toNat ∧ c.toNat ≤ 57 :=
  Char.isDigit_iff_toNat.mp h

theorem isWhiteSpace_digit {c : Char} (h : c.isDigit = true) : Unicode.isWhiteSpace c = false := by
  obtain ⟨hlow, hhigh⟩ := isDigit_bounds h
  simp [Unicode.isWhiteSpace]
  omega

theorem dropWhile_digits {ds : List Char} (h : ∀ c ∈ ds, c.isDigit = true) :
    ds.dropWhile Unicode.isWhiteSpace = ds := by
  cases ds with
  | nil => rfl
  | cons c ds => rw [List.dropWhile_cons, isWhiteSpace_digit (h c List.mem_cons_self), if_neg (by decide)]

theorem numberText_digits {ds : List Char} (h : ∀ c ∈ ds, c.isDigit = true) :
    Text.numberText (' ' :: ds) = ds := by
  have hblank : (' ' :: ds).dropWhile Unicode.isWhiteSpace = ds.dropWhile Unicode.isWhiteSpace := rfl
  have heach : ∀ c ∈ ds, ((Unicode.digitValue? c).map fun d => Char.ofNat (48 + d)).getD c = c := by
    intro c hc
    obtain ⟨hlow, -⟩ := isDigit_bounds (h c hc)
    rw [Unicode.digitValue?, if_pos (h c hc), Option.map_some, Option.getD_some, Nat.add_sub_cancel' hlow,
      Char.ofNat_toNat]
  rw [Text.numberText, hblank, dropWhile_digits h, dropWhile_digits (by simpa using h), List.reverse_reverse]
  exact (List.map_congr_left heach).trans (List.map_id _)

theorem withoutUnderscores?_digits {ds : List Char} (h : ∀ c ∈ ds, c.isDigit = true) :
    Text.withoutUnderscores? Char.isDigit ds = some ds := by
  have hother {c : Char} (hc : c.isDigit = true) : c ≠ '_' := by
    rintro rfl
    cases hc
  induction ds with
  | nil => rfl
  | cons c ds ih =>
    obtain ⟨hc, hds⟩ := List.forall_mem_cons.mp h
    rw [Text.withoutUnderscores?, if_neg (by simpa using hother hc), ih hds]
    · rfl
    · rintro rfl rfl
      exact hother hc rfl
    · rintro d rest rfl
      exact hother (hds '_' List.mem_cons_self) rfl

theorem integer?_toDigits {n : Nat} (h : (Nat.toDigits 10 n).length ≤ Text.greatestDigitCount) :
    Text.integer? (' ' :: Nat.toDigits 10 n) = some n := by
  have hdigits := Json.isDigit_toDigits n
  have hplain : Decimal.plainDigits? (Nat.toDigits 10 n) = some n := by
    have hall : (Nat.toDigits 10 n).all Char.isDigit = true := List.all_eq_true.mpr hdigits
    have hvalue := Json.natOfDigits_toDigits n
    rw [Decimal.plainDigits?, hall]
    simpa [Nat.toDigits_ne_nil, Json.natOfDigits] using hvalue
  have hsign : ∀ rest, Nat.toDigits 10 n ≠ '-' :: rest ∧ Nat.toDigits 10 n ≠ '+' :: rest := by
    refine fun rest => ⟨fun hminus => ?_, fun hplus => ?_⟩
    · exact absurd (hdigits '-' (by simp [hminus])) (by decide)
    · exact absurd (hdigits '+' (by simp [hplus])) (by decide)
  have hread : Text.readInteger (' ' :: Nat.toDigits 10 n) = .ok n := by
    unfold Text.readInteger
    rw [numberText_digits hdigits]
    split
    rename_i negative digits hmatch
    split at hmatch
    · exact absurd (by assumption) (hsign _).1
    · exact absurd (by assumption) (hsign _).2
    · cases hmatch
      simp [withoutUnderscores?_digits hdigits, hplain, Nat.not_lt.mpr h]
  rw [Text.integer?, hread]
  rfl

/-- The header of a frame. -/
def headerOf (length : Nat) : Bytes := Text.encodeUtf8 ("Content-Length: ".toList ++ Nat.toDigits 10 length)

theorem ascii_toDigits (n : Nat) : Ascii (' ' :: Nat.toDigits 10 n) :=
  Json.ascii_cons.mpr ⟨by decide, Json.ascii_digits (Json.isDigit_toDigits n)⟩

theorem headerOf_eq (n : Nat) : headerOf n = Text.encodeUtf8 "Content-Length:".toList ++
    (' ' :: Nat.toDigits 10 n).map fun c => c.toNat.toUInt8 := by
  rw [headerOf, ← encodeUtf8_ascii (ascii_toDigits n), ← encodeUtf8_append]
  rfl

theorem not_mem_headerOf (n : Nat) : (13 : UInt8) ∉ headerOf n := by
  rw [headerOf_eq, List.mem_append, not_or]
  refine ⟨by decide, fun hmem => ?_⟩
  obtain ⟨c, hc, hbyte⟩ := List.mem_map.mp hmem
  have hcode : c.toNat.toUInt8.toNat = c.toNat := Text.toNat_toUInt8 ((ascii_toDigits n c hc).trans (by decide))
  rw [hbyte] at hcode
  rcases List.mem_cons.mp hc with rfl | hdigit
  · exact absurd hcode (by decide)
  · have hbounds := isDigit_bounds (Json.isDigit_toDigits n c hdigit)
    rw [← hcode] at hbounds
    exact absurd hbounds.1 (by decide)

theorem announcedLength_headerOf {n : Nat} (h : (Nat.toDigits 10 n).length ≤ Text.greatestDigitCount) :
    announcedLength (headerOf n) = some n := by
  have hfield : lengthField.isPrefixOf ((headerOf n).map lowerByte) = true := by
    have hlower : (Text.encodeUtf8 "Content-Length:".toList).map lowerByte = lengthField := by decide
    rw [headerOf_eq, List.map_append, hlower, List.isPrefixOf_iff_prefix]
    exact List.prefix_append _ _
  have hnumber : (headerOf n).drop lengthField.length =
      (' ' :: Nat.toDigits 10 n).map fun c => c.toNat.toUInt8 := by
    have hlength : lengthField.length = (Text.encodeUtf8 "Content-Length:".toList).length := by decide
    rw [headerOf_eq, hlength, List.drop_left]
  have hsmall : ((' ' :: Nat.toDigits 10 n).map fun c => c.toNat.toUInt8).all (· < 128) = true := by
    simp only [List.all_eq_true, List.forall_mem_map]
    intro c hc
    have hcode : c.toNat.toUInt8.toNat = c.toNat :=
      Text.toNat_toUInt8 ((ascii_toDigits n c hc).trans (by decide))
    have hlt := ascii_toDigits n c hc
    rw [← hcode] at hlt
    exact decide_eq_true (UInt8.lt_iff_toNat_lt.mpr hlt)
  have hfind : [headerOf n].find? (fun l => lengthField.isPrefixOf (l.map lowerByte)) = some (headerOf n) := by
    rw [List.find?_cons, hfield]
  rw [announcedLength, headerLines_of_not_mem (not_mem_headerOf n), hfind]
  simp only [bind, Option.bind, hnumber, hsmall, map_toUInt8 (ascii_toDigits n), integer?_toDigits h, guard,
    if_true]
  rfl

/-! ### Frames -/

theorem frame_eq (message : Value) : frame message = headerOf (Json.compact message).length ++
    headerBreak ++ Text.encodeUtf8 (Json.compact message) := by
  have hbreak : Text.encodeUtf8 ['\r', '\n', '\r', '\n'] = headerBreak := by decide
  rw [frame]
  simp only [encodeUtf8_append, hbreak, headerOf]

/-- A message that can be written and read again: its body is no longer than bytes can be. -/
structure Framable (message : Members) : Prop where
  sendable : Sendable (.object message)
  readable : (Json.compact (.object message)).length ≤ greatestRead

variable {message : Members} {messages : List Members}

/-- A length of bytes has no more digits than are accepted. -/
theorem length_toDigits_of_readable {n : Nat} (h : n ≤ greatestRead) :
    (Nat.toDigits 10 n).length ≤ Text.greatestDigitCount := by
  have hdigits : (Nat.toDigits 10 n).length ≤ 19 :=
    (Nat.length_toDigits_le_iff (by decide) (by decide)).mpr (h.trans_lt (by decide))
  exact hdigits.trans (by decide)

theorem announcedLength_frame (h : Framable message) :
    announcedLength (headerOf (Json.compact (.object message)).length) =
      some (Json.compact (.object message)).length :=
  announcedLength_headerOf (length_toDigits_of_readable h.readable)

theorem Framable.ofBody (h : Framable message) :
    ofBody (Text.encodeUtf8 (Json.compact (.object message))) = .message message := by
  rw [Protocol.ofBody, Text.decodeUtf8?_encodeUtf8]
  dsimp only
  rw [h.sendable.read_compact]

/-- A framed message is read as the message, up to its last byte. -/
theorem Framable.frameOf (h : Framable message) :
    frameOf (frame (.object message) ++ rest) = (.message message, rest) := by
  have hbody := length_encodeUtf8_ascii h.sendable.ascii_compact
  rw [frame_eq, List.append_assoc, Protocol.frameOf,
    splitHeader_headerBreak (unbroken_of_not_mem (not_mem_headerOf _))]
  dsimp only
  rw [announcedLength_frame h]
  dsimp only
  rw [if_neg (Nat.not_lt.mpr h.readable), if_neg (by rw [List.length_append]; omega), ← hbody,
    List.take_left, List.drop_left, h.ofBody]

/-- What is in a stream after messages were written to it. -/
def written (messages : List Members) : Bytes := messages.flatMap fun m => frame (.object m)

theorem readFrames_take (h : ∀ m ∈ messages, Framable m) (hs : s.unread = written messages ++ rest) (i : Nat)
    (hi : i ≤ messages.length) : (readFrames i s).1 = (messages.take i).map .message ∧
      (readFrames i s).2.unread = written (messages.drop i) ++ rest := by
  induction i generalizing messages s with
  | zero => exact ⟨rfl, hs⟩
  | succ i ih =>
    cases messages with
    | nil => cases hi
    | cons m messages =>
      obtain ⟨hm, hmessages⟩ := List.forall_mem_cons.mp h
      obtain ⟨hmessage, hafter⟩ := readFrame_eq s
      have hfront : s.unread = frame (.object m) ++ (written messages ++ rest) := by
        rw [hs, written, List.flatMap_cons, List.append_assoc]
        rfl
      rw [hfront, hm.frameOf] at hmessage hafter
      obtain ⟨hmore, hend⟩ := ih hmessages hafter (by simpa using hi)
      exact ⟨by rw [readFrames]; exact congrArg₂ List.cons hmessage hmore, hend⟩

/-- Messages that are written one after another are read one after another, each read ending where the
message does, and after the last of them the stream ends. -/
theorem readFrames_written (h : ∀ m ∈ messages, Framable m) (hs : s.unread = written messages) :
    (∀ i ≤ messages.length, (readFrames i s).1 = (messages.take i).map .message ∧
      (readFrames i s).2.unread = written (messages.drop i)) ∧
    (readFrame (readFrames messages.length s).2).1 = .ended := by
  have htake := fun i hi => @readFrames_take s [] messages h (by rw [hs, List.append_nil]) i hi
  simp only [List.append_nil] at htake
  refine ⟨htake, ?_⟩
  rw [(readFrame_eq _).1, (htake _ (Nat.le_refl _)).2, List.drop_length]
  rfl

end

/-- A message with values of every kind. -/
def greeting : Members :=
  [("id", .int 1), ("method", .string "initialize"),
    ("params", .object [("text", .string "é😀\n"), ("scale", .float (.finite true 1 (-1074))),
      ("items", .array [.null, .bool true])])]

theorem framable_greeting : Framable greeting where
  sendable := by
    have hplain (text : String) := Json.unpaired_ofString text
    refine .object (by decide) ?_ ?_ <;> simp only [greeting, List.forall_mem_cons]
    · exact ⟨hplain _, hplain _, hplain _, nofun⟩
    · refine ⟨.int (by decide), .string (hplain _), .object (by decide) ?_ ?_, nofun⟩ <;>
        simp only [List.forall_mem_cons]
      · exact ⟨hplain _, hplain _, hplain _, nofun⟩
      · refine ⟨.string (hplain _), .float ?_, .array ?_, nofun⟩
        · exact ⟨by decide, by decide, by decide, .inr rfl⟩
        · simpa using ⟨.null, .bool true⟩
  readable := by decide +kernel

theorem framable_nil : Framable [] := ⟨.object (by decide) nofun nofun, by decide +kernel⟩

/-- Two messages come back from a stream that gives at most two bytes at a time. -/
theorem readFrames_written_greeting :
    (∀ m ∈ [greeting, []], Framable m) ∧ (∃ s : Stream, s.unread = written [greeting, []] ∧ s.cut = (· % 3) ∧
      (readFrames 1 s).1 = [.message greeting] ∧ (readFrames 1 s).2.unread = frame (.object []) ∧
      (readFrames 2 s).1 = [.message greeting, .message []] ∧ (readFrame (readFrames 2 s).2).1 = .ended) := by
  have h : ∀ m ∈ [greeting, []], Framable m :=
    List.forall_mem_cons.mpr ⟨framable_greeting, List.forall_mem_cons.mpr ⟨framable_nil, nofun⟩⟩
  obtain ⟨hreads, hended⟩ := readFrames_written h (s := { unread := written [greeting, []], cut := (· % 3) }) rfl
  refine ⟨h, _, rfl, rfl, (hreads 1 (by decide)).1, ?_, (hreads 2 (by decide)).1, hended⟩
  exact (hreads 1 (by decide)).2.trans (List.append_nil _)

end Highlighter.Protocol

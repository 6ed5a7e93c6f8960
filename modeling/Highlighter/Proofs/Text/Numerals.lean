import Highlighter.Text.Number

/-! How integers are written: the digits of any script count as those of ASCII, a single underscore may
stand between two of them, a sign before the first, and blanks around all. A text is read as an integer
exactly if it is written as one. -/

namespace Highlighter.Text

/-- Decimal digits in a row; a single underscore may stand between two of them. -/
inductive DigitRun : List Char → List Nat → Prop
  | last {d : Nat} (h : d < 10) : DigitRun [d.digitChar] [d]
  | next {d : Nat} {s : List Char} {ds : List Nat} (h : d < 10) (rest : DigitRun s ds) :
    DigitRun (d.digitChar :: s) (d :: ds)
  | apart {d : Nat} {s : List Char} {ds : List Nat} (h : d < 10) (rest : DigitRun s ds) :
    DigitRun (d.digitChar :: '_' :: s) (d :: ds)

/-- The number of which digits are the decimal places. -/
def valueOf (ds : List Nat) : Nat := ds.foldl (fun n d => 10 * n + d) 0

/-- A written integer: digits, not too many, and before them a sign or none. -/
inductive Numeral : List Char → Int → Prop
  | plain {s : List Char} {ds : List Nat} (run : DigitRun s ds) (size : ds.length ≤ greatestDigitCount) :
    Numeral s (valueOf ds)
  | plus {s : List Char} {ds : List Nat} (run : DigitRun s ds) (size : ds.length ≤ greatestDigitCount) :
    Numeral ('+' :: s) (valueOf ds)
  | minus {s : List Char} {ds : List Nat} (run : DigitRun s ds) (size : ds.length ≤ greatestDigitCount) :
    Numeral ('-' :: s) (-valueOf ds)

section
variable {c : Char} {s cs : List Char} {ds : List Nat} {d m : Nat} {n : Int}

theorem digitChar_spec : ∀ d < 10, (Nat.digitChar d).isDigit = true ∧ (Nat.digitChar d).toNat - 48 = d ∧
    Nat.digitChar d ≠ '_' ∧ Nat.digitChar d ≠ '-' ∧ Nat.digitChar d ≠ '+' := by
  decide

theorem exists_digitChar (h : c.isDigit = true) : ∃ d < 10, c = Nat.digitChar d := by
  have hbounds : 48 ≤ c.toNat ∧ c.toNat ≤ 57 := Char.isDigit_iff_toNat.mp h
  refine ⟨c.toNat - 48, by omega, ?_⟩
  have hchars : ∀ k < 10, Nat.digitChar k = Char.ofNat (48 + k) := by decide
  rw [hchars _ (by omega), Nat.add_sub_cancel' hbounds.1, Char.ofNat_toNat]

theorem DigitRun.head (h : DigitRun s ds) : ∃ d rest, d < 10 ∧ s = Nat.digitChar d :: rest := by
  cases h with
  | last h => exact ⟨_, _, h, rfl⟩
  | next h rest => exact ⟨_, _, h, rfl⟩
  | apart h rest => exact ⟨_, _, h, rfl⟩

theorem withoutUnderscores?_run (h : DigitRun s ds) :
    withoutUnderscores? Char.isDigit s = some (ds.map Nat.digitChar) := by
  induction h with
  | last h =>
    obtain ⟨-, -, hplain, -⟩ := digitChar_spec _ h
    simp [withoutUnderscores?, hplain]
  | @next d s ds h rest ih =>
    obtain ⟨-, -, hplain, -⟩ := digitChar_spec _ h
    obtain ⟨e, more, he, rfl⟩ := rest.head
    obtain ⟨-, -, hnext, -⟩ := digitChar_spec _ he
    rw [withoutUnderscores?, if_neg (by simp [hplain]), ih]
    · rfl
    · rintro hd -
      exact hplain hd
    · rintro k tail heq
      exact hnext (List.cons.inj heq).1
  | @apart d s ds h rest ih =>
    obtain ⟨hdigit, -⟩ := digitChar_spec _ h
    obtain ⟨e, more, he, rfl⟩ := rest.head
    obtain ⟨hnext, -⟩ := digitChar_spec _ he
    rw [withoutUnderscores?, hdigit, hnext, ih]
    rfl

theorem withoutUnderscores?_ne_nil (h : withoutUnderscores? Char.isDigit (c :: s) = some cs) : cs ≠ [] := by
  unfold withoutUnderscores? at h
  split at h
  · rename_i heq
    cases heq
  · cases h
  · split at h
    · obtain ⟨rest, -, rfl⟩ := Option.map_eq_some_iff.mp h
      exact List.cons_ne_nil _ _
    · cases h
  · split at h
    · cases h
    · obtain ⟨rest, -, rfl⟩ := Option.map_eq_some_iff.mp h
      exact List.cons_ne_nil _ _

/-- What is left of a text without its underscores was a run of digits, if it is digits. -/
theorem run_of_withoutUnderscores? (h : withoutUnderscores? Char.isDigit s = some cs) (hnil : cs ≠ [])
    (hdigits : ∀ c ∈ cs, c.isDigit = true) : ∃ ds, DigitRun s ds ∧ cs = ds.map Nat.digitChar := by
  induction hn : s.length using Nat.strongRecOn generalizing s cs with
  | ind n ih =>
    subst hn
    unfold withoutUnderscores? at h
    split at h
    · cases h
      exact absurd rfl hnil
    · cases h
    · rename_i c d rest
      split at h
      · obtain ⟨tail, htail, rfl⟩ := Option.map_eq_some_iff.mp h
        obtain ⟨hc, hrest⟩ := List.forall_mem_cons.mp hdigits
        obtain ⟨k, hk, rfl⟩ := exists_digitChar hc
        have hne := withoutUnderscores?_ne_nil htail
        obtain ⟨ds, hrun, rfl⟩ := ih (d :: rest).length (by simp) htail hne hrest rfl
        exact ⟨k :: ds, .apart hk hrun, rfl⟩
      · cases h
    · rename_i c rest _ _
      split at h
      · cases h
      · obtain ⟨tail, htail, rfl⟩ := Option.map_eq_some_iff.mp h
        obtain ⟨hc, hrest⟩ := List.forall_mem_cons.mp hdigits
        obtain ⟨k, hk, rfl⟩ := exists_digitChar hc
        cases rest with
        | nil =>
          cases htail
          exact ⟨[k], .last hk, rfl⟩
        | cons d rest =>
          obtain ⟨ds, hrun, rfl⟩ :=
            ih (d :: rest).length (by simp) htail (withoutUnderscores?_ne_nil htail) hrest rfl
          exact ⟨k :: ds, .next hk hrun, rfl⟩

theorem DigitRun.small (h : DigitRun s ds) : ds ≠ [] ∧ ∀ d ∈ ds, d < 10 := by
  induction h with
  | last h => exact ⟨List.cons_ne_nil _ _, List.forall_mem_singleton.mpr h⟩
  | next h rest ih => exact ⟨List.cons_ne_nil _ _, List.forall_mem_cons.mpr ⟨h, ih.2⟩⟩
  | apart h rest ih => exact ⟨List.cons_ne_nil _ _, List.forall_mem_cons.mpr ⟨h, ih.2⟩⟩

theorem plainDigits?_map (hnil : ds ≠ []) (hsmall : ∀ d ∈ ds, d < 10) :
    Decimal.plainDigits? (ds.map Nat.digitChar) = some (valueOf ds) := by
  have hall : (ds.map Nat.digitChar).all Char.isDigit = true := by
    simp only [List.all_map, List.all_eq_true, Function.comp_apply]
    exact fun d hd => (digitChar_spec d (hsmall d hd)).1
  have hfold (start : Nat) : (ds.map Nat.digitChar).foldl (fun n c => 10 * n + (c.toNat - 48)) start =
      ds.foldl (fun n d => 10 * n + d) start := by
    clear hnil hall
    induction ds generalizing start with
    | nil => rfl
    | cons d ds ih =>
      obtain ⟨hd, hsmall⟩ := List.forall_mem_cons.mp hsmall
      rw [List.map_cons, List.foldl_cons, List.foldl_cons, (digitChar_spec d hd).2.1, ih hsmall]
  rw [Decimal.plainDigits?, hall, hfold]
  simp [hnil, valueOf]

theorem plainDigits?_eq_some (h : Decimal.plainDigits? cs = some m) : cs ≠ [] ∧ ∀ c ∈ cs, c.isDigit = true := by
  unfold Decimal.plainDigits? at h
  split at h
  · cases h
  · rename_i hcs
    simp only [Bool.or_eq_true, not_or, List.isEmpty_iff] at hcs
    exact ⟨hcs.1, by simpa using hcs.2⟩

/-- The digits of a number without its sign. -/
def readDigits (s : List Char) : Except IntegerFault Nat :=
  match withoutUnderscores? Char.isDigit s with
  | none => .error .notANumber
  | some ds =>
    match Decimal.plainDigits? ds with
    | none => .error .notANumber
    | some n => if greatestDigitCount < ds.length then .error (.tooLong ds.length) else .ok n

theorem readDigits_eq_ok : readDigits s = .ok m ↔
    ∃ ds, DigitRun s ds ∧ ds.length ≤ greatestDigitCount ∧ m = valueOf ds := by
  unfold readDigits
  constructor
  · intro h
    split at h
    · cases h
    rename_i cs hcs
    split at h
    · cases h
    rename_i k hk
    split at h
    · cases h
    rename_i hsize
    cases h
    obtain ⟨hnil, hdigits⟩ := plainDigits?_eq_some hk
    obtain ⟨ds, hrun, rfl⟩ := run_of_withoutUnderscores? hcs hnil hdigits
    obtain ⟨hnil, hsmall⟩ := hrun.small
    rw [plainDigits?_map hnil hsmall] at hk
    cases hk
    exact ⟨ds, hrun, by simpa using hsize, rfl⟩
  · rintro ⟨ds, hrun, hsize, rfl⟩
    obtain ⟨hnil, hsmall⟩ := hrun.small
    rw [withoutUnderscores?_run hrun]
    dsimp only
    rw [plainDigits?_map hnil hsmall]
    dsimp only
    rw [if_neg (by simpa using hsize)]

/-- Whether a minus stands before a number, and the number without its sign. -/
def splitSign : List Char → Bool × List Char
  | '-' :: rest => (true, rest)
  | '+' :: rest => (false, rest)
  | rest => (false, rest)

theorem readInteger_eq (s : List Char) : readInteger s =
    (readDigits (splitSign (numberText s)).2).map fun (m : Nat) =>
      if (splitSign (numberText s)).1 then -(m : Int) else m := by
  unfold readInteger
  split
  rename_i negative digits hsign
  obtain rfl : negative = (splitSign (numberText s)).1 := congrArg Prod.fst hsign.symm
  obtain rfl : digits = (splitSign (numberText s)).2 := congrArg Prod.snd hsign.symm
  rw [readDigits]
  cases withoutUnderscores? Char.isDigit (splitSign (numberText s)).2 with
  | none => rfl
  | some ds =>
    dsimp only
    cases Decimal.plainDigits? ds with
    | none => rfl
    | some m =>
      dsimp only
      split <;> rfl

theorem numeral_iff : Numeral s n ↔ ∃ ds, DigitRun (splitSign s).2 ds ∧ ds.length ≤ greatestDigitCount ∧
    n = if (splitSign s).1 then -(valueOf ds : Int) else valueOf ds := by
  constructor
  · rintro (⟨run, size⟩ | ⟨run, size⟩ | ⟨run, size⟩)
    · obtain ⟨d, rest, hd, rfl⟩ := run.head
      obtain ⟨-, -, -, hminus, hplus⟩ := digitChar_spec d hd
      have hunsigned : splitSign (d.digitChar :: rest) = (false, d.digitChar :: rest) := by
        unfold splitSign
        split
        · exact absurd (List.cons.inj ‹_›).1 hminus
        · exact absurd (List.cons.inj ‹_›).1 hplus
        · rfl
      rw [hunsigned]
      exact ⟨_, run, size, rfl⟩
    · exact ⟨_, run, size, rfl⟩
    · exact ⟨_, run, size, rfl⟩
  · rintro ⟨ds, run, size, rfl⟩
    unfold splitSign at run ⊢
    split at run
    · exact .minus run size
    · exact .plus run size
    · exact .plain run size

/-- A text is read as an integer exactly if it is written as one. -/
theorem integer?_eq_some : integer? s = some n ↔ Numeral (numberText s) n := by
  rw [integer?, readInteger_eq, numeral_iff]
  cases hread : readDigits (splitSign (numberText s)).2 with
  | error e =>
    constructor
    · intro h
      cases h
    · rintro ⟨ds, hrun, hsize, -⟩
      rw [readDigits_eq_ok.mpr ⟨ds, hrun, hsize, rfl⟩] at hread
      cases hread
  | ok m =>
    constructor
    · intro h
      obtain ⟨ds, hrun, hsize, rfl⟩ := readDigits_eq_ok.mp hread
      exact ⟨ds, hrun, hsize, (Option.some.inj h).symm⟩
    · rintro ⟨ds, hrun, hsize, rfl⟩
      obtain rfl : m = valueOf ds :=
        Except.ok.inj (hread.symm.trans (readDigits_eq_ok.mpr ⟨ds, hrun, hsize, rfl⟩))
      rfl

end

end Highlighter.Text

import Highlighter.Proofs.Styling.Coloring

/-! Pairs of brackets. Every open bracket is followed back to the character that opened it. What lies
below it on the stack is the stack as it was then, so an opening bracket and the one that closes it meet
the same depth and get the same color, whatever stands between them. -/

namespace Highlighter.Styling

/-- The open brackets, the innermost first, each with the place of the character that opened it; those
that were open before have none. -/
abbrev Opened := List (Str × Option Nat)

namespace Opened

def texts (opened : Opened) : List Str := opened.map (·.1)

/-- What the character at a place does to the open brackets. -/
def next (opened : Opened) (place : Nat) (x : StyledChar) : Opened :=
  if !isColored x then opened
  else if opens x.1 then (bracketText x.1, some place) :: opened
  else
    match opened with
    | [] => []
    | top :: rest => if (opener? x.1).map bracketText == some top.1 then rest else top :: rest

/-- The open brackets after characters, the first of which has the given place. -/
def after (opened : Opened) (place : Nat) : List StyledChar → Opened
  | [] => opened
  | x :: xs => after (opened.next place x) (place + 1) xs

end Opened

/-- The open brackets after characters. -/
def openAfter (stack : List Str) (xs : List StyledChar) : Opened :=
  Opened.after (stack.map (·, none)) 0 xs

/-- The character at a place takes an entry off the open brackets. -/
def Pops (stack : List Str) (xs : List StyledChar) (place : Nat) (entry : Str × Option Nat) :
    Prop :=
  ∃ rest, openAfter stack (xs.take place) = entry :: rest ∧
    openAfter stack (xs.take (place + 1)) = rest

/-! ### Balanced brackets -/

/-- The brackets among characters that are colored. -/
def brackets (xs : List StyledChar) : List CodePoint := (xs.filter isColored).map (·.1)

inductive Balanced : List CodePoint → Prop
  | nil : Balanced []
  | pair {o c : CodePoint} {inner rest : List CodePoint} (kind : opener? c = some o) (hinner : Balanced inner)
      (hrest : Balanced rest) : Balanced (o :: inner ++ c :: rest)

/-- The characters at two places are an opening bracket and the closing one that belongs to it: the
brackets between them are balanced. -/
def Partners (xs : List StyledChar) (i j : Nat) : Prop :=
  ∃ before a between b rest, xs = before ++ a :: (between ++ b :: rest) ∧ before.length = i ∧
    before.length + 1 + between.length = j ∧ isColored a = true ∧ isColored b = true ∧
      opener? b.1 = some a.1 ∧ Balanced (brackets between)

def opensAny (x : StyledChar) : Bool := isColored x && opens x.1

def closesAny (x : StyledChar) : Bool := isColored x && (opener? x.1).isSome

/-- How many brackets are open around the one at a place. -/
def depth (xs : List StyledChar) (place : Nat) : Nat :=
  (xs.take place).countP opensAny - (xs.take (place + 1)).countP closesAny

/-- The color that the character at a place is shown in. -/
def colorAt (xs : List StyledChar) (place : Nat) : Option Str := xs[place]?.map (·.2.foreground)

/-- How brackets get their colors, the open ones before them given. -/
structure PairedColors (palette : Palette) (stack : List Str) (before after : List StyledChar) :
    Prop where
  /-- A closing bracket that takes off what an opening one pushed is of its kind and of its color. -/
  partners : ∀ i j text, Pops stack before j (text, some i) → i < j ∧
    ∃ a b, before[i]? = some a ∧ before[j]? = some b ∧ opener? b.1 = some a.1 ∧
      ∃ color, colorAt after i = some color ∧ colorAt after j = some color
  /-- A closing bracket that takes nothing off keeps its color and leaves the open ones alone. -/
  unmatched : ∀ j b, before[j]? = some b → closesAny b = true → (¬∃ entry, Pops stack before j entry) →
    colorAt after j = some b.2.foreground ∧
      openAfter stack (before.take (j + 1)) = openAfter stack (before.take j)
  /-- Of balanced brackets each has its partner. -/
  paired : Balanced (brackets before) → ∀ k x, before[k]? = some x → isColored x = true →
    ∃ i j, Partners before i j ∧ (k = i ∨ k = j)
  /-- Of balanced brackets each closing one takes its partner off. -/
  pops : Balanced (brackets before) → ∀ i j, Partners before i j ↔
    ∃ text, Pops stack before j (text, some i)
  /-- Balanced brackets are colored by their depth. -/
  depths : Balanced (brackets before) → ∀ k x, before[k]? = some x → isColored x = true →
    colorAt after k = palette[(stack.length + depth before k) % palette.length]?
  /-- Balanced brackets leave the open ones as they were. -/
  restored : Balanced (brackets before) → (openAfter stack before).texts = stack

/-! ### Following the stack -/

theorem opener?_of_opens {c : CodePoint} (h : opens c = true) : opener? c = none := by
  simp only [opens, Bool.or_eq_true, beq_iff_eq] at h
  rcases h with (rfl | rfl) | rfl <;> rfl

theorem opens_of_opener? {o c : CodePoint} (h : opener? c = some o) : opens o = true ∧ opens c = false := by
  unfold opener? at h
  split at h <;> cases h <;> decide

theorem isColored_cases {x : StyledChar} (h : isColored x = true) :
    opensAny x = true ∧ closesAny x = false ∨ opensAny x = false ∧ closesAny x = true := by
  have hbracket := h
  simp only [isColored, isBracket, Bool.and_eq_true, Bool.or_eq_true] at hbracket
  rw [opensAny, closesAny, h]
  rcases hbracket.1 with hopens | hcloses
  · exact .inl ⟨by simp [hopens], by simp [opener?_of_opens hopens]⟩
  · refine .inr ⟨?_, by simp [hcloses]⟩
    obtain ⟨o, ho⟩ := Option.isSome_iff_exists.mp hcloses
    simp [(opens_of_opener? ho).2]

section
variable {palette : Palette} {stack : List Str} {opened : Opened} {x y : StyledChar}
  {xs ys zs : List StyledChar} {place i j k : Nat}

namespace Opened

@[simp] theorem after_nil : opened.after place [] = opened := rfl

@[simp] theorem after_cons : opened.after place (x :: xs) = (opened.next place x).after (place + 1) xs :=
  rfl

theorem after_append : opened.after place (xs ++ ys) =
    (opened.after place xs).after (place + xs.length) ys := by
  induction xs generalizing opened place with
  | nil => rfl
  | cons x xs ih => simp [ih, Nat.add_assoc, Nat.add_comm 1]

theorem next_of_not_isColored (h : isColored x = false) : opened.next place x = opened := by
  simp [next, h]

theorem next_of_opens (h : opensAny x = true) :
    opened.next place x = (bracketText x.1, some place) :: opened := by
  rw [opensAny, Bool.and_eq_true] at h
  simp [next, h]

theorem next_of_closes (h : closesAny x = true) {top : Str × Option Nat} {rest : Opened} :
    next (top :: rest) place x =
      if (opener? x.1).map bracketText == some top.1 then rest else top :: rest := by
  rw [closesAny, Bool.and_eq_true] at h
  obtain ⟨o, ho⟩ := Option.isSome_iff_exists.mp h.2
  simp [next, h.1, (opens_of_opener? ho).2]

theorem next_nil_of_closes (h : closesAny x = true) : next [] place x = [] := by
  rw [closesAny, Bool.and_eq_true] at h
  obtain ⟨o, ho⟩ := Option.isSome_iff_exists.mp h.2
  simp [next, h.1, (opens_of_opener? ho).2]

end Opened

/-- The stack after one more character. -/
theorem openAfter_take_succ (h : xs[k]? = some x) :
    openAfter stack (xs.take (k + 1)) = (openAfter stack (xs.take k)).next k x := by
  obtain ⟨hk, rfl⟩ := List.getElem?_eq_some_iff.mp h
  rw [← List.take_append_getElem hk, openAfter, Opened.after_append]
  simp [openAfter, Nat.min_eq_left (Nat.le_of_lt hk)]

/-- Coloring follows the stack of open brackets. -/
theorem recolorStep_next (ne : palette ≠ []) (opened : Opened) (place : Nat) (x : StyledChar) :
    ∃ y, recolorStep palette opened.texts x = (some y, (opened.next place x).texts) ∧ y.1 = x.1 := by
  cases hx : isColored x with
  | false =>
    exact ⟨x, by rw [recolorStep_of_not_isColored hx, Opened.next_of_not_isColored hx], rfl⟩
  | true =>
    obtain ⟨color, hcolor⟩ := bracketStep_isSome ne x.2.foreground opened.texts x.1
    refine ⟨(x.1, x.2.withBracket color), ?_, rfl⟩
    simp only [recolorStep, hx, if_true, hcolor, Option.map_some, Prod.mk.injEq, true_and]
    rcases isColored_cases hx with ⟨hopens, -⟩ | ⟨hopens, hcloses⟩
    · rw [Opened.next_of_opens hopens]
      obtain ⟨own, hown⟩ := depthColor?_isSome ne opened.texts.length
      rw [opensAny, hx, Bool.true_and] at hopens
      rw [bracketStep_of_opens hopens hown]
      rfl
    · rw [opensAny, hx, Bool.true_and] at hopens
      cases opened with
      | nil => rw [Opened.next_nil_of_closes hcloses, Opened.texts, List.map_nil, bracketStep_nil_of_closes hopens]
      | cons top rest =>
        rw [Opened.next_of_closes hcloses]
        simp only [Opened.texts, List.map_cons, bracketStep_of_closes hopens]
        split <;> rfl

/-- Each character is colored over the brackets that are open before it. -/
theorem recolor_spec (ne : palette ≠ []) : ∀ (xs : List StyledChar) (opened : Opened) (place : Nat),
    ∃ ys, recolor palette opened.texts xs = (some ys, (opened.after place xs).texts) ∧
      ys.map (·.1) = xs.map (·.1) ∧ ∀ k x, xs[k]? = some x → ∃ y, ys[k]? = some y ∧
        (recolorStep palette (opened.after place (xs.take k)).texts x).1 = some y
  | [], opened, place => ⟨[], rfl, rfl, by simp⟩
  | x :: xs, opened, place => by
    obtain ⟨y, hy, hchar⟩ := recolorStep_next ne opened place x
    obtain ⟨ys, hys, hchars, hsteps⟩ := recolor_spec ne xs (opened.next place x) (place + 1)
    refine ⟨y :: ys, recolor_cons hy hys, by simp [hchar, hchars], fun k z hz => ?_⟩
    cases k with
    | zero =>
      obtain rfl : x = z := by simpa using hz
      exact ⟨y, rfl, by rw [List.take_zero, Opened.after_nil, hy]⟩
    | succ k => exact hsteps k z (by simpa using hz)

/-! ### Colors over the stack -/

theorem foreground_of_opens (hx : opensAny x = true)
    (h : (recolorStep palette opened.texts x).1 = some y) :
    palette[opened.length % palette.length]? = some y.2.foreground := by
  rw [opensAny, Bool.and_eq_true] at hx
  rw [recolorStep, if_pos hx.1] at h
  cases hcolor : depthColor? palette opened.texts.length with
  | none => simp [bracketStep, hx.2, hcolor] at h
  | some color =>
    rw [bracketStep_of_opens hx.2 hcolor] at h
    cases h
    simpa [depthColor?, Opened.texts] using hcolor

theorem foreground_of_closes {top : Str × Option Nat} {rest : Opened} (hx : closesAny x = true)
    (hkind : (opener? x.1).map bracketText = some top.1)
    (h : (recolorStep palette (Opened.texts (top :: rest)) x).1 = some y) :
    palette[rest.length % palette.length]? = some y.2.foreground := by
  rw [closesAny, Bool.and_eq_true] at hx
  obtain ⟨o, ho⟩ := Option.isSome_iff_exists.mp hx.2
  rw [recolorStep, if_pos hx.1, Opened.texts, List.map_cons,
    bracketStep_of_closes (opens_of_opener? ho).2, if_pos (by simp [hkind])] at h
  obtain ⟨color, hcolor, rfl⟩ := Option.map_eq_some_iff.mp h
  simpa [depthColor?] using hcolor

theorem foreground_of_unmatched (hx : closesAny x = true) (hsame : opened.next place x = opened)
    (h : (recolorStep palette opened.texts x).1 = some y) : y.2.foreground = x.2.foreground := by
  have hcloses := hx
  rw [closesAny, Bool.and_eq_true] at hx
  obtain ⟨o, ho⟩ := Option.isSome_iff_exists.mp hx.2
  rw [recolorStep, if_pos hx.1] at h
  cases opened with
  | nil =>
    rw [Opened.texts, List.map_nil, bracketStep_nil_of_closes (opens_of_opener? ho).2] at h
    cases h
    rfl
  | cons top rest =>
    rw [Opened.next_of_closes hcloses] at hsame
    rw [Opened.texts, List.map_cons, bracketStep_of_closes (opens_of_opener? ho).2] at h
    split at hsame
    · exact absurd (congrArg List.length hsame) (by simp)
    · rename_i hkind
      rw [if_neg hkind] at h
      cases h
      rfl

/-! ### Where entries come from -/

/-- What lies below an entry is the stack as it was when the entry was pushed. -/
theorem openAfter_origin {text : Str} {rest : Opened} :
    ∀ {k : Nat} (above : Opened), openAfter stack (xs.take k) = above ++ (text, some i) :: rest →
      ∃ a, i < k ∧ xs[i]? = some a ∧ opensAny a = true ∧ text = bracketText a.1 ∧
        openAfter stack (xs.take i) = rest := by
  intro k
  induction k with
  | zero =>
    intro above h
    have hmem : (text, some i) ∈ stack.map fun s => (s, (none : Option Nat)) := by
      rw [show stack.map (fun s => (s, none)) = above ++ (text, some i) :: rest from h]
      simp
    simp at hmem
  | succ k ih =>
    intro above h
    have hbefore (above : Opened) (h : openAfter stack (xs.take k) = above ++ (text, some i) :: rest) :
        ∃ a, i < k + 1 ∧ xs[i]? = some a ∧ opensAny a = true ∧ text = bracketText a.1 ∧
          openAfter stack (xs.take i) = rest := by
      obtain ⟨a, hlt, ha⟩ := ih above h
      exact ⟨a, by omega, ha⟩
    cases hk : xs[k]? with
    | none =>
      have hlength := List.getElem?_eq_none_iff.mp hk
      rw [List.take_of_length_le (by omega)] at h
      exact hbefore above (by rwa [List.take_of_length_le hlength])
    | some x =>
      rw [openAfter_take_succ hk] at h
      cases hx : isColored x with
      | false =>
        rw [Opened.next_of_not_isColored hx] at h
        exact hbefore above h
      | true =>
        rcases isColored_cases hx with ⟨hopens, -⟩ | ⟨-, hcloses⟩
        · rw [Opened.next_of_opens hopens] at h
          cases above with
          | nil =>
            simp only [List.nil_append, List.cons.injEq, Prod.mk.injEq, Option.some.injEq] at h
            obtain ⟨⟨rfl, rfl⟩, hrest⟩ := h
            exact ⟨x, by omega, hk, hopens, rfl, hrest⟩
          | cons top above =>
            rw [List.cons_append, List.cons.injEq] at h
            exact hbefore above h.2
        · cases hopened : openAfter stack (xs.take k) with
          | nil =>
            rw [hopened, Opened.next_nil_of_closes hcloses] at h
            simp at h
          | cons top below =>
            rw [hopened, Opened.next_of_closes hcloses] at h
            split at h
            · exact hbefore (top :: above) (by rw [hopened, h, List.cons_append])
            · exact hbefore above (by rw [hopened, h])

/-- Only a closing bracket takes an entry off, and it is of the entry's kind. -/
theorem Pops.closes {entry : Str × Option Nat} (h : Pops stack xs j entry) :
    ∃ b rest, xs[j]? = some b ∧ closesAny b = true ∧ (opener? b.1).map bracketText = some entry.1 ∧
      openAfter stack (xs.take j) = entry :: rest := by
  obtain ⟨rest, hbefore, hafter⟩ := h
  cases hj : xs[j]? with
  | none =>
    have hlength := List.getElem?_eq_none_iff.mp hj
    rw [List.take_of_length_le (by omega)] at hbefore hafter
    exact absurd (congrArg List.length (hbefore.symm.trans hafter)) (by simp)
  | some b =>
    rw [openAfter_take_succ hj, hbefore] at hafter
    cases hb : isColored b with
    | false =>
      rw [Opened.next_of_not_isColored hb] at hafter
      exact absurd (congrArg List.length hafter) (by simp)
    | true =>
      rcases isColored_cases hb with ⟨hopens, -⟩ | ⟨-, hcloses⟩
      · rw [Opened.next_of_opens hopens] at hafter
        exact absurd (congrArg List.length hafter) (by simp; omega)
      · rw [Opened.next_of_closes hcloses] at hafter
        split at hafter
        · rename_i hkind
          exact ⟨b, rest, rfl, hcloses, by simpa using hkind, hbefore⟩
        · exact absurd (congrArg List.length hafter) (by simp)

/-- A closing bracket that takes nothing off leaves the open ones alone. -/
theorem openAfter_unmatched {b : StyledChar} (hb : xs[j]? = some b) (hcloses : closesAny b = true)
    (h : ¬∃ entry, Pops stack xs j entry) :
    (openAfter stack (xs.take j)).next j b = openAfter stack (xs.take j) := by
  have hafter : openAfter stack _ = _ := openAfter_take_succ hb
  cases hopened : openAfter stack (xs.take j) with
  | nil => rw [Opened.next_nil_of_closes hcloses]
  | cons top rest =>
    rw [Opened.next_of_closes hcloses]
    split
    · rename_i hkind
      rw [hopened, Opened.next_of_closes hcloses, if_pos hkind] at hafter
      exact absurd ⟨top, rest, hopened, hafter⟩ h
    · rfl

/-! ### Balanced brackets -/

theorem brackets_append : brackets (xs ++ ys) = brackets xs ++ brackets ys := by
  simp [brackets]

theorem brackets_eq_nil : brackets xs = [] ↔ ∀ x ∈ xs, isColored x = false := by
  simp [brackets, List.filter_eq_nil_iff]

theorem brackets_eq_cons {o : CodePoint} {w : List CodePoint} (h : brackets xs = o :: w) :
    ∃ before a rest, xs = before ++ a :: rest ∧ brackets before = [] ∧ isColored a = true ∧
      a.1 = o ∧ brackets rest = w := by
  rw [brackets, List.map_eq_cons_iff] at h
  obtain ⟨a, others, hfilter, rfl, rfl⟩ := h
  obtain ⟨before, rest, rfl, hnone, ha, rfl⟩ := List.filter_eq_cons_iff.mp hfilter
  exact ⟨before, a, rest, rfl, brackets_eq_nil.mpr (by simpa using hnone), ha, rfl, rfl⟩

/-- A pair of brackets and what they hold, among characters. -/
theorem brackets_eq_pair {o c : CodePoint} {inner outer : List CodePoint}
    (h : brackets xs = o :: inner ++ c :: outer) :
    ∃ before a between b rest, xs = before ++ a :: (between ++ b :: rest) ∧ brackets before = [] ∧
      isColored a = true ∧ a.1 = o ∧ brackets between = inner ∧ isColored b = true ∧ b.1 = c ∧
        brackets rest = outer := by
  obtain ⟨before, a, tail, rfl, hbefore, ha, rfl, htail⟩ := brackets_eq_cons h
  rw [List.append_eq, brackets, List.map_eq_append_iff] at htail
  obtain ⟨first, second, hsplit, hfirst, hsecond⟩ := htail
  obtain ⟨front, back, rfl, rfl, rfl⟩ := List.filter_eq_append_iff.mp hsplit
  obtain ⟨gap, b, rest, rfl, hgap, hb, rfl, hrest⟩ := brackets_eq_cons hsecond
  refine ⟨before, a, front ++ gap, b, rest, by simp, hbefore, ha, rfl, ?_, hb, rfl, hrest⟩
  rw [brackets_append, hgap, List.append_nil]
  exact hfirst

theorem Opened.after_of_not_isColored (h : brackets xs = []) : opened.after place xs = opened := by
  rw [brackets_eq_nil] at h
  induction xs generalizing place with
  | nil => rfl
  | cons x xs ih =>
    rw [List.forall_mem_cons] at h
    rw [Opened.after_cons, Opened.next_of_not_isColored h.1, ih h.2]

/-- A pair takes off what it pushed. -/
theorem next_of_pair {a b : StyledChar} (hb : isColored b = true) (hkind : opener? b.1 = some a.1)
    (place : Nat) : Opened.next ((bracketText a.1, some k) :: opened) place b = opened := by
  have hcloses : closesAny b = true := by simp [closesAny, hb, hkind]
  rw [Opened.next_of_closes hcloses, hkind, if_pos (by simp)]

theorem opensAny_of_pair {a b : StyledChar} (ha : isColored a = true) (hkind : opener? b.1 = some a.1) :
    opensAny a = true := by simp [opensAny, ha, (opens_of_opener? hkind).1]

/-- Balanced brackets leave the open ones as they were. -/
theorem Balanced.after {w : List CodePoint} (h : Balanced w) : ∀ {xs : List StyledChar} (opened : Opened)
    (place : Nat), brackets xs = w → opened.after place xs = opened := by
  induction h with
  | nil => exact fun opened place hxs => Opened.after_of_not_isColored hxs
  | pair kind _ _ ihinner ihrest =>
    intro xs opened place hxs
    obtain ⟨before, a, between, b, rest, rfl, hbefore, ha, rfl, hbetween, hb, rfl, hrest⟩ :=
      brackets_eq_pair hxs
    rw [Opened.after_append, Opened.after_of_not_isColored hbefore, Opened.after_cons,
      Opened.next_of_opens (opensAny_of_pair ha kind), Opened.after_append, ihinner _ _ hbetween,
      Opened.after_cons, next_of_pair hb kind, ihrest _ _ hrest]

namespace Partners

theorem append_left (h : Partners xs i j) (ys : List StyledChar) :
    Partners (ys ++ xs) (ys.length + i) (ys.length + j) := by
  obtain ⟨before, a, between, b, rest, rfl, rfl, rfl, h⟩ := h
  exact ⟨ys ++ before, a, between, b, rest, by simp, by simp, by simp [Nat.add_assoc], h⟩

theorem append_right (h : Partners xs i j) (ys : List StyledChar) : Partners (xs ++ ys) i j := by
  obtain ⟨before, a, between, b, rest, rfl, hi, hj, h⟩ := h
  exact ⟨before, a, between, b, rest ++ ys, by simp, hi, hj, h⟩

/-- The closing one of two partners takes off what the opening one pushed. -/
theorem pops (h : Partners xs i j) (stack : List Str) :
    ∃ text, Pops stack xs j (text, some i) := by
  obtain ⟨before, a, between, b, rest, rfl, rfl, rfl, ha, hb, hkind, hbalanced⟩ := h
  have hinside : openAfter stack (before ++ a :: between) =
      (bracketText a.1, some before.length) :: openAfter stack before := by
    rw [openAfter, Opened.after_append, Opened.after_cons,
      Opened.next_of_opens (opensAny_of_pair ha hkind), hbalanced.after _ _ rfl, Nat.zero_add]
    rfl
  have hplace : (before ++ a :: (between ++ b :: rest))[before.length + 1 + between.length]? = some b := by
    rw [List.getElem?_append_right (by omega)]
    have : before.length + 1 + between.length - before.length = between.length + 1 := by omega
    simp [this]
  have htake : (before ++ a :: (between ++ b :: rest)).take (before.length + 1 + between.length) =
      before ++ a :: between := by
    have hsplit : before ++ a :: (between ++ b :: rest) = (before ++ a :: between) ++ b :: rest := by simp
    rw [hsplit, List.take_left' (by simp; omega)]
  refine ⟨bracketText a.1, openAfter stack before, by rw [htake, hinside], ?_⟩
  rw [openAfter_take_succ hplace, htake, hinside, next_of_pair hb hkind]

end Partners

/-- Of balanced brackets each has its partner. -/
theorem Balanced.exists_partners {w : List CodePoint} (h : Balanced w) :
    ∀ {xs : List StyledChar}, brackets xs = w → ∀ {k : Nat} {x : StyledChar}, xs[k]? = some x →
      isColored x = true → ∃ i j, Partners xs i j ∧ (k = i ∨ k = j) := by
  induction h with
  | nil =>
    intro xs hxs k x hk hx
    rw [brackets_eq_nil.mp hxs x (List.mem_of_getElem? hk)] at hx
    cases hx
  | pair kind hinner _ ihinner ihrest =>
    intro xs hxs k x hk hx
    obtain ⟨before, a, between, b, rest, rfl, hbefore, ha, rfl, hbetween, hb, rfl, hrest⟩ :=
      brackets_eq_pair hxs
    have hpair : Partners (before ++ a :: (between ++ b :: rest)) before.length
        (before.length + 1 + between.length) :=
      ⟨before, a, between, b, rest, rfl, rfl, rfl, ha, hb, kind, hbetween ▸ hinner⟩
    rw [List.getElem?_append] at hk
    split at hk
    · rw [brackets_eq_nil.mp hbefore x (List.mem_of_getElem? hk)] at hx
      cases hx
    · rename_i hge
      obtain ⟨n, rfl⟩ := Nat.exists_eq_add_of_le (Nat.le_of_not_lt hge)
      rw [Nat.add_sub_cancel_left] at hk
      cases n with
      | zero => exact ⟨_, _, hpair, .inl rfl⟩
      | succ n =>
        rw [List.getElem?_cons_succ, List.getElem?_append] at hk
        split at hk
        · obtain ⟨i, j, hij, hn⟩ := ihinner hbetween hk hx
          refine ⟨_, _, ((hij.append_right (b :: rest)).append_left [a]).append_left before, ?_⟩
          simp only [List.length_singleton]
          omega
        · rename_i hge'
          obtain ⟨m, rfl⟩ := Nat.exists_eq_add_of_le (Nat.le_of_not_lt hge')
          rw [Nat.add_sub_cancel_left] at hk
          cases m with
          | zero => exact ⟨_, _, hpair, .inr (by omega)⟩
          | succ m =>
            obtain ⟨i, j, hij, hm⟩ := ihrest hrest (by simpa using hk) hx
            have hsplit : before ++ a :: (between ++ b :: rest) =
                (before ++ a :: (between ++ [b])) ++ rest := by simp
            rw [hsplit]
            refine ⟨_, _, hij.append_left _, ?_⟩
            simp only [List.length_append, List.length_cons, List.length_nil]
            omega

/-- Of balanced brackets each closing one is the second of two partners. -/
theorem Balanced.partner_of_closes (h : Balanced (brackets xs)) (hj : xs[j]? = some x)
    (hcloses : closesAny x = true) : ∃ i, Partners xs i j := by
  rw [closesAny, Bool.and_eq_true] at hcloses
  obtain ⟨i, k, hij, rfl | rfl⟩ := h.exists_partners rfl hj hcloses.1
  · obtain ⟨before, a, _, _, _, rfl, rfl, -, -, -, hkind, -⟩ := hij
    obtain rfl : a = x := by simpa using hj
    rw [opener?_of_opens (opens_of_opener? hkind).1] at hcloses
    exact absurd hcloses.2 (by simp)
  · exact ⟨i, hij⟩

theorem Balanced.popped (h : Balanced (brackets xs)) (hj : xs[j]? = some x)
    (hcloses : closesAny x = true) (stack : List Str) :
    ∃ text i rest, openAfter stack (xs.take j) = (text, some i) :: rest ∧
      (opener? x.1).map bracketText = some text := by
  obtain ⟨i, hij⟩ := h.partner_of_closes hj hcloses
  obtain ⟨text, hpops⟩ := hij.pops stack
  obtain ⟨b, rest, hb, -, hkind, hopened⟩ := hpops.closes
  obtain rfl : x = b := by simpa using hj.symm.trans hb
  exact ⟨text, i, rest, hopened, hkind⟩

theorem Balanced.partners_of_pops {text : Str} (h : Balanced (brackets xs))
    (hpops : Pops stack xs j (text, some i)) : Partners xs i j := by
  obtain ⟨b, rest, hj, hcloses, -, hopened⟩ := hpops.closes
  obtain ⟨i', hij⟩ := h.partner_of_closes hj hcloses
  obtain ⟨text', rest', hopened', -⟩ := hij.pops stack
  rw [hopened, List.cons.injEq, Prod.mk.injEq, Option.some.injEq] at hopened'
  rwa [hopened'.1.2]

/-- The height of the stack after any number of characters whose brackets are balanced. -/
theorem Balanced.height (h : Balanced (brackets xs)) (stack : List Str) (k : Nat) :
    (openAfter stack (xs.take k)).length + (xs.take k).countP closesAny =
      stack.length + (xs.take k).countP opensAny := by
  induction k with
  | zero => simp [openAfter]
  | succ k ih =>
    cases hk : xs[k]? with
    | none =>
      have hlength := List.getElem?_eq_none_iff.mp hk
      rwa [List.take_of_length_le (by omega), ← List.take_of_length_le hlength]
    | some x =>
      have htake : xs.take (k + 1) = xs.take k ++ [x] := by
        obtain ⟨hlt, rfl⟩ := List.getElem?_eq_some_iff.mp hk
        exact (List.take_append_getElem hlt).symm
      rw [openAfter_take_succ hk, htake, List.countP_append, List.countP_append,
        List.countP_singleton, List.countP_singleton]
      cases hx : isColored x with
      | false =>
        rw [Opened.next_of_not_isColored hx]
        simpa [opensAny, closesAny, hx] using ih
      | true =>
        rcases isColored_cases hx with ⟨hopens, hcloses⟩ | ⟨hopens, hcloses⟩
        · rw [Opened.next_of_opens hopens, hopens, hcloses]
          simp only [List.length_cons, if_true, Bool.false_eq_true, if_false]
          omega
        · obtain ⟨i, hij⟩ := h.partner_of_closes hk hcloses
          obtain ⟨text, rest, hbefore, hafter⟩ := hij.pops stack
          rw [openAfter_take_succ hk] at hafter
          rw [hafter, hopens, hcloses]
          rw [hbefore] at ih
          simp only [List.length_cons, if_true, Bool.false_eq_true, if_false] at ih ⊢
          omega

/-! ### The colors of pairs -/

/-- Each character is shown as it is colored over the brackets that are open before it. -/
def ColoredOver (palette : Palette) (stack : List Str) (xs ys : List StyledChar) : Prop :=
  ∀ k x, xs[k]? = some x → ∃ y, colorAt ys k = some y.2.foreground ∧
    (recolorStep palette (openAfter stack (xs.take k)).texts x).1 = some y

namespace ColoredOver

/-- Who opens and who closes at the same depth get the same color. -/
theorem partners {text : Str} (h : ColoredOver palette stack xs ys)
    (hpops : Pops stack xs j (text, some i)) : i < j ∧
      ∃ a b, xs[i]? = some a ∧ xs[j]? = some b ∧ opener? b.1 = some a.1 ∧
        ∃ color, colorAt ys i = some color ∧ colorAt ys j = some color := by
  obtain ⟨b, rest, hj, hcloses, hkind, hopened⟩ := hpops.closes
  obtain ⟨a, hlt, hi, hopens, rfl, hrest⟩ := openAfter_origin [] hopened
  obtain ⟨y, hy, hstep⟩ := h i a hi
  obtain ⟨z, hz, hstep'⟩ := h j b hj
  have hcolor := foreground_of_opens hopens hstep
  rw [hopened] at hstep'
  have hcolor' := foreground_of_closes hcloses hkind hstep'
  rw [hrest, hcolor'] at hcolor
  obtain ⟨o, ho, htext⟩ := Option.map_eq_some_iff.mp hkind
  obtain rfl : o = a.1 := bracketText_inj.mp htext
  exact ⟨hlt, a, b, hi, hj, ho, z.2.foreground, by rw [hy, hcolor], hz⟩

theorem unmatched {b : StyledChar} (h : ColoredOver palette stack xs ys) (hj : xs[j]? = some b)
    (hcloses : closesAny b = true) (hno : ¬∃ entry, Pops stack xs j entry) :
    colorAt ys j = some b.2.foreground ∧
      openAfter stack (xs.take (j + 1)) = openAfter stack (xs.take j) := by
  obtain ⟨y, hy, hstep⟩ := h j b hj
  have hsame := openAfter_unmatched hj hcloses hno
  rw [hy, foreground_of_unmatched hcloses hsame hstep, openAfter_take_succ hj, hsame]
  exact ⟨rfl, rfl⟩

/-- Over balanced brackets the height of the stack is the depth. -/
theorem depths (h : ColoredOver palette stack xs ys) (hw : Balanced (brackets xs))
    (hk : xs[k]? = some x) (hx : isColored x = true) :
    colorAt ys k = palette[(stack.length + depth xs k) % palette.length]? := by
  obtain ⟨y, hy, hstep⟩ := h k x hk
  have hheight := hw.height stack k
  have hbelow := hw.height [] k
  have hcount : (xs.take (k + 1)).countP closesAny =
      (xs.take k).countP closesAny + if closesAny x then 1 else 0 := by
    obtain ⟨hlt, rfl⟩ := List.getElem?_eq_some_iff.mp hk
    rw [← List.take_append_getElem hlt, List.countP_append, List.countP_singleton]
  rw [hy, depth, hcount]
  rcases isColored_cases hx with ⟨hopens, hcloses⟩ | ⟨hopens, hcloses⟩
  · have hlength : (openAfter stack (xs.take k)).length = stack.length +
        ((xs.take k).countP opensAny - (xs.take k).countP closesAny) := by
      rw [List.length_nil] at hbelow
      omega
    rw [← foreground_of_opens hopens hstep, hlength]
    simp [hcloses]
  · obtain ⟨text, i, rest, hopened, hkind⟩ := hw.popped hk hcloses stack
    rw [hopened] at hstep hheight
    rw [← foreground_of_closes hcloses hkind hstep]
    have hlength : rest.length = stack.length +
        ((xs.take k).countP opensAny - ((xs.take k).countP closesAny + 1)) := by
      rw [List.length_cons] at hheight
      obtain ⟨_, _, below, hbelowOpened, -⟩ := hw.popped hk hcloses []
      rw [hbelowOpened, List.length_cons, List.length_nil] at hbelow
      omega
    rw [hlength]
    simp [hcloses]

theorem pairedColors (h : ColoredOver palette stack xs ys) : PairedColors palette stack xs ys where
  partners _ _ _ := h.partners
  unmatched _ _ := h.unmatched
  paired hw _ _ := hw.exists_partners rfl
  pops hw i j := ⟨fun hij => hij.pops stack, fun ⟨_, hpops⟩ => hw.partners_of_pops hpops⟩
  depths hw _ _ := h.depths hw
  restored hw := by
    rw [openAfter, hw.after _ _ rfl]
    simp [Opened.texts, Function.comp_def]

end ColoredOver

theorem recolor_coloredOver (ne : palette ≠ []) (stack : List Str) (xs : List StyledChar) :
    ∃ ys, recolor palette stack xs = (some ys, (openAfter stack xs).texts) ∧
      ys.map (·.1) = xs.map (·.1) ∧ ColoredOver palette stack xs ys := by
  have hstack : Opened.texts (stack.map fun s => (s, (none : Option Nat))) = stack := by
    simp [Opened.texts, Function.comp_def]
  obtain ⟨ys, hys, hchars, hsteps⟩ := recolor_spec ne xs (stack.map (·, none)) 0
  rw [hstack] at hys
  refine ⟨ys, hys, hchars, fun k x hk => ?_⟩
  obtain ⟨y, hy, hstep⟩ := hsteps k x hk
  exact ⟨y, by rw [colorAt, hy]; rfl, hstep⟩

/-- The bracket pass keeps every character and colors the brackets of safe ranges by pairs, whatever
ranges the characters stand in and whatever is open before them. -/
theorem colorBrackets_pairs (ne : palette ≠ []) (stack : List Str) (ranges : List StyledRange) :
    ∃ out, colorBrackets palette stack ranges =
        (some out, (openAfter stack (characters ranges)).texts) ∧
      (characters out).map (·.1) = (characters ranges).map (·.1) ∧
      PairedColors palette stack (characters ranges) (characters out) := by
  obtain ⟨out, s₁, hout, hcharacters⟩ := colorBrackets_characters ne ranges stack
  obtain ⟨ys, hys, hchars, hcolored⟩ := recolor_coloredOver ne stack (characters ranges)
  obtain ⟨rfl, rfl⟩ : characters out = ys ∧ s₁ = (openAfter stack (characters ranges)).texts := by
    simpa using hcharacters.symm.trans hys
  exact ⟨out, hout, hchars, hcolored.pairedColors⟩

end

/-- A call over two lines with a comment in between, whose bracket does not count. -/
def callOverLines : List StyledRange :=
  let style (label : Str) : ResolvedStyle := ⟨"#D4D4D4", none, .textmate, [.scope label], -1, []⟩
  [⟨0, 0, 0, 2, "f(", style "source"⟩, ⟨0, 2, 0, 6, "/)*/", style "comment"⟩,
    ⟨1, 0, 1, 3, "[])", style "source"⟩]

/-- With one bracket open before it, the call's own two brackets get the second color. -/
theorem colorBrackets_pairs_callOverLines : standardPalette ≠ [] ∧
    ∃ out, colorBrackets standardPalette ["\x7b"] callOverLines = (some out, (["\x7b"] : List Str)) ∧
      Balanced (brackets (characters callOverLines)) ∧
      Pops ["\x7b"] (characters callOverLines) 8 ("(", some 1) ∧
      colorAt (characters out) 1 = some ("#DA70D6" : Str) ∧
      colorAt (characters out) 8 = some ("#DA70D6" : Str) := by
  have ne : standardPalette ≠ [] := by decide
  obtain ⟨out, hout, -, hpairs⟩ := colorBrackets_pairs ne ["\x7b"] callOverLines
  have hbrackets : brackets (characters callOverLines) =
      [.char '(', .char '[', .char ']', .char ')'] := by decide
  have hbalanced : Balanced (brackets (characters callOverLines)) := by
    rw [hbrackets]
    exact .pair rfl (.pair rfl .nil .nil) .nil
  have hpops : Pops ["\x7b"] (characters callOverLines) 8 ("(", some 1) :=
    ⟨[("\x7b", none)], by decide, by decide⟩
  have hcolor : colorAt (characters out) 1 = some ("#DA70D6" : Str) := by
    rw [hpairs.depths hbalanced 1 (.char '(', _) rfl (by decide)]
    decide
  refine ⟨ne, out, ?_, hbalanced, hpops, hcolor, ?_⟩
  · rw [hout, hpairs.restored hbalanced]
  · obtain ⟨-, _, _, -, -, -, color, hfirst, hlast⟩ := hpairs.partners _ _ _ hpops
    rw [hlast, ← hfirst, hcolor]

end Highlighter.Styling

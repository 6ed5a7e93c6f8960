import Highlighter.Styling.Bracket

/-! Coloring brackets, range by range and character by character. The pieces of ranges come one after
another, and how a character is colored depends only on the characters and styles before it, not on how
they are cut into ranges. -/

namespace Highlighter.Styling

variable {palette : Palette} {stack s₁ s₂ : List Str} {r : StyledRange}
  {ranges more pieces after : List StyledRange}

/-! ### Styles that agree -/

theorem ResolvedStyle.agrees_iff {a b : ResolvedStyle} :
    a.agrees b = true ↔ a.foreground = b.foreground ∧ a.fontStyle = b.fontStyle ∧
      a.source = b.source ∧ a.trace = b.trace ∧ a.active = b.active := by
  simp only [ResolvedStyle.agrees, Bool.and_eq_true, beq_iff_eq, and_assoc]

theorem ResolvedStyle.agrees_symm {a b : ResolvedStyle} (h : a.agrees b = true) :
    b.agrees a = true := by
  obtain ⟨hforeground, hfont, hsource, htrace, hactive⟩ := agrees_iff.mp h
  exact agrees_iff.mpr ⟨hforeground.symm, hfont.symm, hsource.symm, htrace.symm, hactive.symm⟩

theorem ResolvedStyle.agrees_trans {a b c : ResolvedStyle} (h : a.agrees b = true)
    (h' : b.agrees c = true) : a.agrees c = true := by
  obtain ⟨hforeground, hfont, hsource, htrace, hactive⟩ := agrees_iff.mp h
  rw [agrees_iff, hforeground, hfont, hsource, htrace, hactive]
  exact agrees_iff.mp h'

/-! ### Colors -/

theorem depthColor?_isSome (ne : palette ≠ []) (depth : Nat) :
    ∃ color, depthColor? palette depth = some color :=
  ⟨_, List.getElem?_eq_getElem (Nat.mod_lt depth (List.length_pos_iff.mpr ne))⟩

section
variable {own color : Str} {c : CodePoint}

theorem bracketStep_of_opens (h : opens c = true) (hcolor : depthColor? palette stack.length = some color) :
    bracketStep palette own stack c = (some color, bracketText c :: stack) := by
  unfold bracketStep
  rw [if_pos h, hcolor]

theorem bracketStep_of_closes (h : opens c = false) (top : Str) :
    bracketStep palette own (top :: stack) c =
      if (opener? c).map bracketText == some top then (depthColor? palette stack.length, stack)
      else (some own, top :: stack) := by
  unfold bracketStep
  rw [h]
  rfl

theorem bracketStep_nil_of_closes (h : opens c = false) :
    bracketStep palette own [] c = (some own, []) := by
  unfold bracketStep
  rw [h]
  rfl

end

/-- There is a color for every bracket if the palette has any. -/
theorem bracketStep_isSome (ne : palette ≠ []) (own : Str) (stack : List Str) (c : CodePoint) :
    ∃ color, (bracketStep palette own stack c).1 = some color := by
  cases hopens : opens c with
  | true =>
    obtain ⟨color, h⟩ := depthColor?_isSome ne stack.length
    exact ⟨color, by rw [bracketStep_of_opens hopens h]⟩
  | false =>
    cases stack with
    | nil => exact ⟨own, by rw [bracketStep_nil_of_closes hopens]⟩
    | cons top rest =>
      rw [bracketStep_of_closes hopens]
      split
      · exact depthColor?_isSome ne _
      · exact ⟨own, rfl⟩

@[simp] theorem ResolvedStyle.withBracket_foreground (s : ResolvedStyle) (color : Str) :
    (s.withBracket color).foreground = color := rfl

/-! ### Ranges -/

/-- The pieces of one range, and the open brackets after it. -/
def colorRange (palette : Palette) (stack : List Str) (r : StyledRange) :
    Option (List StyledRange) × List Str :=
  if r.hasSafeBrackets then cutBrackets palette r 0 [] stack r.text.toList else (some [r], stack)

theorem colorBrackets_cons (hr : colorRange palette stack r = (some pieces, s₁))
    (h : colorBrackets palette s₁ ranges = (some after, s₂)) :
    colorBrackets palette stack (r :: ranges) = (some (pieces ++ after), s₂) := by
  rw [colorRange] at hr
  rw [colorBrackets, hr]
  dsimp only
  rw [h]
  rfl

theorem colorBrackets_append (hp : colorBrackets palette stack ranges = (some pieces, s₁))
    (h : colorBrackets palette s₁ more = (some after, s₂)) :
    colorBrackets palette stack (ranges ++ more) = (some (pieces ++ after), s₂) := by
  induction ranges generalizing stack pieces with
  | nil =>
    cases hp
    exact h
  | cons r ranges ih =>
    rw [colorBrackets] at hp
    split at hp
    rename_i found stack' hr
    cases found with
    | none => cases hp
    | some own =>
      rcases hrest : colorBrackets palette stack' ranges with ⟨_ | others, s₃⟩
      · rw [hrest] at hp
        cases hp
      · rw [hrest] at hp
        cases hp
        rw [List.cons_append, List.append_assoc]
        exact colorBrackets_cons hr (ih hrest)

/-! ### Pieces of a range -/

/-- The pieces of a text that begins at an offset in a range, and the brackets that are open after it.
Each bracket is a piece of its own, and so is what stands between two of them. -/
inductive Cuts (palette : Palette) (r : StyledRange) :
    Nat → List Str → List CodePoint → List StyledRange → List Str → Prop
  | nil (offset : Nat) (stack : List Str) : Cuts palette r offset stack [] [] stack
  | plain {offset : Nat} {stack after : List Str} {part rest : List CodePoint}
      {pieces : List StyledRange} (ne : part ≠ []) (plain : ∀ c ∈ part, isBracket c = false)
      (more : Cuts palette r (offset + part.length) stack rest pieces after) :
      Cuts palette r offset stack (part ++ rest) (r.part offset part :: pieces) after
  | bracket {offset : Nat} {stack next after : List Str} {c : CodePoint} {rest : List CodePoint}
      {pieces : List StyledRange} {color : Str} (bracket : isBracket c = true)
      (step : bracketStep palette r.style.foreground stack c = (some color, next))
      (more : Cuts palette r (offset + 1) next rest pieces after) :
      Cuts palette r offset stack (c :: rest)
        ({ r.part offset [c] with style := r.style.withBracket color } :: pieces) after

/-- The part before a bracket or before the end, if there is one. -/
theorem Cuts.plainPart {offset : Nat} {plain rest : List CodePoint} {after : List Str}
    (hoffset : plain.length ≤ offset) (hplain : ∀ c ∈ plain, isBracket c = false)
    (h : Cuts palette r offset stack rest pieces after) :
    Cuts palette r (offset - plain.length) stack (plain.reverse ++ rest)
      (r.plainPart offset plain ++ pieces) after := by
  unfold StyledRange.plainPart
  by_cases hempty : plain.isEmpty = true
  · obtain rfl := List.isEmpty_iff.mp hempty
    simpa using h
  · rw [if_neg hempty]
    refine .plain (by simpa using hempty) (fun c hc => hplain c (List.mem_reverse.mp hc)) ?_
    rw [List.length_reverse, Nat.sub_add_cancel hoffset]
    exact h

/-- Cutting a range gives its pieces; the plain text read so far is reversed and ends at the offset. -/
theorem cutBrackets_cuts (ne : palette ≠ []) (rest : List CodePoint) :
    ∀ (offset : Nat) (plain : List CodePoint) (stack : List Str), plain.length ≤ offset →
      (∀ c ∈ plain, isBracket c = false) →
        ∃ pieces after, cutBrackets palette r offset plain stack rest = (some pieces, after) ∧
          Cuts palette r (offset - plain.length) stack (plain.reverse ++ rest) pieces after := by
  induction rest with
  | nil =>
    intro offset plain stack hoffset hplain
    refine ⟨_, stack, rfl, ?_⟩
    simpa using (Cuts.nil offset stack).plainPart hoffset hplain
  | cons c rest ih =>
    intro offset plain stack hoffset hplain
    rw [cutBrackets]
    by_cases hbracket : isBracket c = true
    · obtain ⟨color, hcolor⟩ := bracketStep_isSome ne r.style.foreground stack c
      have hstep : bracketStep palette r.style.foreground stack c =
          (some color, (bracketStep palette r.style.foreground stack c).2) := Prod.ext hcolor rfl
      obtain ⟨pieces, after, hpieces, hcuts⟩ := ih (offset + 1) []
        (bracketStep palette r.style.foreground stack c).2 (Nat.zero_le _) (by simp)
      rw [if_pos hbracket, hstep]
      dsimp only
      rw [hpieces]
      exact ⟨_, after, rfl, (Cuts.bracket hbracket hstep hcuts).plainPart hoffset hplain⟩
    · rw [if_neg hbracket]
      have hmore : ∀ d ∈ c :: plain, isBracket d = false := by
        intro d hd
        rcases List.mem_cons.mp hd with rfl | hd
        · simpa using hbracket
        · exact hplain d hd
      have hshift : offset + 1 - (c :: plain).length = offset - plain.length := by
        rw [List.length_cons]
        omega
      simpa [hshift] using ih (offset + 1) (c :: plain) stack (by simpa using hoffset) hmore

/-! ### Characters -/

/-- A character and the style it is shown in. -/
abbrev StyledChar := CodePoint × ResolvedStyle

def StyledRange.characters (r : StyledRange) : List StyledChar := r.text.toList.map (·, r.style)

def characters (ranges : List StyledRange) : List StyledChar := ranges.flatMap (·.characters)

/-- Whether a character is a bracket that is colored. -/
def isColored (x : StyledChar) : Bool := isBracket x.1 && isBracketSafe (x.2.trace.map (·.label))

/-- Gives a character its style, if it is a bracket that is colored. -/
def recolorStep (palette : Palette) (stack : List Str) (x : StyledChar) :
    Option StyledChar × List Str :=
  if isColored x then
    let (color, stack) := bracketStep palette x.2.foreground stack x.1
    (color.map fun color => (x.1, x.2.withBracket color), stack)
  else (some x, stack)

/-- Gives the brackets among characters their styles, one after another. -/
def recolor (palette : Palette) (stack : List Str) :
    List StyledChar → Option (List StyledChar) × List Str
  | [] => (some [], stack)
  | x :: xs =>
    match recolorStep palette stack x with
    | (none, stack) => (none, stack)
    | (some y, stack) =>
      let (ys, stack) := recolor palette stack xs
      (ys.map (y :: ·), stack)

variable {x y : StyledChar} {xs ys zs ws : List StyledChar}

theorem recolorStep_of_not_isColored (h : isColored x = false) :
    recolorStep palette stack x = (some x, stack) := by simp [recolorStep, h]

theorem recolor_cons (hx : recolorStep palette stack x = (some y, s₁))
    (h : recolor palette s₁ xs = (some ys, s₂)) :
    recolor palette stack (x :: xs) = (some (y :: ys), s₂) := by
  rw [recolor, hx]
  dsimp only
  rw [h]
  rfl

theorem recolor_append (hx : recolor palette stack xs = (some ys, s₁))
    (h : recolor palette s₁ zs = (some ws, s₂)) :
    recolor palette stack (xs ++ zs) = (some (ys ++ ws), s₂) := by
  induction xs generalizing stack ys with
  | nil =>
    cases hx
    exact h
  | cons x xs ih =>
    rw [recolor] at hx
    split at hx
    · cases hx
    · rename_i y stack' hstep
      rcases hrest : recolor palette stack' xs with ⟨_ | others, s₃⟩
      · rw [hrest] at hx
        cases hx
      · rw [hrest] at hx
        cases hx
        exact recolor_cons hstep (ih hrest)

theorem recolor_of_not_isColored (h : ∀ x ∈ xs, isColored x = false) :
    recolor palette stack xs = (some xs, stack) := by
  induction xs with
  | nil => rfl
  | cons x xs ih =>
    rw [List.forall_mem_cons] at h
    exact recolor_cons (recolorStep_of_not_isColored h.1) (ih h.2)

theorem characters_append : characters (ranges ++ more) = characters ranges ++ characters more :=
  List.flatMap_append

/-- Cutting a range at its brackets gives its characters the styles they get one by one. -/
theorem Cuts.recolor {offset : Nat} {text : List CodePoint} {after : List Str}
    (safe : isBracketSafe (r.style.trace.map (·.label)) = true)
    (h : Cuts palette r offset stack text pieces after) :
    Styling.recolor palette stack (text.map (·, r.style)) = (some (characters pieces), after) := by
  induction h with
  | nil => rfl
  | @plain _ _ _ part rest pieces _ hplain _ ih =>
    have hnone : ∀ x ∈ part.map (·, r.style), isColored x = false := by
      intro x hx
      obtain ⟨c, hc, rfl⟩ := List.mem_map.mp hx
      simp [isColored, hplain c hc]
    rw [List.map_append]
    simpa [characters, StyledRange.characters, StyledRange.part] using
      recolor_append (recolor_of_not_isColored hnone) ih
  | @bracket _ stack next _ c _ _ color hbracket hstep _ ih =>
    have hcolored : recolorStep palette stack (c, r.style) =
        (some (c, r.style.withBracket color), next) := by
      rw [recolorStep, if_pos (by simp [isColored, hbracket, safe])]
      dsimp only
      rw [hstep]
      rfl
    simpa [characters, StyledRange.characters, StyledRange.part] using recolor_cons hcolored ih

/-- A range that is not cut has nothing to color. -/
theorem StyledRange.not_isColored (h : r.hasSafeBrackets = false) :
    ∀ x ∈ r.characters, isColored x = false := by
  intro x hx
  obtain ⟨c, hc, rfl⟩ := List.mem_map.mp hx
  cases hcolored : isColored (c, r.style) with
  | false => rfl
  | true =>
    rw [isColored, Bool.and_eq_true] at hcolored
    have hany : r.text.toList.any isBracket = true := List.any_eq_true.mpr ⟨c, hc, hcolored.1⟩
    have hne : r.text ≠ "" := fun hempty => by simp [hempty] at hc
    exact absurd h (by simp [StyledRange.hasSafeBrackets, hne, hcolored.2, hany])

theorem colorRange_characters (ne : palette ≠ []) (r : StyledRange) (stack : List Str) :
    ∃ pieces s₁, colorRange palette stack r = (some pieces, s₁) ∧
      recolor palette stack r.characters = (some (characters pieces), s₁) := by
  rw [colorRange]
  split
  · rename_i h
    simp only [StyledRange.hasSafeBrackets, Bool.and_eq_true] at h
    obtain ⟨pieces, after, hpieces, hcuts⟩ :=
      cutBrackets_cuts ne r.text.toList 0 [] stack (Nat.le_refl 0) (by simp)
    exact ⟨pieces, after, hpieces, hcuts.recolor h.1.2⟩
  · rename_i h
    refine ⟨[r], stack, rfl, ?_⟩
    rw [recolor_of_not_isColored (StyledRange.not_isColored (by simpa using h))]
    simp [characters]

/-- Coloring the brackets of ranges is coloring those of their characters. -/
theorem colorBrackets_characters (ne : palette ≠ []) (ranges : List StyledRange) :
    ∀ stack, ∃ out s₁, colorBrackets palette stack ranges = (some out, s₁) ∧
      recolor palette stack (characters ranges) = (some (characters out), s₁) := by
  induction ranges with
  | nil => exact fun stack => ⟨[], stack, rfl, rfl⟩
  | cons r ranges ih =>
    intro stack
    obtain ⟨own, s₁, hown, hchars⟩ := colorRange_characters ne r stack
    obtain ⟨others, s₂, hothers, hmore⟩ := ih s₁
    refine ⟨own ++ others, s₂, colorBrackets_cons hown hothers, ?_⟩
    rw [characters_append]
    exact recolor_append hchars hmore

end Highlighter.Styling

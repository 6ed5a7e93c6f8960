import Highlighter.Proofs.Styling.Coloring
import Mathlib.Data.List.Forall2

/-! Brackets and the boundaries of ranges. Coloring the brackets bears on characters, each at its place
with its style: how a text is cut into ranges, and whether there are ranges without text among them,
changes neither the styles of the characters nor the brackets that stay open. -/

namespace Highlighter.Styling

variable {palette : Palette} {stack after : List Str} {r : StyledRange}
  {ranges more others out : List StyledRange}

/-! ### Characters in the ranges that hold them -/

/-- A character of a range, and the column it stands at. -/
structure Held where
  range : StyledRange
  column : Int
  point : CodePoint

/-- The line and the column of a character. -/
def Held.place (x : Held) : Int × Int := (x.range.startLine, x.column)

def Held.styled (x : Held) : StyledChar := (x.point, x.range.style)

/-- The characters of a text that begins at an offset in a range. -/
def StyledRange.heldFrom (r : StyledRange) (offset : Nat) (text : List CodePoint) : List Held :=
  text.mapIdx fun k c => ⟨r, r.startChar + (offset + k : Nat), c⟩

def StyledRange.held (r : StyledRange) : List Held := r.heldFrom 0 r.text.toList

def held (ranges : List StyledRange) : List Held := ranges.flatMap (·.held)

/-- The same characters stand at the same places in the same order, in styles that are the same. -/
structure SameCharacters (same : ResolvedStyle → ResolvedStyle → Prop)
    (ranges others : List StyledRange) : Prop where
  places : (held ranges).map Held.place = (held others).map Held.place
  styled : List.Forall₂ (fun x y : StyledChar => x.1 = y.1 ∧ same x.2 y.2)
    (characters ranges) (characters others)

theorem held_append : held (ranges ++ more) = held ranges ++ held more := List.flatMap_append

theorem held_cons : held (r :: ranges) = r.held ++ held ranges := List.flatMap_cons

theorem StyledRange.heldFrom_append (offset : Nat) (text rest : List CodePoint) :
    r.heldFrom offset (text ++ rest) =
      r.heldFrom offset text ++ r.heldFrom (offset + text.length) rest := by
  simp [StyledRange.heldFrom, List.mapIdx_append, Nat.add_comm, Nat.add_left_comm]

theorem StyledRange.heldFrom_styled (offset : Nat) (text : List CodePoint) :
    (r.heldFrom offset text).map Held.styled = text.map (·, r.style) := by
  apply List.ext_getElem
  · simp [StyledRange.heldFrom]
  · intro i hi hi'
    simp [StyledRange.heldFrom, Held.styled]

/-! ### What becomes of a character -/

/-- What coloring the brackets makes of a character and of the range that holds it. A bracket that is
colored stands alone in its range, and its trace ends in one entry more, which is the active one; the
style of any other character is the one it had. -/
structure Becomes (old new : Held) : Prop where
  place : new.place = old.place
  point : new.point = old.point
  endLine : new.range.endLine = old.range.endLine
  kept : isColored old.styled = false → new.range.style = old.range.style
  alone : isColored old.styled = true → new.range.text.toList = [old.point] ∧
    new.range.startChar = old.column ∧ new.range.endChar = old.column + 1
  colored : isColored old.styled = true →
    new.range.style.trace = old.range.style.trace ++ [.bracket] ∧
      new.range.style.active = old.range.style.trace.length ∧
        ∃ color, new.range.style = old.range.style.withBracket color

theorem Becomes.same {x : Held} (h : isColored x.styled = false) : Becomes x x where
  place := rfl
  point := rfl
  endLine := rfl
  kept _ := rfl
  alone hcolored := absurd hcolored (by simp [h])
  colored hcolored := absurd hcolored (by simp [h])

/-- A part without brackets keeps the styles of its characters. -/
theorem becomes_part {offset : Nat} {part : List CodePoint} (hplain : ∀ c ∈ part, isBracket c = false) :
    List.Forall₂ Becomes (r.heldFrom offset part) (r.part offset part).held := by
  refine List.forall₂_iff_get.mpr ⟨by simp [StyledRange.held, StyledRange.heldFrom,
    StyledRange.part], fun i hi hi' => ?_⟩
  have hlength : i < part.length := by simpa [StyledRange.heldFrom] using hi
  have hnone : isColored (part[i], r.style) = false := by
    simp [isColored, hplain _ (List.getElem_mem hlength)]
  have hold : (r.heldFrom offset part).get ⟨i, hi⟩ = ⟨r, r.startChar + (offset + i : Nat), part[i]⟩ := by
    simp [StyledRange.heldFrom]
  have hnew : (r.part offset part).held.get ⟨i, hi'⟩ =
      ⟨r.part offset part, r.startChar + (offset + i : Nat), part[i]⟩ := by
    simp [StyledRange.held, StyledRange.heldFrom, StyledRange.part, Int.add_assoc]
  rw [hold, hnew]
  exact
    { place := rfl
      point := rfl
      endLine := rfl
      kept := fun _ => rfl
      alone := fun hcolored => absurd hcolored (by simp [Held.styled, hnone])
      colored := fun hcolored => absurd hcolored (by simp [Held.styled, hnone]) }

/-- A bracket becomes a range of its own. -/
theorem becomes_bracket {offset : Nat} {c : CodePoint} {color : Str}
    (safe : isBracketSafe (r.style.trace.map (·.label)) = true) (hbracket : isBracket c = true) :
    List.Forall₂ Becomes (r.heldFrom offset [c])
      { r.part offset [c] with style := r.style.withBracket color }.held := by
  have hcolored : isColored (c, r.style) = true := by simp [isColored, hbracket, safe]
  have hheld : { r.part offset [c] with style := r.style.withBracket color }.held =
      [⟨{ r.part offset [c] with style := r.style.withBracket color }, r.startChar + offset, c⟩] := by
    simp [StyledRange.held, StyledRange.heldFrom, StyledRange.part]
  rw [hheld]
  refine .cons ?_ .nil
  exact
    { place := by simp [Held.place, StyledRange.part]
      point := rfl
      endLine := rfl
      kept := fun hnone => absurd hcolored (by simpa [Held.styled] using hnone)
      alone := fun _ => by simp [StyledRange.part]
      colored := fun _ => ⟨rfl, rfl, color, rfl⟩ }

theorem Cuts.becomes {offset : Nat} {text : List CodePoint} {pieces : List StyledRange}
    (safe : isBracketSafe (r.style.trace.map (·.label)) = true)
    (h : Cuts palette r offset stack text pieces after) :
    List.Forall₂ Becomes (r.heldFrom offset text) (held pieces) := by
  induction h with
  | nil => exact .nil
  | plain ne hplain more ih =>
    rw [StyledRange.heldFrom_append, held_cons]
    exact List.rel_append (becomes_part hplain) ih
  | @bracket offset _ _ _ c rest _ _ hbracket _ _ ih =>
    have hsplit : r.heldFrom offset (c :: rest) =
        r.heldFrom offset [c] ++ r.heldFrom (offset + 1) rest :=
      StyledRange.heldFrom_append offset [c] rest
    rw [hsplit, held_cons]
    exact List.rel_append (becomes_bracket safe hbracket) ih

theorem colorRange_becomes (ne : palette ≠ []) (r : StyledRange) (stack : List Str) :
    ∃ pieces after, colorRange palette stack r = (some pieces, after) ∧
      List.Forall₂ Becomes r.held (held pieces) := by
  unfold colorRange
  by_cases hsafe : r.hasSafeBrackets = true
  · obtain ⟨pieces, after, hpieces, hcuts⟩ :=
      cutBrackets_cuts ne r.text.toList 0 [] stack (Nat.le_refl 0) (by simp)
    rw [if_pos hsafe]
    simp only [StyledRange.hasSafeBrackets, Bool.and_eq_true] at hsafe
    exact ⟨pieces, after, hpieces, hcuts.becomes hsafe.1.2⟩
  · rw [if_neg hsafe]
    refine ⟨[r], stack, rfl, ?_⟩
    have hheld : held [r] = r.held := by simp [held]
    rw [hheld]
    refine List.forall₂_same.mpr fun x hx => .same ?_
    have hx' : x.styled ∈ r.characters := by
      have hmem := List.mem_map_of_mem (f := Held.styled) hx
      rwa [StyledRange.held, StyledRange.heldFrom_styled] at hmem
    exact StyledRange.not_isColored (by simpa using hsafe) _ hx'

theorem colorBrackets_becomes (ne : palette ≠ []) (ranges : List StyledRange) :
    ∀ stack, ∃ out after, colorBrackets palette stack ranges = (some out, after) ∧
      List.Forall₂ Becomes (held ranges) (held out) := by
  induction ranges with
  | nil =>
    intro stack
    exact ⟨[], stack, rfl, .nil⟩
  | cons r ranges ih =>
    intro stack
    obtain ⟨own, middle, hown, hfirst⟩ := colorRange_becomes ne r stack
    obtain ⟨rest, after, hrest, hmore⟩ := ih middle
    refine ⟨own ++ rest, after, colorBrackets_cons hown hrest, ?_⟩
    rw [held_cons, held_append]
    exact List.rel_append hfirst hmore

/-- No character moves. -/
theorem map_place_of_becomes {xs ys : List Held} (h : List.Forall₂ Becomes xs ys) :
    ys.map Held.place = xs.map Held.place := by
  induction h with
  | nil => rfl
  | cons hx _ ih => rw [List.map_cons, List.map_cons, hx.place, ih]

/-! ### Characters in like styles -/

/-- A way to compare styles that sees what coloring a bracket asks for. -/
structure Compares (same : ResolvedStyle → ResolvedStyle → Prop) : Prop where
  trace : ∀ {a b}, same a b → a.trace = b.trace
  foreground : ∀ {a b}, same a b → a.foreground = b.foreground
  withBracket : ∀ {a b} color, same a b → same (a.withBracket color) (b.withBracket color)

theorem compares_eq : Compares (· = ·) where
  trace h := by rw [h]
  foreground h := by rw [h]
  withBracket _ h := by rw [h]

theorem compares_agrees : Compares fun a b => a.agrees b = true where
  trace h := (ResolvedStyle.agrees_iff.mp h).2.2.2.1
  foreground h := (ResolvedStyle.agrees_iff.mp h).1
  withBracket color h := by
    obtain ⟨-, hfont, hsource, htrace, -⟩ := ResolvedStyle.agrees_iff.mp h
    simp [ResolvedStyle.agrees_iff, ResolvedStyle.withBracket, hfont, hsource, htrace]

section
variable {same : ResolvedStyle → ResolvedStyle → Prop} {x y x' : StyledChar}
  {xs ys xs' : List StyledChar} {next : List Str}

theorem recolorStep_alike (hsame : Compares same) (h : x.1 = y.1 ∧ same x.2 y.2)
    (hx : recolorStep palette stack x = (some x', next)) :
    ∃ y', recolorStep palette stack y = (some y', next) ∧ x'.1 = y'.1 ∧ same x'.2 y'.2 := by
  obtain ⟨hchar, hstyle⟩ := h
  have hcolored : isColored y = isColored x := by
    simp [isColored, hchar, hsame.trace hstyle]
  rw [recolorStep] at hx ⊢
  rw [hcolored, ← hchar, ← hsame.foreground hstyle]
  by_cases h : isColored x = true
  · rw [if_pos h] at hx ⊢
    rcases hstep : bracketStep palette x.2.foreground stack x.1 with ⟨_ | color, after⟩
    · simp [hstep] at hx
    · rw [hstep] at hx
      cases hx
      exact ⟨_, rfl, rfl, hsame.withBracket color hstyle⟩
  · rw [if_neg h] at hx ⊢
    cases hx
    exact ⟨y, rfl, hchar, hstyle⟩

/-- Like characters are colored alike. -/
theorem recolor_alike (hsame : Compares same)
    (h : List.Forall₂ (fun x y : StyledChar => x.1 = y.1 ∧ same x.2 y.2) xs ys) :
    ∀ {stack xs'}, recolor palette stack xs = (some xs', after) →
      ∃ ys', recolor palette stack ys = (some ys', after) ∧
        List.Forall₂ (fun x y : StyledChar => x.1 = y.1 ∧ same x.2 y.2) xs' ys' := by
  induction h with
  | nil =>
    intro stack xs' hxs
    cases hxs
    exact ⟨[], rfl, .nil⟩
  | cons hxy _ ih =>
    intro stack xs' hxs
    rw [recolor] at hxs
    split at hxs
    · cases hxs
    · rename_i x' middle hstep
      obtain ⟨y', hy', halike⟩ := recolorStep_alike hsame hxy hstep
      rcases hrest : recolor palette middle _ with ⟨_ | rest, last⟩
      · rw [hrest] at hxs
        cases hxs
      · rw [hrest] at hxs
        cases hxs
        obtain ⟨ys', hys', hmore⟩ := ih hrest
        exact ⟨y' :: ys', recolor_cons hy' hys', .cons halike hmore⟩

/-- Characters in like styles are colored alike, however they are cut into ranges. -/
theorem SameCharacters.colorBrackets (ne : palette ≠ []) (hsame : Compares same)
    (h : SameCharacters same ranges others) {out out' : List StyledRange} {after' : List Str}
    (hout : colorBrackets palette stack ranges = (some out, after))
    (hout' : colorBrackets palette stack others = (some out', after')) :
    after = after' ∧ SameCharacters same out out' := by
  obtain ⟨_, _, hran, hcharacters⟩ := colorBrackets_characters ne ranges stack
  obtain ⟨_, _, hran', hcharacters'⟩ := colorBrackets_characters ne others stack
  cases hout.symm.trans hran
  cases hout'.symm.trans hran'
  obtain ⟨ys, hys, hstyled⟩ := recolor_alike hsame h.styled hcharacters
  cases hys.symm.trans hcharacters'
  obtain ⟨_, _, hran, hbecomes⟩ := colorBrackets_becomes ne ranges stack
  obtain ⟨_, _, hran', hbecomes'⟩ := colorBrackets_becomes ne others stack
  cases hout.symm.trans hran
  cases hout'.symm.trans hran'
  refine ⟨rfl, ?_, hstyled⟩
  rw [map_place_of_becomes hbecomes, map_place_of_becomes hbecomes', h.places]

end

/-- The bracket pass depends on the characters alone. Where two lists of ranges hold the same
characters at the same places in styles that agree, the pass leaves the same brackets open, gives each
character one style in both, and makes of each character what it is to become. -/
theorem colorBrackets_boundaries (ne : palette ≠ []) (stack : List Str)
    (h : SameCharacters (fun a b => a.agrees b = true) ranges others) :
    ∃ out out' after, colorBrackets palette stack ranges = (some out, after) ∧
      colorBrackets palette stack others = (some out', after) ∧
      SameCharacters (fun a b => a.agrees b = true) out out' ∧
      (SameCharacters (· = ·) ranges others → SameCharacters (· = ·) out out') ∧
      List.Forall₂ Becomes (held ranges) (held out) ∧
      List.Forall₂ Becomes (held others) (held out') := by
  obtain ⟨out, after, hout, hbecomes⟩ := colorBrackets_becomes ne ranges stack
  obtain ⟨out', after', hout', hbecomes'⟩ := colorBrackets_becomes ne others stack
  obtain ⟨rfl, halike⟩ := h.colorBrackets ne compares_agrees hout hout'
  refine ⟨out, out', after, hout, hout', halike, fun heq => ?_, hbecomes, hbecomes'⟩
  exact (heq.colorBrackets ne compares_eq hout hout').2

/-- A call, and the same call cut before its argument and with a range that shows nothing. -/
def callWhole : List StyledRange :=
  [⟨0, 3, 0, 7, "f(x)", ⟨"#D4D4D4", none, .textmate, [.scope "source"], -1, []⟩⟩]

def callInParts : List StyledRange :=
  let style : ResolvedStyle := ⟨"#D4D4D4", none, .textmate, [.scope "source"], -1, []⟩
  [⟨0, 3, 0, 5, "f(", style⟩, ⟨0, 5, 0, 5, "", style⟩, ⟨0, 5, 0, 7, "x)", style⟩]

/-- Inside a brace, both calls are colored alike; the second is in five ranges where the first is in
four. -/
theorem colorBrackets_boundaries_call : standardPalette ≠ [] ∧
    SameCharacters (fun a b => a.agrees b = true) callWhole callInParts ∧
      ∃ out out', colorBrackets standardPalette ["\x7b"] callWhole = (some out, (["\x7b"] : List Str)) ∧
        colorBrackets standardPalette ["\x7b"] callInParts = (some out', (["\x7b"] : List Str)) ∧
        SameCharacters (· = ·) out out' ∧ out.length = 4 ∧ out'.length = 5 := by
  have ne : standardPalette ≠ [] := by decide
  have hplaces : (held callWhole).map Held.place = (held callInParts).map Held.place := by decide
  have hcharacters : characters callInParts = characters callWhole := by decide
  have hequal : SameCharacters (· = ·) callWhole callInParts := by
    refine ⟨hplaces, ?_⟩
    rw [hcharacters]
    exact List.forall₂_same.mpr fun x _ => ⟨rfl, rfl⟩
  have halike : SameCharacters (fun a b => a.agrees b = true) callWhole callInParts :=
    ⟨hplaces, hequal.styled.imp fun x y hxy => ⟨hxy.1, by simp [hxy.2, ResolvedStyle.agrees]⟩⟩
  obtain ⟨out, out', after, hout, hout', -, hsame, -, -⟩ :=
    colorBrackets_boundaries ne ["\x7b"] halike
  have hafter : (colorBrackets standardPalette ["\x7b"] callWhole).2 = ["\x7b"] := by decide
  have hlength : (colorBrackets standardPalette ["\x7b"] callWhole).1.map List.length = some 4 := by
    decide
  have hlength' : (colorBrackets standardPalette ["\x7b"] callInParts).1.map List.length = some 5 := by
    decide
  rw [hout] at hafter hlength
  rw [hout'] at hlength'
  obtain rfl : after = ["\x7b"] := hafter
  exact ⟨ne, halike, out, out', hout, hout', hsame hequal, by simpa using hlength,
    by simpa using hlength'⟩

end Highlighter.Styling

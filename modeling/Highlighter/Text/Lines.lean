import Highlighter.Text.Str

/-! Parts of a text: whether a text occurs in it, and its lines. A line ends at LF, CR, or CR LF, and the last line
may be empty. -/

namespace Highlighter.Text

/-- Whether a text occurs as an unbroken part of another. -/
def occursIn {α : Type} [BEq α] (part : List α) : List α → Bool
  | [] => part.isEmpty
  | c :: rest => part.isPrefixOf (c :: rest) || occursIn part rest

def mentions (s part : Str) : Bool := occursIn part.toList s.toList

section
variable {α : Type} [BEq α] (ret feed : α)

/-- The lines of a text, without their ends. The line being read is given reversed, and whether a return has just
ended a line; a feed that comes then is part of the same end. -/
def linesFrom : Bool → List α → List α → List (List α)
  | _, line, [] => [line.reverse]
  | returned, line, c :: rest =>
    if returned && c == feed then linesFrom false line rest
    else if c == ret || c == feed then line.reverse :: linesFrom (c == ret) [] rest
    else linesFrom false (c :: line) rest

/-- Every line end becomes a single feed. -/
def unifyFrom : Bool → List α → List α
  | _, [] => []
  | returned, c :: rest =>
    if returned && c == feed then unifyFrom false rest
    else if c == ret then feed :: unifyFrom true rest
    else c :: unifyFrom false rest

end

/-- The lines of characters. -/
def linesOf (s : List Char) : List (List Char) := linesFrom '\r' '\n' false [] s

/-- Every line end becomes a single LF. -/
def unifyLineEnds (s : List Char) : List Char := unifyFrom '\r' '\n' false s

section
variable {α : Type} [BEq α] {ret feed : α} {returned : Bool} {line s text : List α}

theorem linesFrom_ne_nil : linesFrom ret feed returned line s ≠ [] := by
  fun_induction linesFrom ret feed returned line s <;> simp_all

theorem intercalate_cons_linesFrom (sep first : List α) :
    sep.intercalate (first :: linesFrom ret feed returned line s) =
      first ++ sep ++ sep.intercalate (linesFrom ret feed returned line s) := by
  obtain ⟨next, rest, h⟩ := List.exists_cons_of_ne_nil (linesFrom_ne_nil (s := s))
  rw [h, List.intercalate_cons_cons]

variable [LawfulBEq α]

/-- Lines with a feed between them are the text again, except for the form of its line ends. -/
theorem intercalate_linesFrom :
    [feed].intercalate (linesFrom ret feed returned line s) = line.reverse ++ unifyFrom ret feed returned s := by
  fun_induction linesFrom ret feed returned line s with
  | case1 returned line => simp [unifyFrom]
  | case2 returned line c rest hfeed ih => rw [ih, unifyFrom, if_pos hfeed]
  | case3 returned line c rest hfeed hbreak ih =>
    rw [intercalate_cons_linesFrom, ih, unifyFrom, if_neg hfeed]
    cases hret : c == ret with
    | true => simp
    | false =>
      have hc : c = feed := by simpa [hret] using hbreak
      simp [hc]
  | case4 returned line c rest hfeed hbreak ih =>
    have hret : (c == ret) = false := by
      rw [Bool.or_eq_true, not_or] at hbreak
      simpa using hbreak.1
    rw [ih, unifyFrom, if_neg hfeed, hret]
    simp

theorem unifyFrom_of_not_mem (h : ret ∉ s) : unifyFrom ret feed false s = s := by
  induction s with
  | nil => rfl
  | cons c rest ih =>
    rw [List.mem_cons, not_or] at h
    have hc : (c == ret) = false := by simpa using Ne.symm h.1
    rw [unifyFrom, hc, ih h.2]
    simp

/-- No line holds what ends a line. -/
theorem not_mem_linesFrom (hline : ret ∉ line ∧ feed ∉ line) (h : text ∈ linesFrom ret feed returned line s) :
    ret ∉ text ∧ feed ∉ text := by
  fun_induction linesFrom ret feed returned line s with
  | case1 returned line =>
    obtain rfl := List.mem_singleton.mp h
    simpa using hline
  | case2 returned line c rest _ ih => exact ih hline h
  | case3 returned line c rest _ _ ih =>
    rcases List.mem_cons.mp h with rfl | h
    · simpa using hline
    · exact ih (by simp) h
  | case4 returned line c rest _ hbreak ih =>
    refine ih ?_ h
    have hc : c ≠ ret ∧ c ≠ feed := by simpa using hbreak
    simp [hline, hc.1.symm, hc.2.symm]

end

theorem intercalate_linesOf (s : List Char) : ['\n'].intercalate (linesOf s) = unifyLineEnds s :=
  intercalate_linesFrom

theorem unifyLineEnds_of_not_mem {s : List Char} (h : '\r' ∉ s) : unifyLineEnds s = s := unifyFrom_of_not_mem h

theorem not_mem_linesOf {s line : List Char} (h : line ∈ linesOf s) : '\r' ∉ line ∧ '\n' ∉ line :=
  not_mem_linesFrom (by simp) h

end Highlighter.Text

namespace Highlighter.Str

def lines (content : Str) : List Str :=
  (Text.linesFrom (.char '\r') (.char '\n') false [] content.toList).map ofList

end Highlighter.Str

import Highlighter.Proofs.Styling.Coloring
import Highlighter.Styling.Overlay

/-! Ranges that divide the lines of a document. Joining characters to runs divides each line into parts
that are not empty, and cutting at brackets divides these parts further. Nothing is lost, repeated or
moved, whatever the tokens say: they only bear on where a line is divided. -/

namespace Highlighter.Styling

open Highlighter.Grammar (Token)
open Highlighter.Semantic (Legend Span)

/-- The ranges, in order, divide the characters of a line from a column on into parts that are not
empty. -/
inductive Divides (line : Int) : Nat → List CodePoint → List StyledRange → Prop
  | nil (column : Nat) : Divides line column [] []
  | cons {column : Nat} {part rest : List CodePoint} {style : ResolvedStyle} {ranges : List StyledRange}
      (ne : part ≠ []) (more : Divides line (column + part.length) rest ranges) :
      Divides line column (part ++ rest) (rangeAt line column part style :: ranges)

/-- The ranges are those of a line: parts of its characters or, if it has none, one range at its
start. -/
inductive CoversLine (line : Int) : List CodePoint → List StyledRange → Prop
  | empty (style : ResolvedStyle) : CoversLine line [] [rangeAt line 0 [] style]
  | divided {text : List CodePoint} {ranges : List StyledRange} (ne : text ≠ [])
      (parts : Divides line 0 text ranges) : CoversLine line text ranges

/-- The ranges are those of lines from a number on. -/
inductive CoversFrom : Nat → List Str → List StyledRange → Prop
  | nil (number : Nat) : CoversFrom number [] []
  | cons {number : Nat} {text : Str} {texts : List Str} {ranges more : List StyledRange}
      (first : CoversLine number text.toList ranges) (rest : CoversFrom (number + 1) texts more) :
      CoversFrom number (text :: texts) (ranges ++ more)

namespace Divides

variable {line : Int} {column : Nat} {text rest : List CodePoint} {ranges more : List StyledRange}

theorem append (h : Divides line column text ranges)
    (h' : Divides line (column + text.length) rest more) :
    Divides line column (text ++ rest) (ranges ++ more) := by
  induction h with
  | nil column => simpa using h'
  | cons ne _ ih =>
    rw [List.append_assoc, List.cons_append]
    refine .cons ne (ih ?_)
    simpa [Nat.add_assoc] using h'

theorem single {style : ResolvedStyle} (ne : text ≠ []) :
    Divides line column text [rangeAt line column text style] := by
  have h : Divides line column (text ++ []) [rangeAt line column text style] := .cons ne (.nil _)
  rwa [List.append_nil] at h

end Divides

/-! ### Runs -/

/-- The ranges are the runs of styled characters from a column on. A run goes on while styles agree with
that of its first character, and no longer. -/
inductive Runs (line : Int) : Nat → List StyledChar → List StyledRange → Prop
  | nil (column : Nat) : Runs line column [] []
  | cons {column : Nat} {c : CodePoint} {style : ResolvedStyle} {same rest : List StyledChar}
      {ranges : List StyledRange} (agree : ∀ x ∈ same, x.2.agrees style = true)
      (differ : ∀ x ∈ rest.head?, x.2.agrees style = false)
      (more : Runs line (column + (same.length + 1)) rest ranges) :
      Runs line column ((c, style) :: (same ++ rest))
        (rangeAt line column (c :: same.map (·.1)) style :: ranges)

section
variable {line : Int} {column : Nat} {cells : List StyledChar} {ranges : List StyledRange}

/-- The run that is being read has its first character and others that agree with it. -/
theorem runsFrom_runs (cells : List StyledChar) :
    ∀ (start : Nat) (c : CodePoint) (style : ResolvedStyle) (same : List StyledChar),
      (∀ x ∈ same, x.2.agrees style = true) →
        Runs line start ((c, style) :: (same ++ cells))
          (runsFrom line start (c :: same.map (·.1)).reverse style cells) := by
  induction cells with
  | nil =>
    intro start c style same agree
    have h : Runs line start ((c, style) :: (same ++ []))
        [rangeAt line start (c :: same.map (·.1)) style] := .cons agree (by simp) (.nil _)
    simpa [runsFrom] using h
  | cons cell cells ih =>
    intro start c style same agree
    obtain ⟨d, next⟩ := cell
    rw [runsFrom]
    by_cases hnext : next.agrees style = true
    · rw [if_pos hnext]
      have hall : ∀ x ∈ same ++ [(d, next)], x.2.agrees style = true := by
        intro x hx
        rcases List.mem_append.mp hx with hx | hx
        · exact agree x hx
        · obtain rfl := List.mem_singleton.mp hx
          exact hnext
      simpa using ih start c style (same ++ [(d, next)]) hall
    · rw [if_neg hnext, List.reverse_reverse]
      refine .cons agree (by simpa using hnext) ?_
      simpa [Nat.add_assoc] using ih (start + (same.length + 1)) d next [] (by simp)

theorem Runs.divides (h : Runs line column cells ranges) :
    Divides line column (cells.map (·.1)) ranges := by
  induction h with
  | nil => exact .nil _
  | @cons column c style same rest ranges _ _ _ ih =>
    have hparts : Divides line column ((c :: same.map (·.1)) ++ rest.map (·.1))
        (rangeAt line column (c :: same.map (·.1)) style :: ranges) :=
      .cons (List.cons_ne_nil _ _) (by simpa using ih)
    simpa using hparts

theorem runs_runs (ne : cells ≠ []) : Runs line 0 cells (runs line cells) := by
  obtain ⟨⟨c, style⟩, cells, rfl⟩ := List.exists_cons_of_ne_nil ne
  exact runsFrom_runs cells 0 c style [] (by simp)

theorem runs_coversLine (cells : List StyledChar) :
    CoversLine line (cells.map (·.1)) (runs line cells) := by
  by_cases h : cells = []
  · obtain rfl := h
    exact .empty emptyLineStyle
  · exact .divided (by simpa using h) (runs_runs h).divides

end

/-! ### Lines -/

@[simp] theorem length_paint {α : Type} (start stop : Int) (v : α) (cells : List α) :
    (paint start stop v cells).length = cells.length := by simp [paint]

theorem length_paintings {α β : Type} (range : β → Int × Int) (value : β → α) (bs : List β)
    (cells : List α) :
    (bs.foldl (fun cells b => paint (range b).1 (range b).2 (value b) cells) cells).length =
      cells.length := by
  induction bs generalizing cells with
  | nil => rfl
  | cons b bs ih => rw [List.foldl_cons, ih, length_paint]

@[simp] theorem length_cellsOf (length : Nat) (tokens : List Token) (spans : List Span) :
    (cellsOf length tokens spans).length = length := by
  have hscopes := length_paintings (fun t : Token => (t.start, t.stop)) (·.scopes) tokens
    (List.replicate length [])
  have hkinds := length_paintings (fun s : Span => (s.start, s.stop)) (fun s => some s.kind) spans
    (List.replicate length none)
  simp only [List.length_replicate] at hscopes hkinds
  rw [cellsOf, List.length_zip, hscopes, hkinds, Nat.min_self]

namespace Overlay

@[simp] theorem length_resolveAll (o : Overlay) (cells : List Cell) :
    (o.resolveAll cells).1.length = cells.length := by
  induction cells generalizing o with
  | nil => rfl
  | cons cell cells ih => simp [resolveAll, ih]

theorem line_coversLine (o : Overlay) (number : Int) (text : Str) (tokens : List Token)
    (spans : List Span) : CoversLine number text.toList (o.line number text tokens spans).1 := by
  have h : CoversLine number _ _ := runs_coversLine
    (text.toList.zip (o.resolveAll (cellsOf text.toList.length tokens spans)).1)
  rwa [List.map_fst_zip (by simp)] at h

theorem linesFrom_coversFrom (o : Overlay) (tokens : List Token) (spans : Nat → List Span)
    (number : Nat) (texts : List Str) :
    CoversFrom number texts (o.linesFrom tokens spans number texts).1 := by
  induction texts generalizing o number with
  | nil => exact .nil number
  | cons text texts ih => exact .cons (o.line_coversLine ..) (ih ..)

end Overlay

/-! ### Brackets -/

section
variable {palette : Palette} {line : Int} {column : Nat} {text : List CodePoint} {style : ResolvedStyle}

theorem part_rangeAt (offset : Nat) (part : List CodePoint) :
    (rangeAt line column text style).part offset part = rangeAt line (column + offset) part style := by
  simp [StyledRange.part, rangeAt]

/-- Cutting a range at its brackets divides its text. -/
theorem Cuts.divides {offset : Nat} {part : List CodePoint} {stack after : List Str}
    {pieces : List StyledRange}
    (h : Cuts palette (rangeAt line column text style) offset stack part pieces after) :
    Divides line (column + offset) part pieces := by
  induction h with
  | nil => exact .nil _
  | plain ne _ _ ih =>
    rw [part_rangeAt]
    exact .cons ne (by simpa [Nat.add_assoc] using ih)
  | @bracket offset _ _ _ c _ _ color _ _ _ ih =>
    have hpiece : { (rangeAt line column text style).part offset [c] with
        style := (rangeAt line column text style).style.withBracket color } =
          rangeAt line (column + offset) [c] (style.withBracket color) := by
      rw [part_rangeAt]
      rfl
    rw [hpiece]
    exact .cons (List.cons_ne_nil c []) (by simpa [Nat.add_assoc] using ih)

variable {ranges : List StyledRange}

/-- Where a line is divided, coloring its brackets divides it further. -/
theorem Divides.colorBrackets (ne : palette ≠ []) (h : Divides line column text ranges) :
    ∀ stack, ∃ out s₁, Styling.colorBrackets palette stack ranges = (some out, s₁) ∧
      Divides line column text out := by
  induction h with
  | nil column => exact fun stack => ⟨[], stack, rfl, .nil column⟩
  | @cons column part rest style ranges hpart _ ih =>
    intro stack
    obtain ⟨own, s₁, hown, hdivides⟩ : ∃ own s₁,
        colorRange palette stack (rangeAt line column part style) = (some own, s₁) ∧
          Divides line column part own := by
      rw [colorRange]
      split
      · obtain ⟨pieces, after, hpieces, hcuts⟩ := cutBrackets_cuts
          (r := rangeAt line column part style) ne part 0 [] stack (Nat.le_refl 0) (by simp)
        exact ⟨pieces, after, by simpa [rangeAt] using hpieces, by simpa using hcuts.divides⟩
      · exact ⟨_, stack, rfl, .single hpart⟩
    obtain ⟨others, s₂, hothers, hmore⟩ := ih s₁
    exact ⟨own ++ others, s₂, colorBrackets_cons hown hothers, hdivides.append hmore⟩

theorem CoversLine.colorBrackets (ne : palette ≠ []) (h : CoversLine line text ranges)
    (stack : List Str) : ∃ out s₁, Styling.colorBrackets palette stack ranges = (some out, s₁) ∧
      CoversLine line text out := by
  cases h with
  | empty style => exact ⟨_, stack, colorBrackets_cons rfl rfl, .empty style⟩
  | divided hne parts =>
    obtain ⟨out, s₁, h, hdivides⟩ := parts.colorBrackets ne stack
    exact ⟨out, s₁, h, .divided hne hdivides⟩

theorem CoversFrom.colorBrackets (ne : palette ≠ []) {number : Nat} {texts : List Str}
    (h : CoversFrom number texts ranges) : ∀ stack, ∃ out s₁,
      Styling.colorBrackets palette stack ranges = (some out, s₁) ∧ CoversFrom number texts out := by
  induction h with
  | nil number => exact fun stack => ⟨[], stack, rfl, .nil number⟩
  | cons first _ ih =>
    intro stack
    obtain ⟨own, s₁, hown, hfirst⟩ := first.colorBrackets ne stack
    obtain ⟨others, s₂, hothers, hrest⟩ := ih s₁
    exact ⟨own ++ others, s₂, colorBrackets_append hown hothers, .cons hfirst hrest⟩

end

/-! ### Documents -/

/-- A range comes before another: on an earlier line, or on the same one and ending where the other
begins or before. -/
def StyledRange.Precedes (a b : StyledRange) : Prop :=
  a.startLine < b.startLine ∨ a.startLine = b.startLine ∧ a.endChar ≤ b.startChar

def rangesOn (line : Int) (ranges : List StyledRange) : List StyledRange :=
  ranges.filter (·.startLine == line)

/-- Ranges divide a document: they come in order, those of each line are parts of it, and line by line
their texts are the document's, whose line ends are written as line feeds. -/
structure Partitions (content : Str) (ranges : List StyledRange) : Prop where
  ordered : ranges.Pairwise StyledRange.Precedes
  within : ∀ r ∈ ranges, r.endLine = r.startLine ∧
    ∃ n < content.lines.length, r.startLine = (n : Int)
  lines : ∀ (n : Nat) (text : Str), content.lines[n]? = some text →
    CoversLine n text.toList (rangesOn n ranges)
  unbroken : ∀ text ∈ content.lines, .char '\r' ∉ text.toList ∧ .char '\n' ∉ text.toList
  joined : [CodePoint.char '\n'].intercalate ((List.range content.lines.length).map fun (n : Nat) =>
    (rangesOn n ranges).flatMap (·.text.toList)) =
    Text.unifyFrom (.char '\r') (.char '\n') false content.toList

section
variable {line : Int} {column number : Nat} {text : List CodePoint} {texts : List Str}
  {ranges : List StyledRange} {r : StyledRange}

theorem Divides.mem (h : Divides line column text ranges) (hr : r ∈ ranges) :
    r.startLine = line ∧ r.endLine = line ∧ (column : Int) ≤ r.startChar := by
  induction h with
  | nil column => cases hr
  | cons _ _ ih =>
    rcases List.mem_cons.mp hr with rfl | hr
    · exact ⟨rfl, rfl, Int.le_refl _⟩
    · obtain ⟨hstart, hend, hle⟩ := ih hr
      exact ⟨hstart, hend, by omega⟩

theorem Divides.pairwise (h : Divides line column text ranges) :
    ranges.Pairwise StyledRange.Precedes := by
  induction h with
  | nil column => exact .nil
  | cons _ more ih =>
    refine .cons (fun r hr => .inr ?_) ih
    obtain ⟨hstart, -, hle⟩ := more.mem hr
    exact ⟨hstart.symm, by simpa [rangeAt] using hle⟩

theorem Divides.text_eq (h : Divides line column text ranges) :
    ranges.flatMap (·.text.toList) = text := by
  induction h with
  | nil column => rfl
  | cons _ _ ih => rw [List.flatMap_cons, ih, rangeAt]

theorem CoversLine.mem (h : CoversLine line text ranges) (hr : r ∈ ranges) :
    r.startLine = line ∧ r.endLine = line := by
  cases h with
  | empty style =>
    obtain rfl := List.mem_singleton.mp hr
    exact ⟨rfl, rfl⟩
  | divided _ parts => exact ⟨(parts.mem hr).1, (parts.mem hr).2.1⟩

theorem CoversLine.pairwise (h : CoversLine line text ranges) :
    ranges.Pairwise StyledRange.Precedes := by
  cases h with
  | empty style => exact List.pairwise_singleton _ _
  | divided _ parts => exact parts.pairwise

theorem CoversLine.text_eq (h : CoversLine line text ranges) :
    ranges.flatMap (·.text.toList) = text := by
  cases h with
  | empty style => simp [rangeAt]
  | divided _ parts => exact parts.text_eq

theorem CoversFrom.mem (h : CoversFrom number texts ranges) (hr : r ∈ ranges) :
    r.endLine = r.startLine ∧ ∃ k < texts.length, r.startLine = ((number + k : Nat) : Int) := by
  induction h with
  | nil number => cases hr
  | @cons number text texts _ _ first _ ih =>
    rcases List.mem_append.mp hr with hr | hr
    · obtain ⟨hstart, hend⟩ := first.mem hr
      exact ⟨by rw [hstart, hend], 0, by simp, by simpa using hstart⟩
    · obtain ⟨hline, k, hk, hstart⟩ := ih hr
      exact ⟨hline, k + 1, by simpa using hk, by rw [hstart]; congr 1; omega⟩

theorem CoversFrom.pairwise (h : CoversFrom number texts ranges) :
    ranges.Pairwise StyledRange.Precedes := by
  induction h with
  | nil number => exact .nil
  | cons first rest ih =>
    refine List.pairwise_append.mpr ⟨first.pairwise, ih, fun a ha b hb => .inl ?_⟩
    obtain ⟨-, k, -, hb⟩ := rest.mem hb
    rw [(first.mem ha).1, hb]
    omega

/-- The ranges of a first line are those that begin on it. -/
theorem CoversLine.rangesOn_append (first : CoversLine number text ranges)
    (rest : CoversFrom (number + 1) texts more) : rangesOn number (ranges ++ more) = ranges := by
  have hall : rangesOn number ranges = ranges :=
    List.filter_eq_self.mpr fun r hr => by simp [(first.mem hr).1]
  have hnone : rangesOn number more = [] := List.filter_eq_nil_iff.mpr fun r hr => by
    obtain ⟨-, k, -, hstart⟩ := rest.mem hr
    rw [hstart, beq_iff_eq]
    omega
  rw [rangesOn, List.filter_append]
  change rangesOn number ranges ++ rangesOn number more = ranges
  rw [hall, hnone, List.append_nil]

/-- The ranges of later lines are not on the first one. -/
theorem CoversLine.rangesOn_append_later (first : CoversLine number text ranges)
    (more : List StyledRange) (k : Nat) :
    rangesOn (number + (k + 1) : Nat) (ranges ++ more) = rangesOn (number + 1 + k : Nat) more := by
  have hnone : rangesOn (number + (k + 1) : Nat) ranges = [] :=
    List.filter_eq_nil_iff.mpr fun r hr => by
      rw [(first.mem hr).1, beq_iff_eq]
      omega
  have hnumber : number + (k + 1) = number + 1 + k := by omega
  rw [rangesOn, List.filter_append]
  change rangesOn (number + (k + 1) : Nat) ranges ++ rangesOn (number + (k + 1) : Nat) more = _
  rw [hnone, List.nil_append, hnumber]

/-- The ranges of one line are those that begin on it. -/
theorem CoversFrom.coversLine (h : CoversFrom number texts ranges) :
    ∀ {k : Nat} {text : Str}, texts[k]? = some text →
      CoversLine (number + k : Nat) text.toList (rangesOn (number + k : Nat) ranges) := by
  induction h with
  | nil number => intro k text hk; cases hk
  | @cons number own texts ranges more first rest ih =>
    intro k text hk
    cases k with
    | zero =>
      obtain rfl : own = text := by simpa using hk
      rw [Nat.add_zero, first.rangesOn_append rest]
      exact first
    | succ k =>
      rw [first.rangesOn_append_later more k, Nat.add_comm k 1, ← Nat.add_assoc]
      exact ih (by simpa using hk)

theorem CoversLine.ne_nil (h : CoversLine line text ranges) : ranges ≠ [] := by
  cases h with
  | empty style => exact List.cons_ne_nil _ _
  | divided ne parts =>
    cases parts with
    | nil => exact absurd rfl ne
    | cons _ _ => exact List.cons_ne_nil _ _

end

theorem CoversFrom.partitions {content : Str} {ranges : List StyledRange}
    (h : CoversFrom 0 content.lines ranges) : Partitions content ranges where
  ordered := h.pairwise
  within r hr := by simpa using h.mem hr
  lines n text hn := by simpa using h.coversLine hn
  unbroken text htext := by
    obtain ⟨line, hline, rfl⟩ := List.mem_map.mp htext
    exact Text.not_mem_linesFrom (by simp) hline
  joined := by
    have hlines : (List.range content.lines.length).map (fun (n : Nat) =>
        (rangesOn n ranges).flatMap (·.text.toList)) = content.lines.map Str.toList := by
      apply List.ext_getElem (by simp)
      intro n hn hn'
      have hcovers := h.coversLine (List.getElem?_eq_getElem (by simpa using hn'))
      simpa using hcovers.text_eq
    rw [hlines, Str.lines, List.map_map]
    exact (congrArg _ (List.map_id _)).trans Text.intercalate_linesFrom

namespace Overlay

/-- The ranges of a document before its brackets are colored. -/
def plainRanges (o : Overlay) (content : Str) (tokens : List Token) (data : List Int)
    (legend : Option Legend) (utf16 : Bool) : List StyledRange :=
  let texts := content.lines
  let spans := Semantic.decode legend (if utf16 then some texts else none) data
  ({ o with known := [] }.lines texts tokens (Semantic.onLine spans)).1

/-- The brackets of a document can all be colored, and its ranges are those of its lines. -/
theorem document_coversFrom (o : Overlay) (content : Str) (tokens : List Token) (data : List Int)
    (legend : Option Legend) (utf16 : Bool) :
    (colorBrackets standardPalette [] (o.plainRanges content tokens data legend utf16)).1 =
        some (o.document content tokens data legend utf16).1 ∧
      CoversFrom 0 content.lines (o.document content tokens data legend utf16).1 := by
  have hplain : CoversFrom 0 content.lines
      (o.plainRanges content tokens data legend utf16) := linesFrom_coversFrom ..
  have ne : standardPalette ≠ [] := List.cons_ne_nil _ _
  obtain ⟨out, stack, hout, hcovers⟩ := hplain.colorBrackets ne []
  have hdocument : (o.document content tokens data legend utf16).1 = out := by
    change ((colorBrackets standardPalette []
      (o.plainRanges content tokens data legend utf16)).1).getD _ = out
    rw [hout]
    rfl
  rw [hdocument, hout]
  exact ⟨rfl, hcovers⟩

/-- The brackets of a document can all be colored, and its ranges divide it: whatever the theme, the
tokens and the numbers of the semantic encoding are. -/
theorem document_partitions (o : Overlay) (content : Str) (tokens : List Token)
    (data : List Int) (legend : Option Legend) (utf16 : Bool) :
    (colorBrackets standardPalette [] (o.plainRanges content tokens data legend utf16)).1 =
        some (o.document content tokens data legend utf16).1 ∧
      Partitions content (o.document content tokens data legend utf16).1 := by
  obtain ⟨hcolored, hcovers⟩ := o.document_coversFrom content tokens data legend utf16
  exact ⟨hcolored, hcovers.partitions⟩

end Overlay

end Highlighter.Styling

import Highlighter.Proofs.Page.Gaps
import Mathlib.Algebra.Group.Int.Defs
import Mathlib.Data.Int.Order.Basic
import Mathlib.Data.List.Pairwise
import Mathlib.Data.Nat.Basic
import Mathlib.Order.Basic

/-! What the page of two versions marks. Read back from its markup, the page shows each side line by line, and
on each line the ranges of that side. A range is outlined exactly if the other side looks different somewhere
inside of it, and a line is marked exactly if one of its ranges is outlined. -/

namespace Highlighter.Snapshot

namespace Entry

/-- An entry is shown at a position. -/
def Holds (e : Entry) (line column : Int) : Prop := e.startLine = line ∧ e.startChar ≤ column ∧ column < e.endChar

/-- All that a comparison of two versions looks at. -/
def look (e : Entry) : String × Option String := (e.foreground, e.fontStyle)

end Entry

/-- Entries that lie on one line each, on lines numbered from 0, line by line, and never two at a position. -/
structure Laid (entries : List Entry) : Prop where
  oneLine : ∀ e ∈ entries, 0 ≤ e.startLine ∧ e.endLine = e.startLine
  ascending : entries.Pairwise fun a b => a.startLine ≤ b.startLine
  apart : entries.Pairwise fun a b => ∀ line column, ¬ (a.Holds line column ∧ b.Holds line column)

/-- What entries give a position for its look. -/
def LooksAt (entries : List Entry) (line column : Int) (look : String × Option String) : Prop :=
  ∃ e ∈ entries, e.Holds line column ∧ e.look = look

/-- Some position of an entry has on the other side no entry, or one of another look. -/
def Differs (others : List Entry) (e : Entry) : Prop :=
  ∃ column, e.Holds e.startLine column ∧ ∀ o ∈ others, o.Holds e.startLine column → o.look ≠ e.look

/-- Two versions look the same at every position. -/
def LookAlike (left right : List Entry) : Prop :=
  ∀ line column look, LooksAt left line column look ↔ LooksAt right line column look

section
variable {e o : Entry} {entries left right : List Entry} {line column : Int}

theorem Laid.eq_of_holds (h : Laid entries) (he : e ∈ entries) (ho : o ∈ entries) (hholds : e.Holds line column)
    (hother : o.Holds line column) : e = o := by
  by_contra hne
  have hsymm : Std.Symm fun a b : Entry => ∀ line column, ¬ (a.Holds line column ∧ b.Holds line column) :=
    ⟨fun a b hab line column hboth => hab line column hboth.symm⟩
  exact h.apart.forall he ho hne line column ⟨hholds, hother⟩

/-- Nothing differs on either side exactly if all positions look the same. -/
theorem lookAlike_iff :
    LookAlike left right ↔ (∀ e ∈ left, ¬ Differs right e) ∧ ∀ e ∈ right, ¬ Differs left e := by
  -- what a position looks like on one side it looks like on the other, if nothing differs there
  have hlooks {left right : List Entry} (h : ∀ e ∈ left, ¬ Differs right e) {line column : Int}
      {look : String × Option String} (hlook : LooksAt left line column look) :
      LooksAt right line column look := by
    obtain ⟨e, he, ⟨rfl, hcolumn⟩, rfl⟩ := hlook
    by_contra hnone
    exact h e he ⟨column, ⟨rfl, hcolumn⟩, fun o ho hholds hsame => hnone ⟨o, ho, hholds, hsame⟩⟩
  have hsame {left right : List Entry}
      (h : ∀ line column look, LooksAt left line column look → LooksAt right line column look) :
      ∀ e ∈ left, ¬ Differs right e := by
    rintro e he ⟨column, hholds, hdiffers⟩
    obtain ⟨o, ho, hother, hlook⟩ := h _ _ _ ⟨e, he, hholds, rfl⟩
    exact hdiffers o ho hother hlook
  constructor
  · exact fun h => ⟨hsame fun line column look => (h line column look).mp,
      hsame fun line column look => (h line column look).mpr⟩
  · exact fun h line column look => ⟨hlooks h.1, hlooks h.2⟩

end

end Highlighter.Snapshot

namespace Highlighter.Page

open Highlighter.Snapshot (Differs Entry Laid LookAlike)

section
variable {e o : Entry} {entries others : List Entry} {n count : Nat} {column first : Int} {p : Int → Bool}

theorem anyColumn_iff : anyColumn p count first = true ↔
    ∃ column, first ≤ column ∧ column < first + count ∧ p column = true := by
  induction count generalizing first with
  | zero =>
    simp [anyColumn]
    omega
  | succ count ih =>
    rw [anyColumn, Bool.or_eq_true, ih]
    constructor
    · rintro (hfirst | ⟨column, hlow, hhigh, hcolumn⟩)
      · exact ⟨first, by omega, by omega, hfirst⟩
      · exact ⟨column, by omega, by omega, hcolumn⟩
    · rintro ⟨column, hlow, hhigh, hcolumn⟩
      rcases hlow.eq_or_lt with rfl | hlow
      · exact .inl hcolumn
      · exact .inr ⟨column, by omega, by omega, hcolumn⟩

theorem mem_entriesOn : e ∈ entriesOn entries n ↔ e ∈ entries ∧ e.startLine = n := by
  simp [entriesOn]

theorem entryAt?_eq_some (h : Laid others) :
    entryAt? (entriesOn others n) column = some o ↔ o ∈ others ∧ o.Holds n column := by
  have hholds (e : Entry) (he : e ∈ entriesOn others n) :
      (decide (e.startChar ≤ column) && decide (column < e.endChar)) = true ↔ e.Holds n column := by
    rw [Bool.and_eq_true, decide_eq_true_eq, decide_eq_true_eq, Entry.Holds,
      and_iff_right (mem_entriesOn.mp he).2]
  constructor
  · intro hfound
    have hmem := List.mem_of_find?_eq_some hfound
    have hcolumn := List.find?_some hfound
    exact ⟨(mem_entriesOn.mp hmem).1, (hholds o hmem).mp hcolumn⟩
  · rintro ⟨ho, hline, hcolumn⟩
    have hmem := mem_entriesOn.mpr ⟨ho, hline⟩
    obtain ⟨found, hfound⟩ : ∃ found, entryAt? (entriesOn others n) column = some found :=
      Option.isSome_iff_exists.mp (List.find?_isSome.mpr ⟨o, hmem, (hholds o hmem).mpr ⟨hline, hcolumn⟩⟩)
    have hother := List.mem_of_find?_eq_some hfound
    have hcolumn' := List.find?_some hfound
    rw [hfound, h.eq_of_holds ho (mem_entriesOn.mp hother).1 ⟨hline, hcolumn⟩ ((hholds found hother).mp hcolumn')]

theorem isChanged_iff (h : Laid others) (he : e.startLine = n) :
    isChanged (entriesOn others n) e = true ↔ Differs others e := by
  have hlook (o : Entry) : looksEqual e o = true ↔ o.look = e.look := by
    rw [looksEqual, Bool.and_eq_true, beq_iff_eq, beq_iff_eq, Entry.look, Entry.look, Prod.mk.injEq]
    exact ⟨fun h => ⟨h.1.symm, h.2.symm⟩, fun h => ⟨h.1.symm, h.2.symm⟩⟩
  rw [isChanged, anyColumn_iff, Differs]
  refine exists_congr fun column => ?_
  have hcolumn : e.startChar ≤ column ∧ column < e.startChar + (e.endChar - e.startChar).toNat ↔
      e.Holds e.startLine column := by
    rw [Entry.Holds]
    omega
  rw [← and_assoc, hcolumn, he]
  refine and_congr_right fun _ => ?_
  -- the other version holds the column once at most
  cases hfound : entryAt? (entriesOn others n) column with
  | none =>
    refine ⟨fun _ o ho hholds => ?_, fun _ => rfl⟩
    rw [(entryAt?_eq_some h).mpr ⟨ho, hholds⟩] at hfound
    cases hfound
  | some o =>
    obtain ⟨ho, hholds⟩ := (entryAt?_eq_some h).mp hfound
    rw [Bool.not_eq_true', Bool.eq_false_iff, Ne, hlook]
    exact ⟨fun hne o' ho' hholds' => h.eq_of_holds ho ho' hholds hholds' ▸ hne, fun hall => hall o ho hholds⟩

end

/-! ### Lines of spans -/

/-- How many spans are open after an item. -/
def depthAfter (depth : Nat) : Item → Nat
  | .character _ => depth
  | .tag inside => if inside.head? == some '/' then depth - 1 else depth + 1

/-- The lines of preformatted text, given how many spans are open. An end of line inside of a span belongs to
the span. -/
def linesFrom : Nat → List Item → List (List Item)
  | _, [] => [[]]
  | depth, x :: rest =>
    match linesFrom (depthAfter depth x) rest with
    | [] => [[x]]
    | line :: lines => if depth == 0 && x == .character '\n' then [] :: line :: lines else (x :: line) :: lines

/-- Items that part no lines where at least so many spans are open, and leave as many open. -/
def Inline (least : Nat) (xs : List Item) : Prop :=
  ∀ depth ≥ least, ∀ rest line lines, linesFrom depth rest = line :: lines →
    linesFrom depth (xs ++ rest) = (xs ++ line) :: lines

section
variable {xs ys : List Item} {least : Nat} {s inside : List Char}

theorem Inline.nil : Inline least [] := fun _ _ _ _ _ h => h

theorem Inline.append (hxs : Inline least xs) (hys : Inline least ys) : Inline least (xs ++ ys) := by
  intro depth hdepth rest line lines h
  rw [List.append_assoc, hxs depth hdepth _ _ _ (hys depth hdepth _ _ _ h), List.append_assoc]

theorem Inline.mono {most : Nat} (h : Inline least xs) (hmost : least ≤ most) : Inline most xs :=
  fun depth hdepth => h depth (hmost.trans hdepth)

/-- Text stays on its line inside of a span, and outside of spans if it has no end of line. -/
theorem Inline.text (h : least = 0 → '\n' ∉ s) : Inline least (s.map .character) := by
  induction s with
  | nil => exact .nil
  | cons c s ih =>
    intro depth hdepth rest line lines hrest
    have htext := ih (fun hzero hmem => h hzero (List.mem_cons_of_mem _ hmem)) depth hdepth rest line lines hrest
    have hstays : (depth == 0 && Item.character c == .character '\n') = false := by
      rw [Bool.and_eq_false_iff, beq_eq_false_iff_ne, beq_eq_false_iff_ne]
      by_contra hboth
      rw [not_or, not_not, not_not] at hboth
      obtain ⟨rfl, hc⟩ := hboth
      cases hc
      exact h (Nat.le_zero.mp hdepth) List.mem_cons_self
    rw [List.map_cons, List.cons_append, linesFrom, depthAfter, htext]
    simp [hstays]

/-- A span stays on its line. -/
theorem Inline.span (hopen : inside.head? ≠ some '/') (h : Inline 1 xs) :
    Inline 0 (.tag inside :: xs ++ [.tag "/span".toList]) := by
  intro depth _ rest line lines hrest
  have hclose : linesFrom (depth + 1) (.tag "/span".toList :: rest) = (.tag "/span".toList :: line) :: lines := by
    have hafter : depthAfter (depth + 1) (.tag "/span".toList) = depth := by simp [depthAfter]
    rw [linesFrom, hafter, hrest]
    simp
  have hcontent := h (depth + 1) (Nat.le_add_left _ _) _ _ _ hclose
  have hafter : depthAfter depth (.tag inside) = depth + 1 := by simp [depthAfter, hopen]
  have hsplit : (Item.tag inside :: xs ++ [.tag "/span".toList]) ++ rest =
      .tag inside :: (xs ++ .tag "/span".toList :: rest) := by simp
  rw [hsplit, linesFrom, hafter, hcontent]
  simp

/-- Lines with ends of lines between them are told apart. -/
theorem linesFrom_intercalate : ∀ {lines : List (List Item)}, lines ≠ [] → (∀ line ∈ lines, Inline 0 line) →
    linesFrom 0 ([Item.character '\n'].intercalate lines) = lines
  | [], hnil, _ => absurd rfl hnil
  | [line], _, h => by
    have hline := h line List.mem_cons_self 0 (Nat.le_refl _) [] [] [] rfl
    simpa using hline
  | line :: next :: more, _, h => by
    obtain ⟨hline, hmore⟩ := List.forall_mem_cons.mp h
    have ih := linesFrom_intercalate (List.cons_ne_nil next more) hmore
    have hbreak : linesFrom 0 (.character '\n' :: [Item.character '\n'].intercalate (next :: more)) =
        [] :: next :: more := by
      rw [linesFrom, depthAfter, ih]
      rfl
    have hall := hline 0 (Nat.le_refl _) _ _ _ hbreak
    rw [List.intercalate_cons_cons]
    simpa using hall

end

/-! ### What is seen of a line -/

/-- A range as a page shows it. -/
structure SeenRange where
  values : List (List Char × List Char)
  outlined : Bool

/-- A line of one side as a page shows it. -/
structure SeenLine where
  marked : Bool
  ranges : List SeenRange

/-- Whether a tag is in a class. -/
def isOf (cls : String) (tag : List Char × List (List Char × List Char)) : Bool :=
  tag.2.contains ("class".toList, cls.toList)

def seenLine (xs : List Item) : SeenLine :=
  let spans := ((tags xs).map readTag).filter (·.1 == "span".toList)
  { marked := spans.any (isOf "diff-line")
    ranges := (spans.filter fun t => !isOf "diff-line" t).map fun t =>
      { values := t.2.filter (·.1 != "class".toList), outlined := isOf "diff-changed" t } }

/-- What follows the first element of a name. -/
def afterElement (name : String) (xs : List Item) : List Item :=
  (xs.dropWhile (· != .tag ('/' :: name.toList))).drop 1

/-- The lines of the two sides of a page. -/
def seenLeft (markup : List Char) : List SeenLine := (linesFrom 0 (element "pre" (items markup))).map seenLine

def seenRight (markup : List Char) : List SeenLine :=
  (linesFrom 0 (element "pre" (afterElement "pre" (items markup)))).map seenLine

/-! ### Lines as they are read -/

/-- What the span of an entry in a class is read as. -/
def classItems (cls : String) (e : Entry) : List Item :=
  .tag (openingTag (("class", cls.toList) :: entryAttributes e)) :: (escape e.text.toList).map .character ++
    [.tag "/span".toList]

def spansItems (other : List Entry) (column : Int) : List Entry → List Item
  | [] => []
  | e :: rest => (List.replicate (e.startChar - column).toNat ' ').map .character ++
      classItems (changeClass other e) e ++ spansItems other e.endChar rest

def lineItems (line other : List Entry) : List Item :=
  if line.any (isChanged other) then
    .tag (openingTag [("class", "diff-line".toList)]) :: spansItems other 0 line ++ [.tag "/span".toList]
  else spansItems other 0 line

section
variable {e : Entry} {line other entries others : List Entry} {column : Int} {cls name : String} {count : Nat}
  {xs : List Item}

theorem isAttributeName_of_mem_classed :
    ∀ a ∈ ("class", cls.toList) :: entryAttributes e, isAttributeName a.1 = true :=
  List.forall_mem_cons.mpr ⟨(by decide : isAttributeName "class" = true), isAttributeName_of_mem⟩

theorem reads_classItems (cls : String) (e : Entry) : Reads (entrySpan cls e) (classItems cls e) :=
  reads_span isAttributeName_of_mem_classed (.text fun h => (unmarked_escape h).1 rfl)

theorem reads_spansItems (other : List Entry) (column : Int) (line : List Entry) :
    Reads (filledSpans other column line) (spansItems other column line) := by
  induction line generalizing column with
  | nil => exact .nil
  | cons e rest ih =>
    refine ((Reads.text fun h => ?_).append (reads_classItems _ e)).append (ih e.endChar)
    exact absurd (List.eq_of_mem_replicate h) (by decide)

theorem reads_lineItems (line other : List Entry) : Reads (filledLine line other) (lineItems line other) := by
  unfold filledLine lineItems
  split
  · exact reads_span (List.forall_mem_singleton.mpr (by decide)) (reads_spansItems other 0 line)
  · exact reads_spansItems other 0 line

theorem head?_openingTag (attributes : List (String × List Char)) : (openingTag attributes).head? ≠ some '/' := by
  have hfirst : "span".toList = ['s', 'p', 'a', 'n'] := by decide
  rw [openingTag, hfirst]
  simp

theorem inline_spansItems (other : List Entry) (column : Int) (line : List Entry) :
    Inline 0 (spansItems other column line) := by
  induction line generalizing column with
  | nil => exact .nil
  | cons e rest ih =>
    refine (Inline.append (.text fun _ h => ?_) (.span (head?_openingTag _) (.text nofun))).append (ih e.endChar)
    exact absurd (List.eq_of_mem_replicate h) (by decide)

theorem inline_lineItems (line other : List Entry) : Inline 0 (lineItems line other) := by
  unfold lineItems
  split
  · exact .span (head?_openingTag _) ((inline_spansItems other 0 line).mono (Nat.zero_le 1))
  · exact inline_spansItems other 0 line

/-! ### What a line shows -/

/-- The opening tag of an entry's span, read. -/
def rangeTag (other : List Entry) (e : Entry) : List Char × List (List Char × List Char) :=
  ("span".toList, shown (("class", (changeClass other e).toList) :: entryAttributes e))

theorem readTag_closing : readTag "/span".toList = ("/span".toList, []) := by decide

theorem tags_spansItems (other : List Entry) (column : Int) (line : List Entry) :
    (tags (spansItems other column line)).map readTag =
      line.flatMap fun e => [rangeTag other e, ("/span".toList, [])] := by
  induction line generalizing column with
  | nil => rfl
  | cons e rest ih =>
    rw [spansItems, tags_append, tags_append, tags_characters, List.nil_append, List.map_append, ih,
      List.flatMap_cons, classItems, List.cons_append, tags_tag, tags_append, tags_characters]
    simp only [tags_tag, tags_nil, List.nil_append, List.map_cons, List.map_nil, readTag_closing,
      readTag_openingTag isAttributeName_of_mem_classed]
    rfl

theorem shown_classed (cls : String) (e : Entry) :
    shown (("class", cls.toList) :: entryAttributes e) =
      (if cls.toList.isEmpty then [] else [("class".toList, cls.toList)]) ++ shown (entryAttributes e) := by
  rw [shown, List.filter_cons]
  cases hempty : cls.toList.isEmpty <;> simp [shown]

theorem classless {e : Entry} : ∀ a ∈ shown (entryAttributes e), a.1 ≠ "class".toList := by
  have hnames : ∀ name ∈ (entryAttributes e).map (·.1), name ≠ "class" := by
    have hlist : (entryAttributes e).map (·.1) = ["style", "title", "data-line", "data-start", "data-end",
      "data-source", "data-scopes", "data-foreground", "data-scope-colors", "data-active-index"] := rfl
    rw [hlist]
    decide
  intro a ha
  obtain ⟨b, hb, rfl⟩ := List.mem_map.mp ha
  exact fun heq => hnames b.1 (List.mem_map_of_mem (List.mem_filter.mp hb).1) (String.toList_inj.mp heq)

/-- The classes of a range's span. -/
theorem isOf_shown (cls other : String) (e : Entry) (h : other.toList ≠ []) :
    isOf other ("span".toList, shown (("class", cls.toList) :: entryAttributes e)) = (cls == other) := by
  have hnone : ("class".toList, other.toList) ∉ shown (entryAttributes e) := fun hmem => classless _ hmem rfl
  rw [Bool.eq_iff_iff, isOf, List.contains_iff_mem, shown_classed, beq_iff_eq, List.mem_append,
    or_iff_left hnone]
  cases hempty : cls.toList.isEmpty with
  | true =>
    have hcls : cls.toList = [] := List.isEmpty_iff.mp hempty
    refine ⟨by simp, fun heq => ?_⟩
    rw [heq] at hcls
    exact absurd hcls h
  | false =>
    rw [if_neg Bool.false_ne_true, List.mem_singleton, Prod.mk.injEq]
    exact ⟨fun h => (String.toList_inj.mp h.2).symm, fun h => ⟨rfl, by rw [h]⟩⟩

theorem isOf_rangeTag (other : List Entry) (e : Entry) :
    isOf "diff-line" (rangeTag other e) = false ∧ isOf "diff-changed" (rangeTag other e) = isChanged other e := by
  rw [rangeTag, isOf_shown _ _ _ (by decide), isOf_shown _ _ _ (by decide), changeClass]
  cases isChanged other e <;> decide

theorem values_rangeTag (other : List Entry) (e : Entry) :
    (rangeTag other e).2.filter (·.1 != "class".toList) = shown (entryAttributes e) := by
  have hkept : (shown (entryAttributes e)).filter (·.1 != "class".toList) = shown (entryAttributes e) :=
    List.filter_eq_self.mpr fun a ha => bne_iff_ne.mpr (classless a ha)
  rw [rangeTag, shown_classed, List.filter_append, hkept]
  split <;> simp

theorem spans_flatMap (other line : List Entry) :
    (line.flatMap fun e => [rangeTag other e, ("/span".toList, [])]).filter (·.1 == "span".toList) =
      line.map (rangeTag other) := by
  induction line with
  | nil => rfl
  | cons e rest ih =>
    rw [List.flatMap_cons, List.filter_append, ih, List.map_cons]
    simp [rangeTag]

theorem ranges_map (other line : List Entry) :
    (((line.map (rangeTag other)).filter fun t => !isOf "diff-line" t).map fun t =>
      ({ values := t.2.filter (·.1 != "class".toList), outlined := isOf "diff-changed" t } : SeenRange)) =
        line.map fun e => { values := shown (entryAttributes e), outlined := isChanged other e } := by
  have hall : (line.map (rangeTag other)).filter (fun t => !isOf "diff-line" t) = line.map (rangeTag other) := by
    refine List.filter_eq_self.mpr fun t ht => ?_
    obtain ⟨e, -, rfl⟩ := List.mem_map.mp ht
    rw [(isOf_rangeTag other e).1]
    rfl
  rw [hall, List.map_map]
  refine List.map_congr_left fun e _ => ?_
  rw [Function.comp_apply, values_rangeTag, (isOf_rangeTag other e).2]

/-- A line shows its ranges, with the values that were put into them. -/
theorem seenLine_lineItems (line other : List Entry) : seenLine (lineItems line other) =
    { marked := line.any (isChanged other)
      ranges := line.map fun e => { values := shown (entryAttributes e), outlined := isChanged other e } } := by
  have hunmarked : (line.map (rangeTag other)).any (isOf "diff-line") = false := by
    rw [List.any_eq_false]
    intro t ht
    obtain ⟨e, -, rfl⟩ := List.mem_map.mp ht
    rw [(isOf_rangeTag other e).1]
    exact Bool.false_ne_true
  have hnames : ∀ a ∈ [("class", "diff-line".toList)], isAttributeName a.1 = true :=
    List.forall_mem_singleton.mpr (by decide)
  unfold lineItems seenLine
  cases hmarked : line.any (isChanged other) with
  | false =>
    rw [if_neg Bool.false_ne_true, tags_spansItems]
    dsimp only
    rw [spans_flatMap, hunmarked, ranges_map]
  | true =>
    have htags : (tags (.tag (openingTag [("class", "diff-line".toList)]) :: spansItems other 0 line ++
        [.tag "/span".toList])).map readTag = ("span".toList, [("class".toList, "diff-line".toList)]) ::
          (line.flatMap fun e => [rangeTag other e, ("/span".toList, [])]) ++ [("/span".toList, [])] := by
      rw [List.cons_append, tags_tag, tags_append, List.map_cons, List.map_append, tags_spansItems,
        readTag_openingTag hnames]
      rfl
    have hspans : (("span".toList, [("class".toList, "diff-line".toList)]) ::
        (line.flatMap fun e => [rangeTag other e, ("/span".toList, [])]) ++ [("/span".toList, [])]).filter
          (·.1 == "span".toList) =
            ("span".toList, [("class".toList, "diff-line".toList)]) :: line.map (rangeTag other) := by
      rw [List.cons_append, List.filter_cons_of_pos (by decide), List.filter_append, spans_flatMap]
      simp
    have hmark : isOf "diff-line" ("span".toList, [("class".toList, "diff-line".toList)]) = true := by decide
    rw [if_pos rfl, htags]
    dsimp only
    rw [hspans, List.any_cons, hmark, List.filter_cons_of_neg (by rw [hmark]; decide), ranges_map]
    rfl

/-! ### The sides of a page -/

def sideItems (entries others : List Entry) (lines : Nat) : List Item :=
  [Item.character '\n'].intercalate
    ((List.range lines).map fun n => lineItems (entriesOn entries n) (entriesOn others n))

theorem reads_sideItems (entries others : List Entry) (lines : Nat) :
    Reads (joinLines ((List.range lines).map fun n => filledLine (entriesOn entries n) (entriesOn others n)))
      (sideItems entries others lines) := by
  rw [joinLines_eq]
  exact Reads.intercalate (fun n => reads_lineItems (entriesOn entries n) (entriesOn others n))
    (show Reads ['\n'] (['\n'].map .character) from .text (by decide)) (List.range lines)

/-- The tags of spans are those that open one and the one that closes it. -/
def OfSpans (inside : List Char) : Prop := (∃ attributes, inside = openingTag attributes) ∨ inside = "/span".toList

theorem ofSpans_spansItems {other line : List Entry} {column : Int} :
    ∀ inside ∈ tags (spansItems other column line), OfSpans inside := by
  induction line generalizing column with
  | nil => nofun
  | cons e rest ih =>
    rw [spansItems, tags_append, tags_append, tags_characters, List.nil_append, classItems, List.cons_append,
      tags_tag, tags_append, tags_characters, List.nil_append]
    exact List.forall_mem_append.mpr ⟨List.forall_mem_cons.mpr ⟨.inl ⟨_, rfl⟩,
      List.forall_mem_singleton.mpr (.inr rfl)⟩, ih⟩

theorem ofSpans_lineItems {other line : List Entry} : ∀ inside ∈ tags (lineItems line other), OfSpans inside := by
  unfold lineItems
  split
  · rw [List.cons_append, tags_tag, tags_append]
    exact List.forall_mem_cons.mpr ⟨.inl ⟨_, rfl⟩, List.forall_mem_append.mpr ⟨ofSpans_spansItems,
      List.forall_mem_singleton.mpr (.inr rfl)⟩⟩
  · exact ofSpans_spansItems

/-- No span ends the preformatted text. -/
theorem not_mem_sideItems (entries others : List Entry) (lines : Nat) :
    '/' :: "pre".toList ∉ tags (sideItems entries others lines) := by
  have hnone : tags [Item.character '\n'] = [] := rfl
  rw [sideItems, map_intercalate tags rfl (fun _ _ => tags_append), hnone, intercalate_nil_left]
  intro hmem
  obtain ⟨line, hline, hinside⟩ := List.mem_flatten.mp hmem
  obtain ⟨xs, hxs, rfl⟩ := List.mem_map.mp hline
  obtain ⟨n, -, rfl⟩ := List.mem_map.mp hxs
  rcases ofSpans_lineItems _ hinside with ⟨attributes, hopen⟩ | hclose
  · refine head?_openingTag attributes ?_
    rw [← hopen]
    rfl
  · exact absurd hclose (by decide)

theorem reads_filledColumn (name : String) (entries others : List Entry) (lines : Nat) :
    ∃ before after, tags before = ["div".toList, "h1".toList, "/h1".toList] ∧ tags after = ["/div".toList] ∧
      Reads (filledColumn name entries others lines) (before ++ .tag "pre".toList ::
        (sideItems entries others lines ++ .tag ('/' :: "pre".toList) :: after)) := by
  have hopen : Reads "<div>".toList (items "<div>".toList) := .whole (by decide +kernel)
  have hclose : Reads "</div>\n".toList (items "</div>\n".toList) := .whole (by decide +kernel)
  have hall := ((hopen.append (reads_heading name)).append
    (reads_preformatted (reads_sideItems entries others lines))).append hclose
  refine ⟨items "<div>".toList ++ (.tag "h1".toList :: (escape name.toList).map .character ++
    [.tag ('/' :: "h1".toList)]), items "</div>\n".toList, ?_, by decide +kernel, ?_⟩
  · rw [tags_append, List.cons_append, tags_tag, tags_append, tags_characters]
    decide +kernel
  · unfold filledColumn
    simpa only [List.append_assoc, List.cons_append, List.nil_append] using hall

/-- The items of a page of two versions. -/
theorem items_filledPage (leftName rightName : String) (left right : List Entry) :
    ∃ before between after, "pre".toList ∉ tags before ∧ '/' :: "pre".toList ∉ tags before ∧
      "pre".toList ∉ tags between ∧ items (filledPage leftName rightName left right) =
        before ++ .tag "pre".toList :: (sideItems left right (max (lineCount left) (lineCount right)) ++
          .tag ('/' :: "pre".toList) :: (between ++ .tag "pre".toList ::
            (sideItems right left (max (lineCount left) (lineCount right)) ++
              .tag ('/' :: "pre".toList) :: after))) := by
  have hopen : Reads "<div class=\"columns\">\n".toList (items "<div class=\"columns\">\n".toList) :=
    .whole (by decide +kernel)
  have hclose : Reads "</div>".toList (items "</div>".toList) := .whole (by decide +kernel)
  obtain ⟨beforeLeft, afterLeft, hbeforeLeft, hafterLeft, hleft⟩ :=
    reads_filledColumn leftName left right (max (lineCount left) (lineCount right))
  obtain ⟨beforeRight, afterRight, hbeforeRight, -, hright⟩ :=
    reads_filledColumn rightName right left (max (lineCount left) (lineCount right))
  obtain ⟨before, between, after, hbefore, hbetween, -, hitems⟩ :=
    items_page s!"{leftName} vs {rightName}" (((hopen.append hleft).append hright).append hclose)
  have hcolumns : tags (items "<div class=\"columns\">\n".toList) = ["div class=\"columns\"".toList] := by
    decide +kernel
  refine ⟨before ++ .tag "title".toList :: ((escape (s!"{leftName} vs {rightName}").toList).map .character ++
    .tag ('/' :: "title".toList) :: (between ++ items "<div class=\"columns\">\n".toList ++ beforeLeft)),
    afterLeft ++ beforeRight, afterRight ++ (items "</div>".toList ++ after), ?_, ?_, ?_, ?_⟩
  · simp only [tags_append, tags_tag, tags_characters, hbefore, hbetween, hcolumns, hbeforeLeft]
    decide
  · simp only [tags_append, tags_tag, tags_characters, hbefore, hbetween, hcolumns, hbeforeLeft]
    decide
  · simp only [tags_append, hafterLeft, hbeforeRight]
    decide
  · unfold filledPage
    refine hitems.trans ?_
    simp only [List.append_assoc, List.cons_append]

theorem afterElement_append {name : String} {xs : List Item} (h : '/' :: name.toList ∉ tags xs)
    (rest : List Item) :
    afterElement name (xs ++ .tag ('/' :: name.toList) :: rest) = rest := by
  rw [afterElement, List.dropWhile_append_of_pos (ne_tag_of_not_mem h)]
  simp

/-- What one side of a page shows. -/
def seenSide (entries others : List Entry) (lines : Nat) : List SeenLine :=
  if lines = 0 then [⟨false, []⟩]
  else (List.range lines).map fun n =>
    { marked := (entriesOn entries n).any (isChanged (entriesOn others n))
      ranges := (entriesOn entries n).map fun e =>
        { values := shown (entryAttributes e), outlined := isChanged (entriesOn others n) e } }

theorem seenLine_sideItems (entries others : List Entry) (lines : Nat) :
    (linesFrom 0 (sideItems entries others lines)).map seenLine = seenSide entries others lines := by
  unfold sideItems seenSide
  by_cases hlines : lines = 0
  · subst hlines
    rfl
  · have hinline : ∀ line ∈ (List.range lines).map fun n => lineItems (entriesOn entries n) (entriesOn others n),
        Inline 0 line := by
      intro line hline
      obtain ⟨n, -, rfl⟩ := List.mem_map.mp hline
      exact inline_lineItems _ _
    rw [if_neg hlines, linesFrom_intercalate (by simpa using hlines) hinline, List.map_map]
    exact List.map_congr_left fun n _ => seenLine_lineItems _ _

/-- What the two sides of a page show. -/
theorem seen_filledPage (leftName rightName : String) (left right : List Entry) :
    seenLeft (filledPage leftName rightName left right) =
        seenSide left right (max (lineCount left) (lineCount right)) ∧
      seenRight (filledPage leftName rightName left right) =
        seenSide right left (max (lineCount left) (lineCount right)) := by
  obtain ⟨before, between, after, hbefore, hclosed, hbetween, hitems⟩ :=
    items_filledPage leftName rightName left right
  have hclosed' : '/' :: "pre".toList ∉ tags (before ++ .tag "pre".toList ::
      sideItems left right (max (lineCount left) (lineCount right))) := by
    rw [tags_append, tags_tag, List.mem_append, List.mem_cons]
    have hname : '/' :: "pre".toList ≠ "pre".toList := by decide
    exact not_or.mpr ⟨hclosed, not_or.mpr ⟨hname, not_mem_sideItems _ _ _⟩⟩
  constructor
  · rw [seenLeft, hitems, element_append hbefore, element_tag (not_mem_sideItems _ _ _), seenLine_sideItems]
  · rw [seenRight, hitems, ← List.cons_append, ← List.append_assoc, afterElement_append hclosed',
      element_append hbetween, element_tag (not_mem_sideItems _ _ _), seenLine_sideItems]

/-! ### Marks -/

/-- A range is shown with all its values, and outlined if the other side looks different in it. -/
structure SeenRange.Shows (others : List Entry) (r : SeenRange) (e : Entry) : Prop where
  values : r.values = shown (entryAttributes e)
  outlined : r.outlined = true ↔ Differs others e

/-- The lines of one side show its entries, each where it is, and mark where the other side looks different. -/
structure Marks (lines : List SeenLine) (entries others : List Entry) : Prop where
  complete : ∀ e ∈ entries, ∃ n < lines.length, e.startLine = (n : Int)
  ranges : ∀ n line, lines[n]? = some line →
    List.Forall₂ (SeenRange.Shows others) line.ranges (entriesOn entries n)
  marked : ∀ line ∈ lines, line.marked = true ↔ ∃ r ∈ line.ranges, r.outlined = true

/-- A line without a mark. -/
def SeenLine.Plain (l : SeenLine) : Prop := l.marked = false ∧ ∀ r ∈ l.ranges, r.outlined = false

theorem exists_line (h : Laid entries) (he : e ∈ entries) : ∃ n < lineCount entries, e.startLine = (n : Int) := by
  obtain ⟨hpos, -⟩ := h.oneLine e he
  obtain ⟨front, last, hsplit⟩ := List.eq_nil_or_concat entries |>.resolve_left (List.ne_nil_of_mem he)
  have hle : e.startLine ≤ last.startLine := by
    rw [hsplit, List.concat_eq_append] at he
    rcases List.mem_append.mp he with hfront | hlast
    · have hascending := h.ascending
      rw [hsplit, List.concat_eq_append] at hascending
      exact (List.pairwise_append.mp hascending).2.2 e hfront last List.mem_cons_self
    · rw [List.mem_singleton.mp hlast]
  have hlast : last.endLine = last.startLine :=
    (h.oneLine last (by rw [hsplit]; simp)).2
  have hcount : lineCount entries = (last.endLine + 1).toNat := by
    rw [lineCount, hsplit]
    simp
  exact ⟨e.startLine.toNat, by omega, by omega⟩

theorem eq_nil_of_laid (h : Laid entries) (hcount : lineCount entries ≤ 0) : entries = [] := by
  refine List.eq_nil_iff_forall_not_mem.mpr fun e he => ?_
  obtain ⟨n, hn, -⟩ := exists_line h he
  omega

theorem marks_seenSide (hentries : Laid entries) (hothers : Laid others) (hcount : lineCount entries ≤ count) :
    Marks (seenSide entries others count) entries others := by
  by_cases hzero : count = 0
  · subst hzero
    obtain rfl := eq_nil_of_laid hentries hcount
    refine ⟨nofun, fun n line hline => ?_, fun line hline => ?_⟩
    · obtain rfl := List.mem_singleton.mp (List.mem_of_getElem? hline)
      exact .nil
    · obtain rfl := List.mem_singleton.mp hline
      simp
  · unfold seenSide
    rw [if_neg hzero]
    refine ⟨fun e he => ?_, fun n line hline => ?_, fun line hline => ?_⟩
    · obtain ⟨n, hn, hstart⟩ := exists_line hentries he
      exact ⟨n, by rw [List.length_map, List.length_range]; omega, hstart⟩
    · rw [List.getElem?_map, Option.map_eq_some_iff] at hline
      obtain ⟨m, hm, rfl⟩ := hline
      obtain rfl : n = m := by
        obtain ⟨hn, hm⟩ := List.getElem?_eq_some_iff.mp hm
        rwa [List.getElem_range] at hm
      rw [List.forall₂_map_left_iff, List.forall₂_same]
      exact fun e he => ⟨rfl, isChanged_iff hothers (mem_entriesOn.mp he).2⟩
    · obtain ⟨n, -, rfl⟩ := List.mem_map.mp hline
      simp

theorem plain_seenSide (hentries : Laid entries) (hothers : Laid others) (hcount : lineCount entries ≤ count) :
    (∀ line ∈ seenSide entries others count, line.Plain) ↔ ∀ e ∈ entries, ¬ Differs others e := by
  have hmarks := marks_seenSide hentries hothers hcount
  constructor
  · intro hplain e he hdiffers
    obtain ⟨n, hn, hstart⟩ := hmarks.complete e he
    have hline := List.getElem?_eq_getElem hn
    obtain ⟨i, hi, rfl⟩ := List.getElem_of_mem (mem_entriesOn.mpr ⟨he, hstart⟩)
    have hshows := hmarks.ranges n _ hline
    have hlength : i < (seenSide entries others count)[n].ranges.length := by rwa [hshows.length_eq]
    have houtlined := ((hshows.get hlength hi).outlined).mpr hdiffers
    have hnone := (hplain _ (List.getElem_mem hn)).2 _ (List.getElem_mem hlength)
    exact Bool.false_ne_true (hnone.symm.trans houtlined)
  · intro hsame line hline
    obtain ⟨n, hn, rfl⟩ := List.getElem_of_mem hline
    have hshows := hmarks.ranges n _ (List.getElem?_eq_getElem hn)
    have houtlined : ∀ r ∈ (seenSide entries others count)[n].ranges, r.outlined = false := by
      intro r hr
      obtain ⟨i, hi, rfl⟩ := List.getElem_of_mem hr
      have hlength : i < (entriesOn entries n).length := by rwa [← hshows.length_eq]
      rw [Bool.eq_false_iff]
      exact fun h =>
        hsame _ (mem_entriesOn.mp (List.getElem_mem hlength)).1 ((hshows.get hi hlength).outlined.mp h)
    refine ⟨?_, houtlined⟩
    rw [Bool.eq_false_iff, Ne, hmarks.marked _ hline]
    rintro ⟨r, hr, h⟩
    exact Bool.false_ne_true ((houtlined r hr).symm.trans h)

end

section
variable {leftName rightName : String} {left right : List Entry}

/-- The page of two versions marks exactly their differences. There is one unless a gap is too wide for blanks. -/
theorem comparison_marks (leftName rightName : String) (hleft : Laid left) (hright : Laid right) :
    ((∃ page, comparison leftName rightName left right = .ok page) ↔ Fillable left right) ∧
    ∀ page, comparison leftName rightName left right = .ok page →
      Marks (seenLeft page) left right ∧ Marks (seenRight page) right left ∧
      ((∀ line ∈ seenLeft page ++ seenRight page, line.Plain) ↔ LookAlike left right) := by
  constructor
  · simp only [comparison_eq_ok, exists_and_left, exists_eq, and_true]
  · intro page hpage
    obtain ⟨-, rfl⟩ := comparison_eq_ok.mp hpage
    obtain ⟨hseenLeft, hseenRight⟩ := seen_filledPage leftName rightName left right
    rw [hseenLeft, hseenRight, List.forall_mem_append, plain_seenSide hleft hright (Nat.le_max_left _ _),
      plain_seenSide hright hleft (Nat.le_max_right _ _), Snapshot.lookAlike_iff]
    exact ⟨marks_seenSide hleft hright (Nat.le_max_left _ _), marks_seenSide hright hleft (Nat.le_max_right _ _),
      Iff.rfl⟩

/-- A piece of the first line in a color. -/
def piece (start stop : Int) (text color : String) : Entry where
  startLine := 0
  startChar := start
  endLine := 0
  endChar := stop
  text := text
  foreground := color
  fontStyle := none
  source := "textmate"
  scopes := ["s"]
  scopeColors := [color]
  activeScope := -1

theorem laid_piece (start stop : Int) (text color : String) : Laid [piece start stop text color] where
  oneLine := List.forall_mem_singleton.mpr ⟨Int.le_refl 0, rfl⟩
  ascending := List.pairwise_singleton _ _
  apart := List.pairwise_singleton _ _

theorem laid_pieces (start middle stop : Int) (text next color other : String) :
    Laid [piece start middle text color, piece middle stop next other] where
  oneLine := List.forall_mem_cons.mpr ⟨⟨Int.le_refl 0, rfl⟩, List.forall_mem_singleton.mpr ⟨Int.le_refl 0, rfl⟩⟩
  ascending := List.pairwise_pair.mpr (Int.le_refl 0)
  apart := List.pairwise_pair.mpr fun _ column h => absurd (h.1.2.2.trans_le h.2.2.1) (Int.lt_irrefl column)

/-- A word in one color, and the same word with another color at its end. -/
theorem comparison_marks_word :
    let left := [piece 0 2 "ab" "#111111"]
    let right := [piece 0 1 "a" "#111111", piece 1 2 "b" "#222222"]
    ∃ page, comparison "Snapshot" "Generated" left right = .ok page ∧ Marks (seenLeft page) left right ∧
      Marks (seenRight page) right left ∧ ¬ ∀ line ∈ seenLeft page ++ seenRight page, line.Plain := by
  intro left right
  obtain ⟨hpage, hmarks⟩ := @comparison_marks left right "Snapshot" "Generated"
    (laid_piece 0 2 "ab" "#111111") (laid_pieces 0 1 2 "a" "b" "#111111" "#222222")
  obtain ⟨page, hpage⟩ := hpage.mpr (by decide)
  obtain ⟨hleft, hright, hplain⟩ := hmarks page hpage
  refine ⟨page, hpage, hleft, hright, fun h => ?_⟩
  obtain ⟨e, he, -, hlook⟩ := (hplain.mp h 0 1 ("#222222", none)).mpr
    ⟨piece 1 2 "b" "#222222", by simp [right], ⟨rfl, by decide, by decide⟩, rfl⟩
  obtain rfl := List.mem_singleton.mp he
  exact absurd hlook (by decide)

/-- A piece far to the right, of which the other side has nothing: it has no page to be outlined on. -/
theorem comparison_farPiece :
    let far := piece (10 ^ 30) (10 ^ 30 + 1) "a" "#111111"
    Laid [far] ∧ Laid [] ∧ Differs [] far ∧
      comparison "Snapshot" "Generated" [far] [] = .error .unaddressable := by
  refine ⟨laid_piece _ _ _ _, ⟨nofun, .nil, .nil⟩, ⟨10 ^ 30, ⟨rfl, by decide, by decide⟩, nofun⟩, rfl⟩

end

end Highlighter.Page

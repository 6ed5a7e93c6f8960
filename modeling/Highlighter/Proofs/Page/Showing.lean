import Highlighter.Page.View
import Highlighter.Proofs.Page.Reading
import Highlighter.Proofs.Snapshot.Conversion
import Highlighter.Proofs.Styling.Partition

/-! What the page of a document shows. Whatever the document, the theme and the language server put into
its texts, reading the page gives the lines of the document, a span for each of its ranges with the
values that were put into it, and no other tags than those of the frame. -/

namespace Highlighter.Page

open Highlighter.Grammar (Token)
open Highlighter.Semantic (Legend)
open Highlighter.Snapshot (Entry)
open Highlighter.Styling (CoversFrom Overlay StyledRange rangesOn)
open Highlighter.Validation (Checker)

/-! ### Lines -/

theorem joinLines_eq : ∀ lines : List (List Char), joinLines lines = ['\n'].intercalate lines
  | [] => rfl
  | [line] => by simp [joinLines]
  | line :: next :: rest => by
    rw [joinLines, joinLines_eq (next :: rest), List.intercalate_cons_cons]
    · simp
    · exact List.cons_ne_nil next rest

/-- What is done piece by piece is done between separators. -/
theorem map_intercalate {α β : Type} (f : List α → List β) (nil : f [] = [])
    (append : ∀ a b, f (a ++ b) = f a ++ f b) (separator : List α) :
    ∀ pieces : List (List α),
      f (separator.intercalate pieces) = (f separator).intercalate (pieces.map f)
  | [] => by simpa using nil
  | [piece] => by simp
  | piece :: next :: rest => by
    have ih := map_intercalate f nil append separator (next :: rest)
    rw [List.intercalate_cons_cons, append, append, ih]
    simp [List.intercalate_cons_cons]

theorem intercalate_nil_left {α : Type} :
    ∀ pieces : List (List α), ([] : List α).intercalate pieces = pieces.flatten
  | [] => rfl
  | [piece] => by simp
  | piece :: next :: rest => by
    rw [List.intercalate_cons_cons, intercalate_nil_left (next :: rest)]
    simp

theorem Reads.intercalate {α : Type} {write : α → List Char} {read : α → List Item}
    (h : ∀ a, Reads (write a) (read a)) {separator : List Char} {between : List Item}
    (hseparator : Reads separator between) : ∀ as : List α,
      Reads (separator.intercalate (as.map write)) (between.intercalate (as.map read))
  | [] => .nil
  | [a] => by simpa using h a
  | a :: next :: rest => by
    have ih := Reads.intercalate h hseparator (next :: rest)
    simp only [List.map_cons, List.intercalate_cons_cons] at ih ⊢
    exact ((h a).append hseparator).append ih

/-! ### Spans -/

/-- The attributes of an entry's span, with the values they are made from. -/
def entryAttributes (e : Entry) : List (String × List Char) :=
  [("style", (declarations e).toList), ("title", explanation e),
    ("data-line", (toString e.startLine).toList), ("data-start", (toString e.startChar).toList),
    ("data-end", (toString e.endChar).toList), ("data-source", e.source.toList),
    ("data-scopes", (", ".intercalate e.scopes).toList), ("data-foreground", e.foreground.toList),
    ("data-scope-colors", (",".intercalate e.scopeColors).toList),
    ("data-active-index", (toString e.activeScope).toList)]

theorem isAttributeName_of_mem {e : Entry} :
    ∀ a ∈ entryAttributes e, isAttributeName a.1 = true := by
  have hnames : (entryAttributes e).map (·.1) = ["style", "title", "data-line", "data-start",
    "data-end", "data-source", "data-scopes", "data-foreground", "data-scope-colors",
    "data-active-index"] := rfl
  have hall : ∀ name ∈ (entryAttributes e).map (·.1), isAttributeName name = true := by
    rw [hnames]
    decide
  exact fun a ha => hall a.1 (List.mem_map_of_mem ha)

/-- The tags of a page up to its title, those up to its body, and those after it. -/
def tagsToTitle : List (List Char) :=
  ["!DOCTYPE html", "html", "head", "meta charset=\"utf-8\""].map String.toList

def tagsToBody : List (List Char) := ["style", "/style", "/head", "body"].map String.toList

def tagsToEnd : List (List Char) := ["/body", "/html"].map String.toList

theorem reads_toTitle : ∃ xs, tags xs = tagsToTitle ∧
    Reads "<!DOCTYPE html>\n<html>\n<head>\n<meta charset=\"utf-8\">\n<title>".toList
      (xs ++ [.tag "title".toList]) := by
  have hsplit : "<!DOCTYPE html>\n<html>\n<head>\n<meta charset=\"utf-8\">\n<title>".toList =
      "<!DOCTYPE html>\n<html>\n<head>\n<meta charset=\"utf-8\">\n".toList ++
        ('<' :: "title".toList ++ ['>']) := by decide +kernel
  refine ⟨items "<!DOCTYPE html>\n<html>\n<head>\n<meta charset=\"utf-8\">\n".toList,
    by decide +kernel, ?_⟩
  rw [hsplit]
  exact (Reads.whole (by decide +kernel)).append (.tag (by decide))

/-- A literal is compared with its characters, which is much less work than to compute them. -/
theorem all_of_literal {s : String} {l : List Char} {p : Char → Bool} (h : s = String.ofList l)
    (hl : l.all p = true) : s.toList.all p = true := by rwa [h, String.toList_ofList]

theorem unmarked_styleSheet : '<' ∉ ("\n".intercalate styleSheet).toList := by
  have hall : ("\n".intercalate styleSheet).toList.all (· != '<') = true := by
    rw [String.toList_intercalate]
    simp only [styleSheet, List.map_cons, List.map_nil, List.intercalate_cons_cons,
      List.intercalate_singleton, String.toList_append, List.all_append, Bool.and_eq_true]
    and_intros <;> exact all_of_literal rfl (by decide)
  intro h
  exact absurd (List.all_eq_true.mp hall _ h) (by decide)

theorem reads_toBody : ∃ xs, tags xs = tagsToBody ∧
    Reads ("</title>\n<style>".toList ++ ("\n".intercalate styleSheet).toList ++
      "</style>\n</head>\n<body>\n".toList) (.tag ('/' :: "title".toList) :: xs) := by
  have hsplit : "</title>\n<style>".toList =
      ('<' :: ('/' :: "title".toList) ++ ['>']) ++ "\n<style>".toList := by decide +kernel
  have hclose : Reads ('<' :: ('/' :: "title".toList) ++ ['>']) [.tag ('/' :: "title".toList)] :=
    .tag (by decide)
  have hopen : Reads "\n<style>".toList (items "\n<style>".toList) := .whole (by decide +kernel)
  have hsheet : Reads ("\n".intercalate styleSheet).toList
      (("\n".intercalate styleSheet).toList.map .character) := .text unmarked_styleSheet
  have hrest : Reads "</style>\n</head>\n<body>\n".toList
      (items "</style>\n</head>\n<body>\n".toList) := .whole (by decide +kernel)
  refine ⟨items "\n<style>".toList ++ (("\n".intercalate styleSheet).toList.map .character ++
    items "</style>\n</head>\n<body>\n".toList), ?_, ?_⟩
  · rw [tags_append, tags_append, tags_characters]
    decide +kernel
  · rw [hsplit]
    simpa only [List.append_assoc, List.cons_append, List.nil_append] using
      ((hclose.append hopen).append hsheet).append hrest

/-- A page is read as its frame, with its title and its body in their places. -/
theorem items_page (title : String) {body : List Char} {xs : List Item} (h : Reads body xs) :
    ∃ before between after, tags before = tagsToTitle ∧ tags between = tagsToBody ∧
      tags after = tagsToEnd ∧ items (page title body) =
        before ++ .tag "title".toList :: ((escape title.toList).map .character ++
          .tag ('/' :: "title".toList) :: (between ++ xs ++ after)) := by
  obtain ⟨before, hbefore, first⟩ := reads_toTitle
  obtain ⟨between, hbetween, second⟩ := reads_toBody
  have hescape : Reads (escape title.toList) ((escape title.toList).map .character) :=
    .text fun h => (unmarked_escape h).1 rfl
  have last : Reads "\n</body>\n</html>\n".toList (items "\n</body>\n</html>\n".toList) :=
    .whole (by decide +kernel)
  refine ⟨before, between, items "\n</body>\n</html>\n".toList, hbefore, hbetween,
    by decide +kernel, ?_⟩
  have hall := (((first.append hescape).append second).append h).append last
  have hread := hall.items
  rw [← List.append_assoc, ← List.append_assoc] at hread
  refine hread.trans ?_
  simp only [List.append_assoc, List.cons_append, List.nil_append]

/-! ### The lines of a document -/

section
variable {texts : List Str} {ranges : List StyledRange}

/-- The entries of the ranges on each line. -/
def linesOf (texts : List Str) (ranges : List StyledRange) : List (List Entry) :=
  (List.range texts.length).map fun (n : Nat) => (rangesOn n ranges).map Entry.ofRange

end

/-! ### Reading the page -/

/-- What a page shows of entries, under a title and as lines of text. -/
structure Shows (markup : List Char) (title : String) (texts : List String) (entries : List Entry) :
    Prop where
  /-- Without its tags, the preformatted text stands for the lines. -/
  text : decode (plainText (element "pre" (items markup))) =
    ['\n'].intercalate (texts.map String.toList)
  /-- Its tags are one span for each entry, with the values that were put into it. -/
  spans : (tags (element "pre" (items markup))).map readTag = entries.flatMap fun e =>
    [("span".toList, shown (entryAttributes e)), ("/span".toList, [])]
  /-- There are no other tags than these and those of the frame. -/
  frame : tags (items markup) = tagsToTitle ++ ["title".toList, "/title".toList] ++ tagsToBody ++
    ["h1".toList, "/h1".toList, "pre".toList] ++ tags (element "pre" (items markup)) ++
      ["/pre".toList] ++ tagsToEnd
  titled : decode (plainText (element "title" (items markup))) = title.toList
  headed : decode (plainText (element "h1" (items markup))) = title.toList

theorem reads_heading (title : String) : Reads (heading title)
    (.tag "h1".toList :: (escape title.toList).map .character ++ [.tag ('/' :: "h1".toList)]) := by
  unfold heading
  exact .between (by decide) (by decide) (by decide) (.text fun h => (unmarked_escape h).1 rfl)

theorem reads_preformatted {content : List Char} {xs : List Item} (h : Reads content xs) :
    Reads (preformatted content) (.tag "pre".toList :: xs ++ [.tag ('/' :: "pre".toList)]) := by
  unfold preformatted
  exact .between (by decide) (by decide) (by decide) h

end Highlighter.Page

import Highlighter.Markup.Reference
import Highlighter.Page.Html

/-! Reading a page back: the characters that references stand for, tags and what stands between them, and
the attributes of a tag. What text and values are written as is read as it was, whatever follows. -/

namespace Highlighter.Page

/-- A reader that collects characters, reversed, collects a whole text of them. -/
theorem collects {α : Type} {kept : Char → Prop} (reader : List Char → List Char → α)
    (step : ∀ c read rest, kept c → reader read (c :: rest) = reader (c :: read) rest)
    {text : List Char} (h : ∀ c ∈ text, kept c) :
    ∀ (read rest : List Char), reader read (text ++ rest) = reader (text.reverse ++ read) rest := by
  induction text with
  | nil =>
    intro read rest
    rfl
  | cons c text ih =>
    intro read rest
    obtain ⟨hc, htext⟩ := List.forall_mem_cons.mp h
    rw [List.cons_append, step c read _ hc, ih htext, List.reverse_cons, List.append_assoc]
    rfl

/-! ### References -/

/-- The character a reference stands for; it is given without its ampersand and its semicolon. -/
def referent? (reference : List Char) : Option Char :=
  match Markup.reference? (reference ++ [';']) with
  | some (.character c, []) => some c
  | some (.name n, []) => Markup.predefined? n
  | _ => none

/-- Text with the characters its references stand for. What was read since an ampersand is reversed; it
stands for itself if it is no reference. -/
def decodeFrom : Option (List Char) → List Char → List Char
  | none, [] => []
  | some read, [] => '&' :: read.reverse
  | none, c :: rest =>
    if c == '&' then decodeFrom (some []) rest else c :: decodeFrom none rest
  | some read, c :: rest =>
    if c == '&' then '&' :: read.reverse ++ decodeFrom (some []) rest
    else if c == ';' then
      match referent? read.reverse with
      | some d => d :: decodeFrom none rest
      | none => '&' :: read.reverse ++ ';' :: decodeFrom none rest
    else decodeFrom (some (c :: read)) rest

def decode (text : List Char) : List Char := decodeFrom none text

/-- Something that is read as one character, whatever follows. -/
def Denotes (written : List Char) (c : Char) : Prop :=
  ∀ rest, decodeFrom none (written ++ rest) = c :: decodeFrom none rest

theorem denotes_self {c : Char} (h : c ≠ '&') : Denotes [c] c := by
  intro rest
  simp [decodeFrom, h]

theorem denotes_reference (name : List Char) {c : Char} (hname : ∀ d ∈ name, d ≠ '&' ∧ d ≠ ';')
    (h : referent? name = some c) : Denotes ('&' :: name ++ [';']) c := by
  intro rest
  have hstep : ∀ d read rest, d ≠ '&' ∧ d ≠ ';' →
      decodeFrom (some read) (d :: rest) = decodeFrom (some (d :: read)) rest := by
    intro d read rest hd
    simp [decodeFrom, hd]
  have hread := collects (fun read => decodeFrom (some read)) hstep hname [] (';' :: rest)
  simp [decodeFrom, h] at hread ⊢
  exact hread

theorem denotes_escapeChar (c : Char) : Denotes (escapeChar c) c := by
  unfold escapeChar
  split
  · exact denotes_reference "amp".toList (by simp) (by decide)
  · exact denotes_reference "lt".toList (by simp) (by decide)
  · exact denotes_reference "gt".toList (by simp) (by decide)
  · exact denotes_reference "quot".toList (by simp) (by decide)
  · exact denotes_reference "#x27".toList (by simp) (by decide)
  · rename_i hamp _ _ _ _
    exact denotes_self hamp

theorem denotes_attributeChar (c : Char) : Denotes (attributeChar c) c := by
  unfold attributeChar
  by_cases h : c = '\n'
  · subst h
    exact denotes_reference "#10".toList (by simp) (by decide)
  · simpa [h] using denotes_escapeChar c

theorem decode_flatMap {write : Char → List Char} (h : ∀ c, Denotes (write c) c) (s : List Char) :
    decode (s.flatMap write) = s := by
  induction s with
  | nil => rfl
  | cons c s ih =>
    rw [decode, List.flatMap_cons, h c]
    exact congrArg (c :: ·) ih

theorem decode_escapeAttribute (s : List Char) : decode (escapeAttribute s) = s :=
  decode_flatMap denotes_attributeChar s

/-! ### What is not written -/

/-- The marks of tags and of values are written as references. -/
theorem unmarked_escapeChar {c d : Char} (h : d ∈ escapeChar c) : d ≠ '<' ∧ d ≠ '>' ∧ d ≠ '"' := by
  unfold escapeChar at h
  split at h
  · revert d
    simp
  · revert d
    simp
  · revert d
    simp
  · revert d
    simp
  · revert d
    simp
  · rename_i _ hlt hgt hquote _
    obtain rfl := List.mem_singleton.mp h
    exact ⟨hlt, hgt, hquote⟩

theorem unmarked_escape {s : List Char} {d : Char} (h : d ∈ escape s) :
    d ≠ '<' ∧ d ≠ '>' ∧ d ≠ '"' := by
  obtain ⟨c, -, hd⟩ := List.mem_flatMap.mp h
  exact unmarked_escapeChar hd

theorem unmarked_escapeAttribute {s : List Char} {d : Char} (h : d ∈ escapeAttribute s) :
    d ≠ '<' ∧ d ≠ '>' ∧ d ≠ '"' := by
  obtain ⟨c, -, hd⟩ := List.mem_flatMap.mp h
  unfold attributeChar at hd
  split at hd
  · have hall : ∀ x ∈ "&#10;".toList, x ≠ '<' ∧ x ≠ '>' ∧ x ≠ '"' := by simp
    exact hall d hd
  · exact unmarked_escapeChar hd

/-! ### Tags -/

/-- What markup is made of: characters, and tags with what stands between their marks. -/
inductive Item where
  | character (c : Char)
  | tag (inside : List Char)
  deriving DecidableEq

/-- A tag goes from its opening mark to the next closing one. What was read of it is reversed. -/
def itemsFrom : Option (List Char) → List Char → List Item
  | none, [] => []
  | some read, [] => ('<' :: read.reverse).map .character
  | none, c :: rest => if c == '<' then itemsFrom (some []) rest else .character c :: itemsFrom none rest
  | some read, c :: rest =>
    if c == '>' then .tag read.reverse :: itemsFrom none rest else itemsFrom (some (c :: read)) rest

def items (markup : List Char) : List Item := itemsFrom none markup

def plainText (xs : List Item) : List Char :=
  xs.filterMap fun
    | .character c => some c
    | .tag _ => none

def tags (xs : List Item) : List (List Char) :=
  xs.filterMap fun
    | .character _ => none
    | .tag inside => some inside

/-- The content of the first element of a name. -/
def element (name : String) (xs : List Item) : List Item :=
  ((xs.dropWhile (· != .tag name.toList)).drop 1).takeWhile (· != .tag ('/' :: name.toList))

/-- Something that is read as given items, whatever follows. -/
def Reads (markup : List Char) (xs : List Item) : Prop :=
  ∀ rest, items (markup ++ rest) = xs ++ items rest

section
variable {markup more inside : List Char} {xs ys : List Item}

theorem Reads.items (h : Reads markup xs) : items markup = xs := by
  simpa [Page.items, itemsFrom] using h []

theorem Reads.nil : Reads [] [] := fun _ => rfl

theorem Reads.append (h : Reads markup xs) (h' : Reads more ys) : Reads (markup ++ more) (xs ++ ys) := by
  intro rest
  rw [List.append_assoc, h, h', List.append_assoc]

theorem Reads.flatMap {α : Type} {write : α → List Char} {read : α → List Item}
    (h : ∀ a, Reads (write a) (read a)) (as : List α) : Reads (as.flatMap write) (as.flatMap read) := by
  induction as with
  | nil => exact .nil
  | cons a as ih => exact (h a).append ih

theorem Reads.text {text : List Char} (h : '<' ∉ text) : Reads text (text.map .character) := by
  intro rest
  induction text with
  | nil => rfl
  | cons c text ih =>
    rw [List.mem_cons, not_or] at h
    have hc : (c == '<') = false := beq_false_of_ne (Ne.symm h.1)
    rw [List.cons_append, Page.items, itemsFrom, hc]
    exact congrArg (Item.character c :: ·) (ih h.2)

theorem Reads.tag (h : '>' ∉ inside) : Reads ('<' :: inside ++ ['>']) [.tag inside] := by
  intro rest
  have hstep : ∀ c read rest, c ≠ '>' →
      itemsFrom (some read) (c :: rest) = itemsFrom (some (c :: read)) rest := by
    intro c read rest hc
    simp [itemsFrom, hc]
  have hread := collects (fun read => itemsFrom (some read)) hstep
    (fun c hc => ne_of_mem_of_not_mem hc h) [] ('>' :: rest)
  simp [Page.items, itemsFrom] at hread ⊢
  exact hread

/-- Content between the tags of an element. -/
theorem Reads.between {opening closing name : List Char} (hopening : opening = '<' :: name ++ ['>'])
    (hclosing : closing = '<' :: ('/' :: name) ++ ['>']) (hname : '>' ∉ name) (h : Reads markup xs) :
    Reads (opening ++ markup ++ closing) (.tag name :: xs ++ [.tag ('/' :: name)]) := by
  have hclose : '>' ∉ '/' :: name := by simp [hname]
  rw [hopening, hclosing]
  exact ((Reads.tag hname).append h).append (.tag hclose)

/-- Whether what follows stands outside of tags. -/
def endsOutside : Option (List Char) → List Char → Bool
  | none, [] => true
  | some _, [] => false
  | none, c :: rest => endsOutside (if c == '<' then some [] else none) rest
  | some read, c :: rest => endsOutside (if c == '>' then none else some (c :: read)) rest

theorem itemsFrom_append : ∀ (read : Option (List Char)) (markup rest : List Char),
    endsOutside read markup = true →
      itemsFrom read (markup ++ rest) = itemsFrom read markup ++ Page.items rest
  | none, [], rest, _ => rfl
  | some _, [], _, h => by cases h
  | none, c :: markup, rest, h => by
    rw [endsOutside] at h
    rw [List.cons_append, itemsFrom, itemsFrom]
    by_cases hc : (c == '<') = true
    · rw [if_pos hc] at h ⊢
      rw [if_pos hc, itemsFrom_append (some []) markup rest h]
    · rw [if_neg hc] at h ⊢
      rw [if_neg hc, itemsFrom_append none markup rest h, List.cons_append]
  | some read, c :: markup, rest, h => by
    rw [endsOutside] at h
    rw [List.cons_append, itemsFrom, itemsFrom]
    by_cases hc : (c == '>') = true
    · rw [if_pos hc] at h ⊢
      rw [if_pos hc, itemsFrom_append none markup rest h, List.cons_append]
    · rw [if_neg hc] at h ⊢
      rw [if_neg hc, itemsFrom_append (some (c :: read)) markup rest h]

/-- Markup that ends outside of tags is read as it is read alone. -/
theorem Reads.whole (h : endsOutside none markup = true) : Reads markup (Page.items markup) :=
  fun rest => itemsFrom_append none markup rest h

theorem tags_append : tags (xs ++ ys) = tags xs ++ tags ys := List.filterMap_append

@[simp] theorem plainText_tag (inside : List Char) (xs : List Item) :
    plainText (.tag inside :: xs) = plainText xs := rfl

@[simp] theorem tags_tag (inside : List Char) (xs : List Item) :
    tags (.tag inside :: xs) = inside :: tags xs := rfl

@[simp] theorem plainText_character (c : Char) (xs : List Item) :
    plainText (.character c :: xs) = c :: plainText xs := rfl

@[simp] theorem tags_character (c : Char) (xs : List Item) :
    tags (.character c :: xs) = tags xs := rfl

@[simp] theorem plainText_nil : plainText [] = [] := rfl

@[simp] theorem tags_nil : tags [] = [] := rfl

@[simp] theorem tags_characters (s : List Char) : tags (s.map .character) = [] := by
  simp [tags]

theorem mem_tags : inside ∈ tags xs ↔ Item.tag inside ∈ xs := by
  rw [tags, List.mem_filterMap]
  constructor
  · rintro ⟨x, hx, h⟩
    cases x with
    | character c => cases h
    | tag other =>
      cases h
      exact hx
  · intro h
    exact ⟨_, h, rfl⟩

variable {name : String}

theorem ne_tag_of_not_mem (h : inside ∉ tags xs) : ∀ x ∈ xs, (x != .tag inside) = true := by
  intro x hx
  exact bne_iff_ne.mpr fun heq => h (mem_tags.mpr (heq ▸ hx))

theorem element_append (h : name.toList ∉ tags xs) (rest : List Item) :
    element name (xs ++ rest) = element name rest := by
  rw [element, List.dropWhile_append_of_pos (ne_tag_of_not_mem h), element]

/-- An element's content is what stands between its tags. -/
theorem element_tag (h : '/' :: name.toList ∉ tags xs) (rest : List Item) :
    element name (.tag name.toList :: (xs ++ .tag ('/' :: name.toList) :: rest)) = xs := by
  simp [element, List.takeWhile_append_of_pos (ne_tag_of_not_mem h)]

end

/-! ### Attributes -/

/-- How far an attribute has been read; what was read of its name or of its value is reversed. -/
inductive Cursor where
  | between
  | name (read : List Char)
  | opening (name : List Char)
  | value (name read : List Char)

/-- The attributes that follow the name of a tag, with what their values stand for. -/
def attributesFrom : Cursor → List Char → List (List Char × List Char)
  | _, [] => []
  | .between, c :: rest => attributesFrom (if c == ' ' then .between else .name [c]) rest
  | .name read, c :: rest =>
    attributesFrom (if c == '=' then .opening read.reverse else .name (c :: read)) rest
  | .opening name, c :: rest => attributesFrom (if c == '"' then .value name [] else .between) rest
  | .value name read, c :: rest =>
    if c == '"' then (name, decode read.reverse) :: attributesFrom .between rest
    else attributesFrom (.value name (c :: read)) rest

/-- The name of a tag, and its attributes. -/
def readTag (inside : List Char) : List Char × List (List Char × List Char) :=
  (inside.takeWhile (· != ' '), attributesFrom .between (inside.dropWhile (· != ' ')))

/-- A name that an attribute may have. -/
def isAttributeName (name : String) : Bool :=
  !name.toList.isEmpty && name.toList.all fun c => c != ' ' && c != '=' && c != '>'

theorem attributesFrom_between {name : String} (hname : isAttributeName name = true) (rest : List Char) :
    attributesFrom .between (' ' :: name.toList ++ '=' :: rest) =
      attributesFrom (.opening name.toList) rest := by
  simp only [isAttributeName, Bool.and_eq_true, List.all_eq_true, bne_iff_ne] at hname
  obtain ⟨hnonempty, hplain⟩ := hname
  obtain ⟨first, others, hsplit⟩ : ∃ first others, name.toList = first :: others :=
    List.exists_cons_of_ne_nil (by simpa using hnonempty)
  rw [hsplit] at hplain ⊢
  obtain ⟨⟨⟨hblank, -⟩, -⟩, hothers⟩ := List.forall_mem_cons.mp hplain
  have hstep : ∀ c read rest, c ≠ '=' →
      attributesFrom (.name read) (c :: rest) = attributesFrom (.name (c :: read)) rest := by
    intro c read rest hc
    simp [attributesFrom, hc]
  have hread := collects (fun read => attributesFrom (.name read)) hstep
    (fun c hc => (hothers c hc).1.2) [first] ('=' :: rest)
  simp [attributesFrom, hblank] at hread ⊢
  exact hread

theorem attributesFrom_opening (name value rest : List Char) :
    attributesFrom (.opening name) ('"' :: escapeAttribute value ++ '"' :: rest) =
      (name, value) :: attributesFrom .between rest := by
  have hstep : ∀ c read rest, c ≠ '"' →
      attributesFrom (.value name read) (c :: rest) = attributesFrom (.value name (c :: read)) rest := by
    intro c read rest hc
    simp [attributesFrom, hc]
  have hread := collects (fun read => attributesFrom (.value name read)) hstep
    (fun c (hc : c ∈ escapeAttribute value) => (unmarked_escapeAttribute hc).2.2) [] ('"' :: rest)
  simp [attributesFrom, decode_escapeAttribute] at hread ⊢
  exact hread

/-- A written attribute is read with the value it was made from. -/
theorem attributesFrom_attributeText {name : String} (hname : isAttributeName name = true)
    (value rest : List Char) : attributesFrom .between (attributeText name value ++ rest) =
      (name.toList, value) :: attributesFrom .between rest := by
  have hsplit : attributeText name value ++ rest =
      ' ' :: name.toList ++ '=' :: ('"' :: escapeAttribute value ++ '"' :: rest) := by
    simp [attributeText]
  rw [hsplit, attributesFrom_between hname, attributesFrom_opening]

/-- Attributes as they are read from a tag. -/
def shown (attributes : List (String × List Char)) : List (List Char × List Char) :=
  (attributes.filter fun a => !a.2.isEmpty).map fun a => (a.1.toList, a.2)

/-- The tag that opens a span. -/
def openingTag (attributes : List (String × List Char)) : List Char :=
  "span".toList ++ (attributes.filter fun a => !a.2.isEmpty).flatMap fun a => attributeText a.1 a.2

variable {attributes : List (String × List Char)}

theorem attributesFrom_flatMap (hnames : ∀ a ∈ attributes, isAttributeName a.1 = true) :
    attributesFrom .between (attributes.flatMap fun a => attributeText a.1 a.2) =
      attributes.map fun a => (a.1.toList, a.2) := by
  induction attributes with
  | nil => rfl
  | cons a attributes ih =>
    obtain ⟨ha, hnames⟩ := List.forall_mem_cons.mp hnames
    rw [List.flatMap_cons, attributesFrom_attributeText ha, ih hnames, List.map_cons]

/-- The word before the attributes ends at the blank of the first one. -/
theorem readTag_word {word : List Char} (hword : ∀ c ∈ word, (c != ' ') = true)
    (hnames : ∀ a ∈ attributes, isAttributeName a.1 = true) :
    readTag (word ++ attributes.flatMap fun a => attributeText a.1 a.2) =
      (word, attributes.map fun a => (a.1.toList, a.2)) := by
  rw [readTag, List.takeWhile_append_of_pos hword, List.dropWhile_append_of_pos hword]
  cases hattributes : attributes with
  | nil => simp [attributesFrom]
  | cons a others =>
    rw [hattributes] at hnames
    have hstart : (((a :: others).flatMap fun a => attributeText a.1 a.2).takeWhile (· != ' ')) = [] ∧
        (((a :: others).flatMap fun a => attributeText a.1 a.2).dropWhile (· != ' ')) =
          (a :: others).flatMap fun a => attributeText a.1 a.2 := by
      simp [attributeText]
    rw [hstart.1, hstart.2, List.append_nil, attributesFrom_flatMap hnames]

theorem readTag_openingTag (hnames : ∀ a ∈ attributes, isAttributeName a.1 = true) :
    readTag (openingTag attributes) = ("span".toList, shown attributes) :=
  readTag_word (by simp) fun a ha => hnames a (List.mem_filter.mp ha).1

theorem not_mem_attributeText {name : String} (hname : isAttributeName name = true)
    (value : List Char) : '>' ∉ attributeText name value := by
  simp only [isAttributeName, Bool.and_eq_true, List.all_eq_true, bne_iff_ne] at hname
  have hvalue : '>' ∉ escapeAttribute value := fun h => (unmarked_escapeAttribute h).2.1 rfl
  have hplain : '>' ∉ name.toList := fun h => (hname.2 _ h).2 rfl
  simp [attributeText, hvalue, hplain]

theorem not_mem_openingTag (hnames : ∀ a ∈ attributes, isAttributeName a.1 = true) :
    '>' ∉ openingTag attributes := by
  intro h
  rcases List.mem_append.mp h with h | h
  · exact absurd h (by decide)
  · obtain ⟨a, ha, hmem⟩ := List.mem_flatMap.mp h
    exact not_mem_attributeText (hnames a (List.mem_filter.mp ha).1) a.2 hmem

/-- A span is read as its opening tag, what it holds, and its closing tag. -/
theorem reads_span (hnames : ∀ a ∈ attributes, isAttributeName a.1 = true) {content : List Char}
    {xs : List Item} (h : Reads content xs) :
    Reads (span attributes content) (.tag (openingTag attributes) :: xs ++ [.tag "/span".toList]) := by
  have hopen : "<span".toList = '<' :: "span".toList := by decide
  have hclose : "</span>".toList = '<' :: "/span".toList ++ ['>'] := by decide
  have hclosing : Reads ('<' :: "/span".toList ++ ['>']) [.tag "/span".toList] := .tag (by decide)
  have hall := ((Reads.tag (not_mem_openingTag hnames)).append h).append hclosing
  -- the equation of this definition is slow to prove, so it is opened without one
  delta span
  rw [hopen, hclose]
  simpa [openingTag] using hall

end Highlighter.Page

import Highlighter.Markup.DocumentType
import Highlighter.Markup.Source

/-! Markup as a sequence of events: tags that open and close, and the text between them. The sequence
ends where the text does, or where it stops being well-formed. -/

namespace Highlighter.Markup

inductive Event where
  | opens (name : String) (line : Nat)
  | closes (name : String) (line : Nat)
  | text (s : List Char)
  /-- An entity is declared. -/
  | declaration
  deriving DecidableEq, Repr

/-- The events up to a fault, or all of them. -/
structure Events where
  events : List Event
  wellFormed : Bool
  deriving DecidableEq, Repr

namespace Events

def before (e : Event) (es : Events) : Events := { es with events := e :: es.events }

def broken : Events := ⟨[], false⟩

end Events

def lineEnds (s : List Char) : Nat := s.count '\n'

/-! ### Pieces of content -/

/-- A comment or an instruction after its opening bracket: what it holds, and what follows it. -/
def remark? : List Char → Option (List Char × List Char)
  | '!' :: '-' :: s => comment? s
  | '?' :: s => instruction? s
  | _ => none

/-- Text up to the next bracket or reference. The mark that ends a section of characters must not stand
in it. -/
def textRun? : List Char → Option (List Char × List Char)
  | [] => some ([], [])
  | c :: s =>
    if c == '<' || c == '&' then some ([], c :: s)
    else if !isDocumentChar c || "]]>".toList.isPrefixOf (c :: s) then none
    else (textRun? s).map fun (run, rest) => (c :: run, rest)

/-- A tag that opens an element. -/
structure StartTag where
  name : List Char
  /-- The element ends with the tag. -/
  selfClosing : Bool
  /-- How many lines end within the tag. -/
  lines : Nat

/-- Reads attributes up to the end of the tag, and what follows it. They stand apart and have different
names. The fuel bounds the characters. -/
def attributes? (lenient : Bool) :
    Nat → List (List Char) → StartTag → List Char → Option (StartTag × List Char)
  | 0, _, _, _ => none
  | fuel + 1, seen, tag, s =>
    let blanks := s.takeWhile isSpace
    let tag := { tag with lines := tag.lines + lineEnds blanks }
    match s.dropWhile isSpace with
    | '>' :: rest => some (tag, rest)
    | '/' :: '>' :: rest => some ({ tag with selfClosing := true }, rest)
    | t => do
      guard !blanks.isEmpty
      let (name, rest) ← name? t
      guard !seen.contains name
      match rest.dropWhile isSpace with
      | '=' :: after =>
        match after.dropWhile isSpace with
        | quote :: after' =>
          guard (quote == '"' || quote == '\'')
          let (value, left) ← upTo [quote] after'
          guard (isAttributeValue lenient (value.length + 1) value)
          let gaps := rest.takeWhile isSpace ++ after.takeWhile isSpace
          let tag := { tag with lines := tag.lines + lineEnds gaps + lineEnds value }
          attributes? lenient fuel (name :: seen) tag left
        | [] => none
      | _ => none

/-- A tag that opens an element, after its bracket. -/
def startTag? (lenient : Bool) (s : List Char) : Option (StartTag × List Char) := do
  let (name, rest) ← name? s
  attributes? lenient (rest.length + 1) [] ⟨name, false, 0⟩ rest

/-- A tag that closes an element, after its bracket and stroke: the name, how many lines end within the
tag, and what follows it. -/
def endTag? (s : List Char) : Option (List Char × Nat × List Char) := do
  let (name, rest) ← name? s
  match rest.dropWhile isSpace with
  | '>' :: after => some (name, lineEnds (rest.takeWhile isSpace), after)
  | _ => none

/-! ### Documents -/

/-- What follows the last tag: blanks and remarks. The fuel bounds the characters. -/
def epilogFrom : Nat → List Char → Events
  | 0, _ => .broken
  | _ + 1, [] => ⟨[], true⟩
  | fuel + 1, '<' :: s =>
    match remark? s with
    | some (_, rest) => epilogFrom fuel rest
    | none => .broken
  | fuel + 1, c :: s => if isSpace c then epilogFrom fuel s else .broken

/-- The events within open elements, the innermost first, from a line on. The fuel bounds the
characters. -/
def contentFrom (lenient : Bool) : Nat → List (List Char) → Nat → List Char → Events
  | 0, _, _, _ => .broken
  | fuel + 1, [], _, s => epilogFrom fuel s
  | _ + 1, _ :: _, _, [] => .broken
  | fuel + 1, top :: below, line, '<' :: '/' :: s =>
    match endTag? s with
    | none => .broken
    | some (name, lines, rest) =>
      if name == top then
        (contentFrom lenient fuel below (line + lines) rest).before
          (.closes (String.ofList name) line)
      else .broken
  | fuel + 1, top :: below, line, '<' :: s =>
    let tags := top :: below
    if "![CDATA[".toList.isPrefixOf s then
      match upTo "]]>".toList (s.drop 8) with
      | some (text, rest) =>
        (contentFrom lenient fuel tags (line + lineEnds text) rest).before (.text text)
      | none => .broken
    else
      match remark? s with
      | some (body, rest) => contentFrom lenient fuel tags (line + lineEnds body) rest
      | none =>
        match startTag? lenient s with
        | none => .broken
        | some (tag, rest) =>
          let name := String.ofList tag.name
          let after := line + tag.lines
          if tag.selfClosing then
            ((contentFrom lenient fuel tags after rest).before (.closes name after)).before
              (.opens name line)
          else (contentFrom lenient fuel (tag.name :: tags) after rest).before (.opens name line)
  | fuel + 1, top :: below, line, '&' :: s =>
    match reference? s with
    | none => .broken
    | some (.character c, rest) =>
      (contentFrom lenient fuel (top :: below) line rest).before (.text [c])
    | some (.name n, rest) =>
      match predefined? n with
      | some c => (contentFrom lenient fuel (top :: below) line rest).before (.text [c])
      | none => if lenient then contentFrom lenient fuel (top :: below) line rest else .broken
  | fuel + 1, top :: below, line, s =>
    match textRun? s with
    | some (run, rest) =>
      (contentFrom lenient fuel (top :: below) (line + lineEnds run) rest).before (.text run)
    | none => .broken

/-- The outermost element, after its bracket. -/
def rootFrom (lenient : Bool) (line : Nat) (s : List Char) : Events :=
  match startTag? lenient s with
  | none => .broken
  | some (tag, rest) =>
    let name := String.ofList tag.name
    let after := line + tag.lines
    if tag.selfClosing then
      ((epilogFrom (rest.length + 1) rest).before (.closes name after)).before (.opens name line)
    else (contentFrom lenient (rest.length + 2) [tag.name] after rest).before (.opens name line)

/-- The events of a document from a line on. Before its outermost element stand blanks, remarks and at
most one document type. The fuel bounds the characters. -/
def prologFrom : Nat → Declarations → Bool → Nat → List Char → Events
  | 0, _, _, _, _ => .broken
  | _ + 1, _, _, _, [] => .broken
  | fuel + 1, d, typed, line, '<' :: s =>
    match remark? s with
    | some (body, rest) => prologFrom fuel d typed (line + lineEnds body) rest
    | none =>
      match s with
      | '!' :: t =>
        match Token.afterBang t with
        | some (.opens keyword, rest) =>
          if typed || keyword != "DOCTYPE".toList then .broken
          else
            match DocumentType.read d.standalone rest with
            | .error .notWellFormed => .broken
            | .error .entity => ⟨[.declaration], false⟩
            | .ok (d, after) =>
              let lines := lineEnds (rest.take (rest.length - after.length))
              prologFrom fuel d true (line + lines) after
        | _ => .broken
      | _ => rootFrom d.lenient line s
  | fuel + 1, d, typed, line, c :: s =>
    if isSpace c then prologFrom fuel d typed (line + lineEnds [c]) s else .broken

/-- The events of a document. -/
def Events.ofSource (source : Source) : Events :=
  prologFrom (source.text.length + 1) { standalone := source.standalone } false source.line source.text

end Highlighter.Markup

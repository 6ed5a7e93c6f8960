import Highlighter.Markup.Reference

/-! The pieces that the declarations of a document type consist of. -/

namespace Highlighter.Markup

inductive Token where
  | space
  /-- A comment or an instruction. -/
  | remark
  /-- Opens a declaration with a keyword. -/
  | opens (keyword : List Char)
  | closes
  | literal (s : List Char)
  | name (n : List Char)
  /-- A word that is no name. -/
  | word
  /-- A name that may be left out or repeated. -/
  | countedName
  /-- A keyword after a number sign. -/
  | hashName (n : List Char)
  | percent
  /-- A reference to a declaration elsewhere. -/
  | parameter
  | openParen
  /-- With a count after it: `?`, `*` or `+`. -/
  | closeParen (count : Option Char)
  | comma
  | bar
  | openBracket
  | closeBracket
  /-- An element begins. -/
  | element
  deriving DecidableEq, Repr

namespace Token

/-- Whether a quoted text may be followed by this. -/
def endsLiteral (rest : List Char) : Bool :=
  rest.head?.all fun c => isSpace c || c == '>' || c == '%' || c == '['

/-- What follows a word: a count, or a sign that ends it. -/
def afterWord (isName : Bool) (word rest : List Char) : Option (Token × List Char) :=
  match rest with
  | [] => none
  | c :: s =>
    if isSpace c || ">),|[%".toList.contains c then
      some (if isName then .name word else .word, rest)
    else if isName && "+*?".toList.contains c then some (.countedName, s)
    else none

/-- What follows a closing parenthesis. -/
def afterParen : List Char → Option (Token × List Char)
  | [] => none
  | c :: s =>
    if "?*+".toList.contains c then some (.closeParen (some c), s)
    else if isSpace c || ">,|)".toList.contains c then some (.closeParen none, c :: s)
    else none

/-- What follows a percent sign. -/
def afterPercent (s : List Char) : Option (Token × List Char) :=
  if s.head?.any fun c => isSpace c || c == '%' then some (.percent, s)
  else
    match name? s with
    | some (_, ';' :: rest) => some (.parameter, rest)
    | _ => none

/-- What follows a number sign. -/
def afterHash (s : List Char) : Option (Token × List Char) :=
  match name? s with
  | some (n, rest) =>
    if rest.head?.any fun c => isSpace c || ">)%|".toList.contains c then some (.hashName n, rest)
    else none
  | none => none

def isKeywordChar (c : Char) : Bool := c.isAlpha || c == '_' || c == ':'

/-- What follows an exclamation mark after a bracket. -/
def afterBang (s : List Char) : Option (Token × List Char) :=
  match s with
  | '-' :: s => (comment? s).map fun (_, rest) => (.remark, rest)
  | _ =>
    let keyword := s.takeWhile isKeywordChar
    match s.drop keyword.length with
    | c :: rest =>
      let isFree := c == '%' && !rest.head?.any fun c => isSpace c || c == '%'
      if !keyword.isEmpty && (isSpace c || isFree) then some (.opens keyword, c :: rest) else none
    | [] => none

/-- The piece at the front. -/
def next? : List Char → Option (Token × List Char)
  | [] => none
  | c :: s =>
    if isSpace c then some (.space, s.dropWhile isSpace)
    else if c == '"' || c == '\'' then
      match upTo [c] s with
      | some (body, rest) => if endsLiteral rest then some (.literal body, rest) else none
      | none => none
    else if c == '<' then
      match s with
      | '!' :: s => afterBang s
      | '?' :: s => (instruction? s).map fun (_, rest) => (.remark, rest)
      | _ => if s.head?.any isNameStart then some (.element, '<' :: s) else none
    else if c == '%' then afterPercent s
    else if c == ',' then some (.comma, s)
    else if c == '[' then some (.openBracket, s)
    else if c == ']' then if "]>".toList.isPrefixOf s then none else some (.closeBracket, s)
    else if c == '(' then some (.openParen, s)
    else if c == ')' then afterParen s
    else if c == '|' then some (.bar, s)
    else if c == '>' then some (.closes, s)
    else if c == '#' then afterHash s
    else if isNameChar c then
      let word := c :: s.takeWhile isNameChar
      afterWord (isNameStart c) word (s.dropWhile isNameChar)
    else none

/-- The piece at the front, past blanks. -/
def nextPiece? (s : List Char) : Option (Token × List Char) := next? (s.dropWhile isSpace)

/-- The pieces of a declaration up to its end, without blanks. The fuel bounds the characters. -/
def ofDeclaration? : Nat → List Char → Option (List Token × List Char)
  | 0, _ => none
  | fuel + 1, s =>
    match nextPiece? s with
    | none => none
    | some (.closes, rest) => some ([], rest)
    | some (token, rest) => (ofDeclaration? fuel rest).map fun (tokens, rest) => (token :: tokens, rest)

end Token

end Highlighter.Markup

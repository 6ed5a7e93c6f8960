import Highlighter.Json.Reader
import Highlighter.Text.Number

/-! Strings and keys of TOML. Each reader gives what it read and the rest of the text, or nothing where
the text is not well formed. -/

namespace Highlighter.Toml

def isBlank (c : Char) : Bool := c == ' ' || c == '\t'

def skipBlanks (s : List Char) : List Char := s.dropWhile isBlank

def skipBlanksAndLines (s : List Char) : List Char := s.dropWhile fun c => isBlank c || c == '\n'

/-- Control characters stand neither in strings nor in comments; the tab is none of them. -/
def isForbidden (c : Char) : Bool := (c.toNat < 32 && c != '\t') || c.toNat == 127

def isForbiddenInLines (c : Char) : Bool := isForbidden c && c != '\n'

/-- The characters up to an ending, which is not part of them. -/
def literalUntil (ending : List Char) (forbidden : Char → Bool) : List Char → Option (List Char × List Char)
  | [] => none
  | c :: rest =>
    if ending.isPrefixOf (c :: rest) then some ([], (c :: rest).drop ending.length)
    else if forbidden c then none
    else (literalUntil ending forbidden rest).map fun (body, after) => (c :: body, after)

def shortEscape? : Char → Option Char
  | 'b' => some '\x08'
  | 't' => some '\t'
  | 'n' => some '\n'
  | 'f' => some '\x0c'
  | 'r' => some '\r'
  | '"' => some '"'
  | '\\' => some '\\'
  | _ => none

/-- The character whose code the next hexadecimal digits give. -/
def codePoint? (digits : Nat) (s : List Char) : Option (Char × List Char) := do
  let code ← (s.take digits).mapM Text.hexDigit?
  guard (code.length == digits)
  let n := code.foldl (fun n d => 16 * n + d) 0
  guard (n < 0xD800 || (0xE000 ≤ n && n < 0x110000))
  return (Char.ofNat n, s.drop digits)

/-- What an escape stands for; the text starts after the backslash. In a string of several lines a
backslash before the end of a line leaves out all blanks and line ends that follow. -/
def escape (severalLines : Bool) : List Char → Option (List Char × List Char)
  | [] => none
  | c :: rest =>
    if severalLines && (isBlank c || c == '\n') then
      match skipBlanks (c :: rest) with
      | [] => some ([], [])
      | '\n' :: after => some ([], skipBlanksAndLines after)
      | _ => none
    else if c == 'u' then (codePoint? 4 rest).map fun (x, after) => ([x], after)
    else if c == 'U' then (codePoint? 8 rest).map fun (x, after) => ([x], after)
    else (shortEscape? c).map fun x => ([x], rest)

/-- The rest of a string with escapes, after its opening quote. The fuel bounds the characters. -/
def basicBody (severalLines : Bool) : Nat → List Char → Option (List Char × List Char)
  | 0, _ => none
  | _ + 1, [] => none
  | fuel + 1, '\\' :: rest => do
    let (x, after) ← escape severalLines rest
    let (body, after) ← basicBody severalLines fuel after
    return (x ++ body, after)
  | fuel + 1, '"' :: rest =>
    if !severalLines then some ([], rest)
    else if ['"', '"'].isPrefixOf rest then some ([], rest.drop 2)
    else (basicBody severalLines fuel rest).map fun (body, after) => ('"' :: body, after)
  | fuel + 1, c :: rest =>
    if if severalLines then isForbiddenInLines c else isForbidden c then none
    else (basicBody severalLines fuel rest).map fun (body, after) => (c :: body, after)

def basicString (severalLines : Bool) (s : List Char) : Option (List Char × List Char) :=
  basicBody severalLines (s.length + 1) s

/-- A line end right after the opening quotes is no part of a string of several lines. -/
def dropFirstLineEnd : List Char → List Char
  | '\n' :: rest => rest
  | s => s

/-- Up to two quotes before the closing three belong to the string. -/
def takeLastQuotes (quote : Char) : List Char × List Char → List Char × List Char
  | (body, c :: d :: rest) =>
    if c == quote && d == quote then (body ++ [c, d], rest)
    else if c == quote then (body ++ [c], d :: rest)
    else (body, c :: d :: rest)
  | (body, [c]) => if c == quote then (body ++ [c], []) else (body, [c])
  | (body, []) => (body, [])

/-- A string of any of the four kinds; nothing where the text starts with no quote. -/
def string? (s : List Char) : Option (Option (List Char × List Char)) :=
  match s with
  | '"' :: '"' :: '"' :: rest =>
    some ((basicString true (dropFirstLineEnd rest)).map (takeLastQuotes '"'))
  | '"' :: rest => some (basicString false rest)
  | '\'' :: '\'' :: '\'' :: rest =>
    some ((literalUntil ['\'', '\'', '\''] isForbiddenInLines (dropFirstLineEnd rest)).map
      (takeLastQuotes '\''))
  | '\'' :: rest => some (literalUntil ['\''] isForbidden rest)
  | _ => none

def isBareKeyChar (c : Char) : Bool := c.isAlphanum || c == '-' || c == '_'

def startsKey (c : Char) : Bool := isBareKeyChar c || c == '"' || c == '\''

/-- A part of a key: bare, or a string of one line. -/
def keyPart (s : List Char) : Option (String × List Char) :=
  match s with
  | '"' :: rest => (basicString false rest).map fun (k, after) => (String.ofList k, after)
  | '\'' :: rest => (literalUntil ['\''] isForbidden rest).map fun (k, after) =>
      (String.ofList k, after)
  | s =>
    let bare := s.takeWhile isBareKeyChar
    if bare.isEmpty then none else some (String.ofList bare, s.dropWhile isBareKeyChar)

/-- The parts of a key, with dots between them, and blanks around the dots and after the key. -/
def keyFrom : Nat → List Char → Option (List String × List Char)
  | 0, _ => none
  | fuel + 1, s => do
    let (part, after) ← keyPart s
    match skipBlanks after with
    | '.' :: rest =>
      let (parts, after) ← keyFrom fuel (skipBlanks rest)
      return (part :: parts, after)
    | after => return ([part], after)

def key (s : List Char) : Option (List String × List Char) := keyFrom (s.length + 1) s

end Highlighter.Toml

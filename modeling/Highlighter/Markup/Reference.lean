import Highlighter.Markup.Name
import Highlighter.Text.Number

/-! References between an ampersand and a semicolon, and remarks: comments and instructions. -/

namespace Highlighter.Markup

/-- A reference: to a character by its number, or to what has a name. -/
inductive Reference where
  | character (c : Char)
  | name (n : List Char)
  deriving DecidableEq, Repr

/-- The character with a number, if it may stand in a document. -/
def documentChar? (n : Nat) : Option Char :=
  let c := Char.ofNat n
  if c.toNat == n && isDocumentChar c then some c else none

/-- What stands between the ampersand and the semicolon, the former being read. -/
def reference? : List Char → Option (Reference × List Char)
  | '#' :: 'x' :: s =>
    numbered 16 (s.takeWhile fun c => (Text.hexDigit? c).isSome) (s.dropWhile fun c => (Text.hexDigit? c).isSome)
  | '#' :: s => numbered 10 (s.takeWhile Char.isDigit) (s.dropWhile Char.isDigit)
  | s =>
    match name? s with
    | some (n, ';' :: rest) => some (.name n, rest)
    | _ => none
where
  numbered (base : Nat) (digits rest : List Char) : Option (Reference × List Char) :=
    match digits, rest with
    | _ :: _, ';' :: rest =>
      (documentChar? (digits.foldl (fun n c => base * n + (Text.hexDigit? c).getD 0) 0)).map
        fun c => (.character c, rest)
    | _, _ => none

/-- The characters that have names everywhere. -/
def predefined? (name : List Char) : Option Char :=
  [("lt", '<'), ("gt", '>'), ("amp", '&'), ("apos", '\''), ("quot", '"')].lookup
    (String.ofList name)

/-- Whether the value of an attribute is well-formed. With `lenient`, names that are not known are left
out of it. The fuel bounds the characters. -/
def isAttributeValue (lenient : Bool) : Nat → List Char → Bool
  | 0, _ => false
  | _ + 1, [] => true
  | fuel + 1, '&' :: s =>
    match reference? s with
    | some (.character _, rest) => isAttributeValue lenient fuel rest
    | some (.name n, rest) =>
      (lenient || (predefined? n).isSome) && isAttributeValue lenient fuel rest
    | none => false
  | fuel + 1, c :: s => c != '<' && isAttributeValue lenient fuel s

/-- Whether what a declaration gives as the value of an entity is well-formed. -/
def isEntityValue : Nat → List Char → Bool
  | 0, _ => false
  | _ + 1, [] => true
  | fuel + 1, '&' :: s =>
    match reference? s with
    | some (_, rest) => isEntityValue fuel rest
    | none => false
  | fuel + 1, c :: s => c != '%' && isEntityValue fuel s

/-- The text after a comment whose first dash was read. -/
def comment? : List Char → Option (List Char × List Char)
  | '-' :: s =>
    match upTo "--".toList s with
    | some (body, '>' :: rest) => some (body, rest)
    | _ => none
  | _ => none

/-- The text after an instruction whose opening mark was read. Nothing may be called like the
declaration of a document. -/
def instruction? (s : List Char) : Option (List Char × List Char) :=
  match name? s with
  | none => none
  | some (target, rest) =>
    if String.ofList (target.map Char.toLower) == "xml" then none
    else if "?>".toList.isPrefixOf rest then some ([], rest.drop 2)
    else if rest.head?.any isSpace then upTo "?>".toList rest
    else none

end Highlighter.Markup

import Highlighter.Markup.Charset
import Highlighter.Markup.Name
import Highlighter.Text.Lines
import Highlighter.Text.Encoding

/-! The text of a document. A declaration at its very start may name the character set of all that
follows it. Bytes that stand for no character become one that may not stand in a document. -/

namespace Highlighter.Markup

open Highlighter.Text (Bytes)

/-- What a declaration says. -/
structure Declaration where
  charset : Option (List Char) := none
  standalone : Bool := false
  deriving DecidableEq, Repr

/-- The text after a declaration, with the number of the line on which it begins. -/
structure Source where
  standalone : Bool
  line : Nat
  text : List Char

inductive SourceFault where
  | notWellFormed
  /-- The named character set is not known. -/
  | unknownCharset
  /-- It cannot be used; what is said about it. -/
  | refusedCharset (message : String)
  deriving DecidableEq, Repr

/-! ### Declarations -/

/-- A name and a quoted value after blanks. The outer option tells whether all is well, the inner one
whether there is anything. -/
def pseudoAttribute? (s : List Char) : Option (Option ((List Char × List Char) × List Char)) :=
  if s.isEmpty then some none
  else if !s.head?.any isSpace then none
  else
    let s := s.dropWhile isSpace
    if s.isEmpty then some none
    else
      let name := s.takeWhile fun c => !isSpace c && c != '='
      match (s.drop name.length).dropWhile isSpace with
      | '=' :: rest =>
        match rest.dropWhile isSpace with
        | quote :: rest =>
          let value := rest.takeWhile fun c => c.isAlphanum || c == '.' || c == '-' || c == '_'
          let after := rest.drop value.length
          if !name.isEmpty && (quote == '"' || quote == '\'') && after.head? == some quote then
            some (some ((name, value), after.drop 1))
          else none
        | [] => none
      | _ => none

/-- What a declaration says last: whether the document stands alone. -/
def standalone? (d : Declaration) (name value rest : List Char) : Option Declaration :=
  if name != "standalone".toList || !rest.all isSpace then none
  else if value == "yes".toList then some { d with standalone := true }
  else if value == "no".toList then some d
  else none

/-- A declaration, from its text between the marks: a version, and then a character set or the word on
standing alone, or both. -/
def declaration? (s : List Char) : Option Declaration :=
  match pseudoAttribute? s with
  | some (some ((name, _), rest)) =>
    if name != "version".toList then none
    else
      match pseudoAttribute? rest with
      | none => none
      | some none => some {}
      | some (some ((name, value), rest)) =>
        if name == "encoding".toList then
          if !value.head?.any Char.isAlpha then none
          else
            match pseudoAttribute? rest with
            | none => none
            | some none => some { charset := some value }
            | some (some ((name, value'), rest)) =>
              standalone? { charset := some value } name value' rest
        else standalone? {} name value rest
  | _ => none

/-- The text of a declaration at the front, and how many characters it takes. -/
def declarationText? (s : List Char) : Option (List Char × Nat) :=
  let opening := "<?xml".toList
  let after := s.drop opening.length
  if !opening.isPrefixOf s || after.head?.any isNameChar then none
  else (upTo "?>".toList after).map fun (text, _) => (text, text.length + opening.length + 2)

/-! ### Bytes -/

/-- The character that stands for bytes which are none. -/
def noCharacter : Char := '\uFFFF'

/-- The units of two bytes each; a byte that is left over makes a lone low surrogate. -/
def unitsOf (bigEndian : Bool) : Bytes → List Nat
  | a :: b :: rest =>
    (if bigEndian then a.toNat * 256 + b.toNat else b.toNat * 256 + a.toNat) :: unitsOf bigEndian rest
  | [_] => [0xDC00]
  | [] => []

/-- The characters of units. After a high surrogate any unit counts as a low one. -/
def charsOfUnits : List Nat → List Char
  | [] => []
  | [u] => [if 0xD800 ≤ u && u < 0xE000 then noCharacter else Char.ofNat u]
  | u :: v :: rest =>
    if 0xD800 ≤ u && u < 0xDC00 then
      Char.ofNat (0x10000 + (u - 0xD800) * 1024 + v % 1024) :: charsOfUnits rest
    else (if 0xDC00 ≤ u && u < 0xE000 then noCharacter else Char.ofNat u) :: charsOfUnits (v :: rest)

namespace Charset

def decode (c : Charset) (bytes : Bytes) : List Char :=
  match c with
  | .utf8 => (Text.decodeItems bytes.length bytes).map (·.getD noCharacter)
  | .utf16 bigEndian => charsOfUnits (unitsOf bigEndian bytes)
  | .latin => bytes.map fun b => Char.ofNat b.toNat
  | .ascii => bytes.map fun b => if b.toNat < 128 then Char.ofNat b.toNat else noCharacter
  | .upper codes =>
    bytes.map fun b =>
      if b.toNat < 128 then Char.ofNat b.toNat
      else ((codes.getD (b.toNat - 128) none).map Char.ofNat).getD noCharacter

/-- How many bytes a character of ASCII takes. -/
def width : Charset → Nat
  | .utf16 _ => 2
  | _ => 1

/-- The character set that a document of bytes or of units declares. One of units must declare the one
it is in. -/
def declared (own : Charset) (name : List Char) : Except SourceFault Charset :=
  let isNamed (s : String) : Bool := String.ofList (name.map Char.toLower) == s
  let found : Option Charset :=
    if isNamed "utf-8" then some .utf8
    else if isNamed "iso-8859-1" then some .latin
    else if isNamed "us-ascii" then some .ascii
    else if isNamed "utf-16" then some (if own.width == 2 then own else .utf16 true)
    else if isNamed "utf-16be" then some (.utf16 true)
    else if isNamed "utf-16le" then some (.utf16 false)
    else none
  match found with
  | some c =>
    if c.width != own.width || (c.width == 2 && c != own) then .error .notWellFormed else .ok c
  | none =>
    match named name with
    | .known c => if own.width == 2 then .error .notWellFormed else .ok c
    | .multibyte => .error (.refusedCharset "multi-byte encodings are not supported")
    | .refused message => .error (.refusedCharset message)
    | .unsuitable => .error .notWellFormed
    | .unknown => .error .unknownCharset

end Charset

/-- The text of a document whose bytes are in a character set, or in one that it declares. -/
def sourceIn (own : Charset) (bytes : Bytes) : Except SourceFault Source :=
  let shown := if own == .utf8 then Charset.latin.decode bytes else own.decode bytes
  match declarationText? shown with
  | none => .ok ⟨false, 1, Text.unifyLineEnds (own.decode bytes)⟩
  | some (text, length) => do
    match declaration? text with
    | none => throw .notWellFormed
    | some d =>
      let charset ← match d.charset with
        | none => pure own
        | some name => own.declared name
      let rest := charset.decode (bytes.drop (length * own.width))
      return ⟨d.standalone, (Text.unifyLineEnds text).count '\n' + 1, Text.unifyLineEnds rest⟩

/-- The text of a document. A mark at its front tells UTF-16, and may stand before UTF-8. -/
def sourceOf : Bytes → Except SourceFault Source
  | 0xEF :: 0xBB :: 0xBF :: rest => sourceIn .utf8 rest
  | 0xFE :: 0xFF :: rest => sourceIn (.utf16 true) rest
  | 0xFF :: 0xFE :: rest => sourceIn (.utf16 false) rest
  | bytes => sourceIn .utf8 bytes

end Highlighter.Markup

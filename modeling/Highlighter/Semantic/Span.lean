import Highlighter.Text.Encoding

/-! Semantic tokens. A server announces the names of types and modifiers in a legend; for what a legend leaves
open there are standard ones, and for a type without a style in a theme the scopes that stand for it. Spans of
classified text come in a relative encoding: five numbers each, which are the distance to the line before, the
distance to the start before or, on a new line, the start itself, the length, the type and the modifiers. -/

namespace Highlighter.Semantic

/-- What a server says about a piece of code. -/
structure Classification where
  type : Str
  modifiers : List Str := []
  deriving DecidableEq, Repr, Inhabited

/-- The names of token types and modifiers, by number. -/
structure Legend where
  types : List Str
  modifiers : List Str
  deriving DecidableEq, Repr, Inhabited

/-- The types of the protocol, in its order. -/
def standardTypes : List Str :=
  ["namespace", "type", "class", "enum", "interface", "struct", "typeParameter", "parameter",
    "variable", "property", "enumMember", "event", "function", "method", "macro", "keyword",
    "modifier", "comment", "string", "number", "regexp", "operator", "decorator"]

/-- The entry under a number that may lie outside the list on either side. -/
def nameAt? (names : List Str) (index : Int) : Option Str :=
  if index < 0 then none else names[index.toNat]?

/-- The type under a number; an empty name in the legend counts as none. -/
def typeName (legend : Option Legend) (index : Int) : Str :=
  let announced := legend.bind fun l => (nameAt? l.types index).filter fun name : Str => name != ""
  (announced <|> nameAt? standardTypes index).getD "unknown"

/-- Whether a bit of a two's complement number is set. -/
def hasBit (mask : Int) (bit : Nat) : Bool := (mask >>> bit) % 2 == 1

/-- The modifiers whose bits are set, in the order of the legend. -/
def modifierNames (legend : Option Legend) (mask : Int) : List Str :=
  match legend with
  | none => []
  | some l => (l.modifiers.zipIdx.filter fun m => hasBit mask m.2).map (·.1)

/-! ### Scopes for types -/

/-- The scopes of a type, or of a type with modifiers. -/
def standardScopes : List (Str × List Str) :=
  [("comment", ["comment"]),
    ("string", ["string"]),
    ("keyword", ["keyword.control"]),
    ("number", ["constant.numeric"]),
    ("regexp", ["constant.regexp"]),
    ("operator", ["keyword.operator"]),
    ("namespace", ["entity.name.namespace"]),
    ("type", ["entity.name.type", "support.type"]),
    ("type.defaultLibrary", ["support.type"]),
    ("struct", ["entity.name.type.struct"]),
    ("class", ["entity.name.type.class", "support.class"]),
    ("class.defaultLibrary", ["support.class"]),
    ("interface", ["entity.name.type.interface"]),
    ("enum", ["entity.name.type.enum"]),
    ("typeParameter", ["entity.name.type.parameter"]),
    ("function", ["entity.name.function", "support.function"]),
    ("function.defaultLibrary", ["support.function"]),
    ("member.defaultLibrary", ["support.function"]),
    ("method", ["entity.name.function.member", "support.function"]),
    ("macro", ["entity.name.function.preprocessor"]),
    ("variable", ["variable.other.readwrite", "entity.name.variable"]),
    ("variable.readonly", ["variable.other.constant"]),
    ("variable.defaultLibrary.readonly", ["support.constant"]),
    ("parameter", ["variable.parameter"]),
    ("property", ["variable.other.property"]),
    ("property.readonly", ["variable.other.constant.property"]),
    ("property.defaultLibrary.readonly", ["support.constant.property"]),
    ("enumMember", ["variable.other.enummember"]),
    ("event", ["variable.other.event"]),
    ("decorator", ["entity.name.decorator", "entity.name.function"]),
    ("modifier", ["keyword.control"])]

/-- The keys that are tried, from the most to the least specific: with library and readonly, with
readonly, with library, and the type alone. -/
def fallbackKeys (c : Classification) : List Str :=
  let library : Str := if c.modifiers.contains "defaultLibrary" then ".defaultLibrary" else ""
  let readonly : Str := if c.modifiers.contains "readonly" then ".readonly" else ""
  [c.type ++ library ++ readonly, c.type ++ readonly, c.type ++ library, c.type]

/-- The scopes of the most specific key that has any. -/
def fallbackScopes (c : Classification) : Option (List Str) :=
  (fallbackKeys c).findSome? fun key => standardScopes.lookup key

/-! ### Spans -/

structure Span where
  line : Nat
  start : Int
  stop : Int
  kind : Classification
  deriving DecidableEq, Repr, Inhabited

/-- Where a span lies in its line. With lines given, columns are counted in UTF-16 units, which
matters only where a line has characters beyond ASCII. -/
def columnsIn (lines : Option (List Str)) (line : Nat) (start stop : Int) : Int × Int :=
  match lines.bind (·[line]?) with
  | none => (start, stop)
  | some text =>
    if Text.isAscii text.toList then (start, stop)
    else (Text.indexOfUnit text.toList start, Text.indexOfUnit text.toList stop)

/-- The spans of an encoding, from the line and start of the span before; what is left over at the
end, fewer than five numbers, has no meaning. -/
def decodeFrom (legend : Option Legend) (lines : Option (List Str)) (line : Nat) (start : Int) :
    List Int → List Span
  | deltaLine :: deltaStart :: length :: type :: modifiers :: rest =>
    let newLine := 0 < deltaLine
    let line := if newLine then line + deltaLine.toNat else line
    let start := if newLine then deltaStart else start + deltaStart
    let (first, last) := columnsIn lines line start (start + length)
    ⟨line, first, last, ⟨typeName legend type, modifierNames legend modifiers⟩⟩ ::
      decodeFrom legend lines line start rest
  | _ => []

def decode (legend : Option Legend) (lines : Option (List Str)) (data : List Int) : List Span :=
  decodeFrom legend lines 0 0 data

/-- The spans of a line, in order. -/
def onLine (spans : List Span) (line : Nat) : List Span := spans.filter (·.line == line)

end Highlighter.Semantic

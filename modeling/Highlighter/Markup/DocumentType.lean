import Highlighter.Markup.Token

/-! Document types and the declarations within their brackets. All are checked against the grammar of
the markup standard; only declarations of entities matter to a reader of the document. -/

namespace Highlighter.Markup

/-- What ends the reading of a document type. -/
inductive TypeFault where
  | notWellFormed
  /-- An entity is declared. -/
  | entity
  deriving DecidableEq, Repr

/-- What the declarations read so far say about the names of entities. -/
structure Declarations where
  standalone : Bool
  /-- There may be more declarations elsewhere. -/
  incomplete : Bool := false
  /-- Entities and attributes still count. Past a reference to declarations elsewhere they do so only
  in a document that stands alone. -/
  heeded : Bool := true
  deriving DecidableEq, Repr

/-- Whether a name without declaration is left out, and no fault. -/
def Declarations.lenient (d : Declarations) : Bool := d.incomplete && !d.standalone

def Declarations.withReference (d : Declarations) : Declarations :=
  { d with incomplete := true, heeded := d.standalone }

/-- Whether a text may be a public identifier. -/
def isPublicId (s : List Char) : Bool :=
  s.all fun c => c.isAlphanum || " \r\n-'()+,./:=?;!*#@$_%".toList.contains c

namespace DocumentType

open Token (nextPiece?)

def isWord (n : List Char) (word : String) : Bool := n == word.toList

def piece (s : List Char) : Except TypeFault (Token × List Char) :=
  match nextPiece? s with
  | some p => .ok p
  | none => .error .notWellFormed

def literal (s : List Char) : Except TypeFault (List Char × List Char) := do
  match ← piece s with
  | (.literal v, rest) => return (v, rest)
  | _ => throw .notWellFormed

def closing (s : List Char) : Except TypeFault (List Char) := do
  match ← piece s with
  | (.closes, rest) => return rest
  | _ => throw .notWellFormed

/-- The identifiers of something elsewhere, after the keyword for their kind. -/
def externalId (keyword s : List Char) : Except TypeFault (List Char) := do
  if isWord keyword "SYSTEM" then return (← literal s).2
  else if isWord keyword "PUBLIC" then
    let (id, rest) ← literal s
    if isPublicId id then return (← literal rest).2 else throw .notWellFormed
  else throw .notWellFormed

/-! ### Entities -/

def declared (d : Declarations) (isNew : Bool) : Except TypeFault Unit :=
  if d.heeded && isNew then throw .entity else return ()

/-- What an entity stands for. One with a value is declared as soon as that is read. -/
def definition (d : Declarations) (isNew isGeneral : Bool) (s : List Char) :
    Except TypeFault (List Char) := do
  match ← piece s with
  | (.literal v, rest) =>
    declared d isNew
    if d.heeded && !isEntityValue (v.length + 1) v then throw .notWellFormed
    closing rest
  | (.name keyword, rest) =>
    match ← piece (← externalId keyword rest) with
    | (.closes, rest) => declared d isNew; return rest
    | (.name n, rest) =>
      match ← piece rest with
      | (.name _, rest) =>
        if isGeneral && isWord n "NDATA" then
          declared d isNew
          closing rest
        else throw .notWellFormed
      | _ => throw .notWellFormed
    | _ => throw .notWellFormed
  | _ => throw .notWellFormed

/-- An entity; the names known everywhere are no new ones. -/
def entity (d : Declarations) (s : List Char) : Except TypeFault (List Char) := do
  match ← piece s with
  | (.name n, rest) => definition d (predefined? n).isNone true rest
  | (.percent, rest) =>
    match ← piece rest with
    | (.name _, rest) => definition d true false rest
    | _ => throw .notWellFormed
  | _ => throw .notWellFormed

/-! ### Attributes -/

/-- Names or words between bars, after an open parenthesis. -/
def choices? (words : Bool) : List Token → Option (List Token)
  | t :: .bar :: rest => if isChoice t then choices? words rest else none
  | t :: .closeParen none :: rest => if isChoice t then some rest else none
  | _ => none
where
  isChoice : Token → Bool
    | .name _ => true
    | .word => words
    | _ => false

def attributeTypes : List String :=
  ["CDATA", "ID", "IDREF", "IDREFS", "ENTITY", "ENTITIES", "NMTOKEN", "NMTOKENS"]

/-- What follows the type of an attribute. -/
def attributeType? : List Token → Option (List Token)
  | .openParen :: rest => choices? true rest
  | .name n :: rest =>
    if attributeTypes.any (isWord n) then some rest
    else if isWord n "NOTATION" then
      match rest with
      | .openParen :: rest => choices? false rest
      | _ => none
    else none
  | _ => none

/-- What follows the default of an attribute. -/
def attributeDefault? (d : Declarations) : List Token → Option (List Token)
  | .hashName n :: .literal v :: rest =>
    if isWord n "FIXED" && isValue v then some rest else none
  | .hashName n :: rest => if isWord n "IMPLIED" || isWord n "REQUIRED" then some rest else none
  | .literal v :: rest => if isValue v then some rest else none
  | _ => none
where
  isValue (v : List Char) : Bool := !d.heeded || isAttributeValue d.lenient (v.length + 1) v

/-- Whether these are attributes, each with its name, type and default. The fuel bounds their number. -/
def areAttributes (d : Declarations) : Nat → List Token → Bool
  | 0, _ => false
  | _ + 1, [] => true
  | fuel + 1, .name _ :: rest =>
    match (attributeType? rest).bind (attributeDefault? d) with
    | some rest => areAttributes d fuel rest
    | none => false
  | _ + 1, _ => false

/-! ### Elements -/

/-- Whether these are the rest of a group of elements: the open groups innermost first, each with the
sign that joins its members, and whether a member is due. -/
def isGroup : List (Option Token) → Bool → List Token → Bool
  | [], _, rest => rest.isEmpty
  | joined, true, .openParen :: rest => isGroup (none :: joined) true rest
  | joined, true, .name _ :: rest => isGroup joined false rest
  | joined, true, .countedName :: rest => isGroup joined false rest
  | _ :: joined, false, .closeParen _ :: rest => isGroup joined false rest
  | sign :: joined, false, t :: rest =>
    (t == .comma || t == .bar) && (sign.isNone || sign == some t) &&
      isGroup (some t :: joined) true rest
  | _, _, _ => false

/-- Whether these are the rest of a group of text and elements. -/
def isMixed : List Token → Bool
  | .bar :: .name _ :: rest => isMixed rest
  | [.closeParen (some '*')] => true
  | _ => false

def isContentModel : List Token → Bool
  | [.name n] => isWord n "EMPTY" || isWord n "ANY"
  | .openParen :: .hashName n :: rest =>
    isWord n "PCDATA" && (rest == [.closeParen none] || isMixed rest)
  | .openParen :: rest => isGroup [none] true rest
  | _ => false

/-! ### Declarations -/

def isNotation : List Token → Bool
  | [.name n, .literal v] => isWord n "SYSTEM" || isWord n "PUBLIC" && isPublicId v
  | [.name n, .literal v, .literal _] => isWord n "PUBLIC" && isPublicId v
  | _ => false

/-- A declaration after its keyword, and what follows it. -/
def declaration (d : Declarations) (keyword s : List Char) : Except TypeFault (List Char) :=
  if isWord keyword "ENTITY" then entity d s
  else
    match Token.ofDeclaration? (s.length + 1) s with
    | some (.name _ :: tokens, rest) =>
      let allowed :=
        if isWord keyword "ATTLIST" then areAttributes d (tokens.length + 1) tokens
        else if isWord keyword "ELEMENT" then isContentModel tokens
        else isWord keyword "NOTATION" && isNotation tokens
      if allowed then .ok rest else .error .notWellFormed
    | _ => .error .notWellFormed

/-- The declarations between brackets, and what follows them. The fuel bounds the characters. -/
def subset : Nat → Declarations → List Char → Except TypeFault (Declarations × List Char)
  | 0, _, _ => .error .notWellFormed
  | fuel + 1, d, s =>
    match nextPiece? s with
    | some (.remark, rest) => subset fuel d rest
    | some (.parameter, rest) => subset fuel d.withReference rest
    | some (.closeBracket, rest) => .ok (d, rest)
    | some (.opens keyword, rest) => do subset fuel d (← declaration d keyword rest)
    | _ => .error .notWellFormed

/-- What may follow the identifiers of a document type. -/
def tail (d : Declarations) (s : List Char) : Except TypeFault (Declarations × List Char) := do
  match ← piece s with
  | (.closes, rest) => return (d, rest)
  | (.openBracket, rest) =>
    let (d, rest) ← subset (rest.length + 1) d rest
    return (d, ← closing rest)
  | _ => throw .notWellFormed

/-- A document type after its keyword: what its declarations say, and what follows it. -/
def read (standalone : Bool) (s : List Char) : Except TypeFault (Declarations × List Char) := do
  match ← piece s with
  | (.name _, rest) =>
    match nextPiece? rest with
    | some (.name keyword, rest) =>
      tail { standalone, incomplete := true } (← externalId keyword rest)
    | _ => tail { standalone } rest
  | _ => throw .notWellFormed

end DocumentType

end Highlighter.Markup

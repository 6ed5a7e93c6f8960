import Highlighter.Text.Encoding

/-! Paths of files: a root and a list of parts. Empty parts and single dots are dropped when a path is
read; double dots stay until the path is resolved. -/

namespace Highlighter.Files

/-- The root is the slashes in front: none for a relative path, and exactly two make a root that is
told apart from a single one. -/
structure Path where
  root : String
  parts : List String
  deriving DecidableEq, Repr, Inhabited

/-- Why no file can have a path. -/
inductive PathFault where
  /-- It holds the character that ends a path. -/
  | nul
  /-- It cannot be written in bytes. -/
  | unencodable
  /-- It comes back to a link that is being followed. -/
  | loop
  deriving DecidableEq, Repr

section
variable {α : Type} [BEq α]

/-- The root of a text, from the slashes in front of it. -/
def rootOf (slash : α) (s : List α) : String :=
  match (s.takeWhile (· == slash)).length with
  | 0 => ""
  | 2 => "//"
  | _ => "/"

/-- The names in a text: what stands between slashes, without what is empty or a single dot. -/
def namesIn (slash dot : α) (s : List α) : List (List α) :=
  (s.splitOn slash).filter fun name => !(name.isEmpty || name == [dot])

/-- The parts that stay, and those that double dots leave of the ones before; the last comes first. -/
def resolveOnto (up : α) : List α → List α → List α
  | done, [] => done
  | done, part :: rest => resolveOnto up (if part == up then done.drop 1 else part :: done) rest

/-- A name up to its last dot and the rest; a dot at either end of the name separates nothing. -/
def splitAtDot (dot : α) (name : List α) : List α × List α :=
  let extension := (name.reverse.takeWhile (· != dot)).reverse
  let before := name.dropLast.length - extension.length
  if extension.length < name.length && !extension.isEmpty && 0 < before then
    (name.take before, dot :: extension)
  else (name, [])

end

namespace Path

def ofString (s : String) : Path :=
  ⟨rootOf '/' s.toList, (namesIn '/' '.' s.toList).map String.ofList⟩

def isAbsolute (p : Path) : Bool := p.root != ""

def toString (p : Path) : String :=
  let text := p.root ++ "/".intercalate p.parts
  if text == "" then "." else text

/-- An absolute second path replaces the first. -/
def join (p q : Path) : Path :=
  if q.isAbsolute then q else { p with parts := p.parts ++ q.parts }

def child (p : Path) (name : String) : Path := p.join (ofString name)

def fault? (p : Path) : Option PathFault :=
  if p.parts.any (·.toList.contains '\x00') then some .nul else none

/-- The path without double dots, relative ones taken from a directory. -/
def resolve (cwd p : Path) : Except PathFault Path :=
  let full := cwd.join p
  match full.fault? with
  | some f => .error f
  | none => .ok ⟨"/", (resolveOnto ".." [] full.parts).reverse⟩

def parent (p : Path) : Path := { p with parts := p.parts.dropLast }

def name (p : Path) : String := p.parts.getLast?.getD ""

/-- The name from its last dot on. -/
def suffix (p : Path) : String := String.ofList (splitAtDot '.' p.name.toList).2

/-- The parts below a directory, where the path lies below it. -/
def below? (p base : Path) : Option Path :=
  if p.root == base.root && base.parts.isPrefixOf p.parts then
    some ⟨"", p.parts.drop base.parts.length⟩
  else none

def isPlainInUri (b : UInt8) : Bool :=
  let c := Char.ofNat b.toNat
  c.isAlphanum || c == '_' || c == '.' || c == '-' || c == '~' || c == '/'

def upperHexDigit (n : Nat) : Char := (Nat.digitChar (n % 16)).toUpper

/-- The location of a file, its bytes percent-encoded. -/
def toUri (p : Path) : String :=
  let encode (b : UInt8) : List Char :=
    if isPlainInUri b then [Char.ofNat b.toNat]
    else ['%', upperHexDigit (b.toNat / 16), upperHexDigit b.toNat]
  "file://" ++ String.ofList ((Text.encodeUtf8 p.toString.toList).flatMap encode)

end Path

end Highlighter.Files

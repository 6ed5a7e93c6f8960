import Highlighter.Files.Path
import Highlighter.Text.Str

/-! Paths whose names may be no text. Each byte of a name that is part of no character stands in the path as a
surrogate of its own, and is that byte again where the system is asked about the path. -/

namespace Highlighter

open Highlighter.Files (PathFault)
open Highlighter.Text (Bytes)

namespace CodePoint

/-- The number of the surrogate that stands for the byte zero, if that were part of no character. -/
def firstByte : Nat := 0x400

/-- The surrogate that stands for a byte. -/
def ofByte (b : UInt8) : CodePoint :=
  .lone ⟨firstByte + b.toNat, by have := b.toNat_lt; simp only [firstByte]; omega⟩

/-- The bytes of a code point in the name of a file. Only bytes beyond ASCII can be part of no character. -/
def nameBytes? : CodePoint → Option Bytes
  | .char c => some (Text.encodeChar c)
  | .lone n => if firstByte + 0x80 ≤ n && n < firstByte + 0x100 then some [(n - firstByte).toUInt8] else none

end CodePoint

namespace Str

/-- The code points of a name in bytes, the number of which bounds the fuel. -/
def namePoints : Nat → Bytes → List CodePoint
  | 0, _ => []
  | _ + 1, [] => []
  | fuel + 1, b :: rest =>
    match Text.decodeStep b rest with
    | (some c, after) => .char c :: namePoints fuel after
    | (none, after) =>
      ((b :: rest).take (rest.length + 1 - after.length)).map .ofByte ++ namePoints fuel after

/-- The text of a name in bytes. -/
def ofName (name : Bytes) : Str := ofList (namePoints name.length name)

/-- The bytes by which the system knows a name. -/
def name (s : Str) : Except PathFault Bytes :=
  match s.toList.mapM CodePoint.nameBytes? with
  | none => .error .unencodable
  | some pieces => if pieces.flatten.contains 0 then .error .nul else .ok pieces.flatten

end Str

namespace Files

/-- A path as a program holds it. The root is as in a path of characters. -/
structure Route where
  root : String
  parts : List Str
  deriving DecidableEq, Repr, Inhabited

namespace Route

def ofStr (s : Str) : Route :=
  ⟨rootOf (.char '/') s.toList, (namesIn (.char '/') (.char '.') s.toList).map Str.ofList⟩

@[coe] def ofPath (p : Path) : Route := ⟨p.root, p.parts.map Str.ofString⟩

instance : Coe Path Route := ⟨ofPath⟩

def isAbsolute (r : Route) : Bool := r.root != ""

/-- The text of a path; that of one without names may be empty. -/
def text (r : Route) : Str := (r.root : Str) ++ Str.intercalate "/" r.parts

def toStr (r : Route) : Str := if r.text == "" then "." else r.text

/-- An absolute second path replaces the first. -/
def join (r s : Route) : Route := if s.isAbsolute then s else { r with parts := r.parts ++ s.parts }

def parent (r : Route) : Route := { r with parts := r.parts.dropLast }

/-- The last name up to its last dot. -/
def stem (r : Route) : Str :=
  Str.ofList (splitAtDot (.char '.') (r.parts.getLast?.getD "").toList).1

end Route

end Files

end Highlighter

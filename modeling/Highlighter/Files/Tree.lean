import Highlighter.Files.Path
import Highlighter.Text.Lines
import Highlighter.Text.Quoted

/-! A tree of files as a value: what is stored at each place, reading, writing, and the faults the
operating system reports. -/

namespace Highlighter.Files

open Highlighter.Text (Bytes)

/-- A place in the tree: the names from the root on. -/
abbrev Place := List String

inductive Entry where
  | file (content : Bytes)
  | directory
  deriving DecidableEq, Repr

/-- Each place is listed once, and every ancestor of a listed place is a listed directory. -/
structure Tree where
  entries : List (Place × Entry)
  deriving Repr, Inhabited

inductive Fault where
  | missing
  | exists
  | notDirectory
  | isDirectory
  | brokenPipe
  | nameTooLong
  /-- Any other one, by its number and its text. -/
  | other (number : Nat) (text : String)
  deriving DecidableEq, Repr

def Fault.number : Fault → Nat
  | .missing => 2
  | .exists => 17
  | .notDirectory => 20
  | .isDirectory => 21
  | .brokenPipe => 32
  | .nameTooLong => 36
  | .other number _ => number

def Fault.text : Fault → String
  | .missing => "No such file or directory"
  | .exists => "File exists"
  | .notDirectory => "Not a directory"
  | .isDirectory => "Is a directory"
  | .brokenPipe => "Broken pipe"
  | .nameTooLong => "File name too long"
  | .other _ text => text

def Fault.header (f : Fault) : String := s!"[Errno {f.number}] {f.text}"

/-- A fault with the path it happened at. -/
structure FileError where
  fault : Fault
  path : Str
  deriving DecidableEq, Repr

def FileError.message (e : FileError) : String :=
  s!"{e.fault.header}: {Text.quotedString e.path}"

/-- Why a text is not written. -/
inductive WriteFault where
  | file (e : FileError)
  /-- It has no form in bytes; the tree that is left. -/
  | unencodable (left : Tree)

/-- How many bytes a name may take. -/
def greatestNameSize : Nat := 255

/-- How many bytes a path may take. -/
def greatestPathSize : Nat := 4095

def isLongName (name : String) : Bool := greatestNameSize < name.utf8ByteSize

def Path.isLong (p : Path) : Bool := greatestPathSize < p.toString.utf8ByteSize

namespace Tree

def empty : Tree := ⟨[]⟩

/-- The root is always a directory. -/
def entry? (t : Tree) (place : Place) : Option Entry :=
  if place.isEmpty then some .directory else t.entries.lookup place

/-- Follows the parts of a path from a place; only a directory has something below it. -/
def walk (t : Tree) : Place → List String → Except Fault Place
  | place, [] => .ok place
  | place, part :: rest =>
    match t.entry? place with
    | none => .error .missing
    | some (.file _) => .error .notDirectory
    | some .directory =>
      if isLongName part then .error .nameTooLong
      else walk t (if part == ".." then place.dropLast else place ++ [part]) rest

def locate (t : Tree) (p : Path) : Except Fault Place :=
  if p.isLong then .error .nameTooLong else t.walk [] p.parts

/-- What is stored at a path. That nothing can be stored there is no error, unless the path is too
long. -/
def find? (t : Tree) (p : Path) : Except FileError (Option Entry) :=
  match p.fault?, t.locate p with
  | some _, _ => .ok none
  | none, .ok place => .ok (t.entry? place)
  | none, .error .nameTooLong => .error ⟨.nameTooLong, p.toString⟩
  | none, .error _ => .ok none

def has (t : Tree) (p : Path) : Except FileError Bool := (t.find? p).map (·.isSome)

def isFile (t : Tree) (p : Path) : Except FileError Bool :=
  (t.find? p).map fun found => found.any fun e => e != .directory

def isDirectory (t : Tree) (p : Path) : Except FileError Bool :=
  (t.find? p).map (· == some .directory)

def read (t : Tree) (p : Path) : Except FileError Bytes :=
  let fail (f : Fault) : Except FileError Bytes := .error ⟨f, p.toString⟩
  match t.locate p with
  | .error f => fail f
  | .ok place =>
    match t.entry? place with
    | none => fail .missing
    | some .directory => fail .isDirectory
    | some (.file content) => .ok content

/-- Stores an entry at a place, in the position of what was there. -/
def set (t : Tree) (place : Place) (e : Entry) : Tree :=
  if t.entries.any (·.1 == place) then
    ⟨t.entries.map fun x => if x.1 == place then (place, e) else x⟩
  else ⟨t.entries ++ [(place, e)]⟩

def write (t : Tree) (p : Path) (content : Bytes) : Except FileError Tree :=
  let fail (f : Fault) : Except FileError Tree := .error ⟨f, p.toString⟩
  match t.locate p with
  | .error f => fail f
  | .ok place =>
    match t.entry? place, t.entry? place.dropLast with
    | some .directory, _ => fail .isDirectory
    | some (.file _), _ => .ok (t.set place (.file content))
    | none, some .directory => .ok (t.set place (.file content))
    | none, some (.file _) => fail .notDirectory
    | none, none => fail .missing

/-- Makes the directories of a path that are missing, from a place on below which the path has the given
parts. Where one cannot be made, the fault is that of the first attempt: to make the whole path or,
after an ancestor had to be made, the path up to there. -/
def makeFrom (t : Tree) (p : Path) (anyMade : Bool) : Place → List String → Except FileError Tree
  | _, [] => .ok t
  | place, part :: rest =>
    let next := if part == ".." then place.dropLast else place ++ [part]
    let tried := if anyMade then { p with parts := p.parts.take (p.parts.length - rest.length) } else p
    if isLongName part then .error ⟨.nameTooLong, tried.toString⟩
    else
      match t.entry? next with
      | some .directory => makeFrom t p anyMade next rest
      | some (.file _) => .error ⟨if rest.isEmpty then .exists else .notDirectory, p.toString⟩
      | none => makeFrom (t.set next .directory) p true next rest

/-- Makes a directory and its missing ancestors; one that is there already is fine. -/
def makeDirectories (t : Tree) (p : Path) : Except FileError Tree :=
  if p.isLong then .error ⟨.nameTooLong, p.toString⟩ else t.makeFrom p false [] p.parts

/-- Removes a file, or a directory with everything below it. -/
def remove (t : Tree) (p : Path) : Tree :=
  match t.locate p with
  | .ok place => ⟨t.entries.filter fun e => !place.isPrefixOf e.1⟩
  | .error _ => t

/-- The text of a file with uniform line ends; `none` where the bytes are no text. -/
def readText (t : Tree) (p : Path) : Except FileError (Option (List Char)) :=
  (t.read p).map fun content => (Text.decodeUtf8? content).map Text.unifyLineEnds

/-- Writes a text. One that cannot be written in bytes, which is none of characters, leaves an empty file. -/
def writeText (t : Tree) (p : Path) : Option String → Except WriteFault Tree
  | some text => (t.write p (Text.encodeUtf8 text.toList)).mapError .file
  | none => do throw (.unencodable (← (t.write p []).mapError .file))

/-- Writes a text, making the directories above that are missing. -/
def store (t : Tree) (p : Path) (text : Option String) : Except WriteFault Tree := do
  (← (t.makeDirectories p.parent).mapError .file).writeText p text

end Tree

end Highlighter.Files

import Highlighter.Files.Route
import Highlighter.Files.Tree

/-! Files as the system answers for them, by name, and paths with their links followed. -/

namespace Highlighter.Files

open Highlighter.Text (Bytes)

/-- What the system answers as long as nothing is written, whatever is stored and linked where. Names that do not
start at the root are taken from the directory in which the program runs. -/
structure Disk where
  /-- Where a link leads; nothing for all that is no link or not there. -/
  link? : Bytes → Option Bytes
  /-- Whether a name leads through too many links. -/
  isLoop : Bytes → Bool
  read : Bytes → Except Fault Bytes
  /-- Longer names are refused. -/
  link?_long : ∀ name : Bytes, greatestPathSize < name.length → link? name = none
  read_long : ∀ name : Bytes, greatestPathSize < name.length → read name = .error .nameTooLong

/-- The links that are followed, with what each was found to lead to, as far as it is known. -/
abbrev Trail := List (Route × Option Route)

/-- How far a path was followed: to its end, or to a link that is being followed already. Then the text is left
as it is from there on. -/
inductive Followed where
  | done (route : Route) (trail : Trail)
  | stuck (text : List CodePoint)

def Followed.text : Followed → List CodePoint
  | .done route _ => route.text.toList
  | .stuck text => text

/-- A text after another one that names a directory. An absolute one replaces it. -/
def joinText (base text : List CodePoint) : List CodePoint :=
  if text.head? == some (.char '/') then text
  else if base.isEmpty || base.getLast? == some (.char '/') then base ++ text
  else base ++ .char '/' :: text

/-- What is left of a text, put behind another. -/
def joinRest (base : List CodePoint) (rest : List (List CodePoint)) : List CodePoint :=
  joinText base ([CodePoint.char '/'].intercalate rest)

namespace Route

/-- One double dot more: the last name is taken off, unless it is a double dot itself. At the root it changes
nothing. -/
def up (r : Route) : Route :=
  match r.parts.getLast? with
  | none => if r.isAbsolute then r else { r with parts := [".."] }
  | some last => if last == ".." then { r with parts := r.parts ++ [last] } else r.parent

def add (r : Route) (name : List CodePoint) : Route := { r with parts := r.parts ++ [.ofList name] }

end Route

namespace Disk

/-- Where a path leads that is a link. -/
def target? (disk : Disk) (r : Route) : Except PathFault (Option Str) :=
  r.text.name.map fun name => (disk.link? name).map .ofName

/-- Follows the names of a text one by one; `follow` goes where a link leads. -/
def followNames (disk : Disk) (follow : Route → Str → Trail → Except PathFault Followed) :
    Route → Trail → List (List CodePoint) → Except PathFault Followed
  | here, trail, [] => .ok (.done here trail)
  | here, trail, name :: rest =>
    if name.isEmpty || name == [.char '.'] then followNames disk follow here trail rest
    else if name == [.char '.', .char '.'] then followNames disk follow here.up trail rest
    else do
      let next := here.add name
      match ← disk.target? next with
      | none => followNames disk follow next trail rest
      | some target =>
        match trail.lookup next with
        | some (some found) => followNames disk follow found trail rest
        | some none => return .stuck (joinRest next.text.toList rest)
        | none =>
          match ← follow here target ((next, none) :: trail) with
          | .stuck text => return .stuck (joinRest text rest)
          | .done found trail => followNames disk follow found ((next, some found) :: trail) rest

/-- Follows a text from a path on. Each level goes into a link that is not on the trail, so that the number of
names that can be links bounds the fuel. -/
def followText (disk : Disk) : Nat → Route → Str → Trail → Except PathFault Followed
  | 0, here, _, trail => .ok (.done here trail)
  | fuel + 1, here, text, trail =>
    let start : Route := if text.toList.head? == some (.char '/') then ⟨"/", []⟩ else here
    followNames disk (followText disk fuel) start trail (text.toList.splitOn (.char '/'))

/-- No more than there are texts that make up a name which is not too long: each code point takes one of fewer than
`2 ^ 21` values. -/
def nameBound : Nat := Nat.pow 2 (21 * (greatestPathSize + 1))

/-- The path without links and double dots, relative ones taken from a directory. -/
def resolve (disk : Disk) (cwd r : Route) : Except PathFault Route := do
  let followed ← followText disk nameBound ⟨"", []⟩ r.toStr []
  let full : List CodePoint := joinText cwd.text.toList followed.text
  let parts := (namesIn (.char '/') (.char '.') full).map Str.ofList
  let found : Route := ⟨rootOf (.char '/') full, (resolveOnto (".." : Str) [] parts).reverse⟩
  if disk.isLoop (← found.toStr.name) then throw .loop
  return found

end Disk

namespace Tree

/-- Why nothing has a path from a place on, one of whose names is no text. -/
def faultOf (t : Tree) : Place → List Str → Fault
  | _, [] => .missing
  | place, part :: rest =>
    match t.entry? place with
    | none => .missing
    | some (.file _) => .notDirectory
    | some .directory =>
      if part.name.toOption.any (greatestNameSize < ·.length) then .nameTooLong
      else
        match part.text? with
        | none => .missing
        | some name => t.faultOf (if name == ".." then place.dropLast else place ++ [name]) rest

/-- What is stored under a name in bytes. -/
def readName (t : Tree) (name : Bytes) : Except Fault Bytes :=
  if greatestPathSize < name.length then .error .nameTooLong
  else
    let s := Str.ofName name
    match s.text? with
    | some text => (t.read (.ofString text)).mapError (·.fault)
    | none => .error (t.faultOf [] (Route.ofStr s).parts)

/-- The answers for a tree, in which there are no links. -/
def disk (t : Tree) : Disk where
  link? _ := none
  isLoop _ := false
  read := t.readName
  link?_long _ _ := rfl
  read_long _ h := if_pos h

end Tree

end Highlighter.Files

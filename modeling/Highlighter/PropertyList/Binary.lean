import Highlighter.Decimal.Shortest
import Highlighter.Json.Basic
import Highlighter.Text.Encoding

/-! Property lists as numbered objects in bytes. The last 32 bytes tell where a table of offsets stands,
one for each object; containers name their members by number. Dates, bytes and identifiers, which JSON
lacks, become truth values: true, unless there are no bytes. -/

namespace Highlighter.PropertyList.Binary

open Highlighter.Decimal (Binary64)
open Highlighter.Json (Value)
open Highlighter.Text (Bytes)

/-- An object: a value of its own, or the numbers of the members of a container. -/
inductive Node where
  | leaf (v : Value)
  | array (items : List Nat)
  /-- Keys and values. -/
  | dict (members : List (Nat × Nat))

/-- The bytes with what the end of them says. -/
structure Layout where
  bytes : Array UInt8
  /-- How many bytes the number of a member takes. -/
  width : Nat
  offsets : Array Nat
  top : Nat

/-! ### Numbers -/

/-- Bytes from a place on, as far as there are any. -/
def slice (bytes : Array UInt8) (start count : Nat) : Bytes :=
  (bytes.extract start (start + count)).toList

/-- The number that bytes stand for, the highest first. -/
def number (bs : Bytes) : Nat := bs.foldl (fun n b => 256 * n + b.toNat) 0

/-- The same for a number in two's complement. -/
def signedNumber (bs : Bytes) : Int :=
  if bs.head?.any (128 ≤ ·) then (number bs : Int) - (Nat.pow 2 (8 * bs.length) : Nat)
  else number bs

/-- The number of all the bytes from a place on. -/
def numberAt? (bytes : Array UInt8) (start width : Nat) : Option Nat :=
  if start + width ≤ bytes.size then some (number (slice bytes start width)) else none

/-- Numbers of one width from a place on. -/
def numbersAt? (bytes : Array UInt8) (start width count : Nat) : Option (List Nat) :=
  if width == 0 || bytes.size < start + width * count then none
  else some ((List.range count).map fun i => number (slice bytes (start + width * i) width))

/-! ### Texts -/

def ascii? (bs : Bytes) : Option String :=
  if bs.all (· < 128) then some (String.ofList (bs.map fun b => Char.ofNat b.toNat)) else none

/-- The characters of units of two bytes; surrogates stand in pairs only. -/
def unicode? : Bytes → Option (List Char)
  | a :: b :: rest =>
    let unit := a.toNat * 256 + b.toNat
    if unit < 0xD800 || 0xE000 ≤ unit then (unicode? rest).map (Char.ofNat unit :: ·)
    else
      match rest with
      | c :: d :: rest =>
        let low := c.toNat * 256 + d.toNat
        if unit < 0xDC00 && 0xDC00 ≤ low && low < 0xE000 then
          let code := 0x10000 + (unit - 0xD800) * 1024 + (low - 0xDC00)
          (unicode? rest).map (Char.ofNat code :: ·)
        else none
      | _ => none
  | [] => some []
  | [_] => none

/-! ### Objects -/

/-- Whether a number of seconds since the year 2001 falls into the years 1 to 9999. -/
def isDate (x : Binary64) : Bool :=
  (x.truncate?).isSome && !x.isBelow (-63113904000) && x.isBelow 252423993600

/-- The size of an object and the place after it: the low half of the mark, or a number that follows. -/
def size? (l : Layout) (low place : Nat) : Option (Nat × Nat) :=
  if low != 15 then some (low, place)
  else do
    let width := Nat.pow 2 ((← l.bytes[place]?).toNat % 4)
    return (← numberAt? l.bytes (place + 1) width, place + 1 + width)

/-- The bytes of an object whose units have a width. -/
def content? (l : Layout) (low place width : Nat) : Option Bytes := do
  let (size, place) ← size? l low place
  guard (place + width * size ≤ l.bytes.size)
  return slice l.bytes place (width * size)

/-- The object at a place. Numbers may be cut short by the end of the bytes. -/
def node? (l : Layout) (place : Nat) : Option Node := do
  let mark := (← l.bytes[place]?).toNat
  let (high, low, place) := (mark / 16, mark % 16, place + 1)
  match high with
  | 0 =>
    if low == 0 then return .leaf .null
    else if low == 8 || low == 15 then return .leaf (.bool false)
    else if low == 9 then return .leaf (.bool true)
    else none
  | 1 =>
    let bs := slice l.bytes place (Nat.pow 2 low)
    return .leaf (.int (if 3 ≤ low then signedNumber bs else number bs))
  | 2 =>
    if low == 2 then return .leaf (.float (.ofBits 8 23 (← numberAt? l.bytes place 4)))
    else if low == 3 then return .leaf (.float (.ofBits 11 52 (← numberAt? l.bytes place 8)))
    else none
  | 3 =>
    guard (low == 3 && isDate (.ofBits 11 52 (← numberAt? l.bytes place 8)))
    return .leaf (.bool true)
  | 4 => return .leaf (.bool !(← content? l low place 1).isEmpty)
  | 5 => return .leaf (.string (← ascii? (← content? l low place 1)))
  | 6 => return .leaf (.string (String.ofList (← unicode? (← content? l low place 2))))
  | 8 =>
    guard (number (slice l.bytes place (low + 1)) < Nat.pow 2 64)
    return .leaf (.bool true)
  | 10 =>
    let (size, place) ← size? l low place
    return .array (← numbersAt? l.bytes place l.width size)
  | 13 =>
    let (size, place) ← size? l low place
    let keys ← numbersAt? l.bytes place l.width size
    let values ← numbersAt? l.bytes (place + l.width * size) l.width size
    return .dict (keys.zip values)
  | _ => none

def Node.members : Node → List Nat
  | .leaf _ => []
  | .array items => items
  | .dict members => members.flatMap fun (k, v) => [k, v]

abbrev Nodes := Array (Option Node)

/-- Reads the objects that are due and those that they name. The fuel bounds how often an object is
named. -/
def explore (l : Layout) : Nat → List Nat → Nodes → Option Nodes
  | 0, _, _ => none
  | _ + 1, [], nodes => some nodes
  | fuel + 1, due :: rest, nodes => do
    match ← nodes[due]? with
    | some _ => explore l fuel rest nodes
    | none =>
      let node ← node? l (← l.offsets[due]?)
      explore l fuel (node.members ++ rest) (nodes.setIfInBounds due (some node))

/-! ### Values -/

/-- The text of a value that is a key, if it may be one. -/
def keyText? : Value → Option Str
  | .string s => some s
  | .int n => some (toString n)
  | .float x => some (String.ofList (x.render "NaN".toList "Infinity".toList))
  | .bool b => some (if b then "true" else "false")
  | .null => some "null"
  | .array _ | .object _ => none

def key? (nodes : Nodes) (i : Nat) : Option Str :=
  match nodes[i]? with
  | some (some (.leaf v)) => keyText? v
  | _ => none

/-- Whether every key is a value of its own. -/
def hasPlainKeys (nodes : Nodes) : Bool :=
  nodes.all fun
    | some (.dict members) => members.all fun m => (key? nodes m.1).isSome
    | _ => true

/-- The value of an object, the values of its members being given. -/
def Node.value? (nodes : Nodes) (member? : Nat → Option Value) : Node → Option Value
  | .leaf v => some v
  | .array items => (items.mapM member?).map .array
  | .dict members => do
    let members ← members.mapM fun (k, v) => do return ((← key? nodes k), (← member? v))
    return .object (members.foldl (fun ms m => Json.put ms m.1 m.2) [])

abbrev Values := Array (Option Value)

/-- The values that follow from those already known. -/
def settleOnce (nodes : Nodes) (known : Values) : Values :=
  nodes.mapIdx fun i node =>
    match known[i]? with
    | some (some v) => some v
    | _ => node.bind (Node.value? nodes fun m => (known[m]?).join)

/-- The values of all objects around which no reference leads back, as far as the top needs them. -/
def settle (nodes : Nodes) (top : Nat) : Nat → Values → Values
  | 0, known => known
  | rounds + 1, known =>
    if ((known[top]?).join).isSome then known else settle nodes top rounds (settleOnce nodes known)

/-- How often a way that leads back to where it began is followed before it breaks off. -/
def unrolledRounds : Nat := 1000

/-- Goes once around the ways that lead back; where one breaks off stands `null`. -/
def unrollOnce (nodes : Nodes) (settled around : Values) : Values :=
  nodes.mapIdx fun i node =>
    match (settled[i]?).join with
    | some v => some v
    | none =>
      node.bind (Node.value? nodes fun m =>
        some ((((settled[m]?).join) <|> ((around[m]?).join)).getD .null))

/-- The value of the object at the top. -/
def valueOf? (nodes : Nodes) (top : Nat) : Option Value :=
  let settled := settle nodes top (nodes.size + 1) (Array.replicate nodes.size none)
  match (settled[top]?).join with
  | some v => some v
  | none => ((unrolledRounds.fold (fun _ _ around => unrollOnce nodes settled around) settled)[top]?).join

/-- What the last bytes say. -/
def layout? (bytes : Array UInt8) : Option Layout := do
  guard (32 ≤ bytes.size)
  let start := bytes.size - 32
  let at? (place width : Nat) : Option Nat := numberAt? bytes (start + place) width
  let count ← at? 8 8
  let offsets ← numbersAt? bytes (← at? 24 8) (← at? 6 1) count
  return ⟨bytes, ← at? 7 1, offsets.toArray, ← at? 16 8⟩

/-- The value of a list in this form. -/
def read? (bytes : Bytes) : Option Value := do
  let l ← layout? bytes.toArray
  let count := l.offsets.size
  let nodes ← explore l (2 * l.bytes.size * (count + 1) + 2) [l.top] (Array.replicate count none)
  guard (hasPlainKeys nodes)
  valueOf? nodes l.top

end Highlighter.PropertyList.Binary

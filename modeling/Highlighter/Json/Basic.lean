import Highlighter.Decimal.Binary64
import Highlighter.Text.Str

/-! JSON values. An object keeps the order in which its members were written, and each name once. -/

namespace Highlighter.Json

open Highlighter.Decimal (Binary64)

inductive Value where
  | null
  | bool (b : Bool)
  | int (n : Int)
  | float (x : Binary64)
  | string (s : Str)
  | array (items : List Value)
  | object (members : List (Str × Value))
  deriving Inhabited

abbrev Members := List (Str × Value)

/-- The value of a name. -/
def find? (members : Members) (name : Str) : Option Value := members.lookup name

/-- Gives a name a value: a name already present keeps its place. -/
def put (members : Members) (name : Str) (v : Value) : Members :=
  if members.any (·.1 == name) then
    members.map fun m => if m.1 == name then (name, v) else m
  else members ++ [(name, v)]

namespace Value

def get? : Value → Str → Option Value
  | .object members, name => find? members name
  | _, _ => none

def string? : Value → Option Str
  | .string s => some s
  | _ => none

def array? : Value → Option (List Value)
  | .array items => some items
  | _ => none

def object? : Value → Option Members
  | .object members => some members
  | _ => none

def ofString? : Option Str → Value
  | some s => .string s
  | none => .null

def ofStrings (items : List String) : Value := .array (items.map fun s : String => .string s)

mutual

/-- Equality of the values meant: an integer, a double and a truth value are compared as numbers,
members are compared without their order, and a NaN differs from everything. -/
def agrees : Value → Value → Bool
  | .null, .null => true
  | .string s, .string t => s == t
  | .array xs, .array ys => itemsAgree xs ys
  | .object ms, .object ns => ms.length == ns.length && membersAgree ms ns
  | .float x, .float y => x.equals y
  | .float x, .int n => x.equalsInt n
  | .float x, .bool b => x.equalsInt b.toInt
  | .int n, .float x => x.equalsInt n
  | .bool b, .float x => x.equalsInt b.toInt
  | .int n, .int k => n == k
  | .int n, .bool b => n == b.toInt
  | .bool b, .int n => b.toInt == n
  | .bool a, .bool b => a == b
  | _, _ => false

def itemsAgree : List Value → List Value → Bool
  | [], [] => true
  | x :: xs, y :: ys => agrees x y && itemsAgree xs ys
  | _, _ => false

/-- Every member on the left has an agreeing one of its name on the right. -/
def membersAgree : List (Str × Value) → List (Str × Value) → Bool
  | [], _ => true
  | m :: ms, ns =>
    (match ns.lookup m.1 with
      | some v => agrees m.2 v
      | none => false) && membersAgree ms ns

end

mutual

/-- Whether all texts and names in a value can be written in bytes. -/
def isEncodable : Value → Bool
  | .string s => s.isEncodable
  | .array items => itemsEncodable items
  | .object members => membersEncodable members
  | _ => true

def itemsEncodable : List Value → Bool
  | [] => true
  | v :: items => v.isEncodable && itemsEncodable items

def membersEncodable : List (Str × Value) → Bool
  | [] => true
  | m :: members => m.1.isEncodable && m.2.isEncodable && membersEncodable members

end

end Value

theorem isEncodable_array {items : List Value} :
    (Value.array items).isEncodable = true ↔ ∀ v ∈ items, v.isEncodable = true := by
  rw [Value.isEncodable]
  induction items with
  | nil => simp [Value.itemsEncodable]
  | cons v items ih => rw [Value.itemsEncodable, Bool.and_eq_true, ih, List.forall_mem_cons]

theorem isEncodable_object {members : Members} : (Value.object members).isEncodable = true ↔
    ∀ m ∈ members, m.1.isEncodable = true ∧ m.2.isEncodable = true := by
  rw [Value.isEncodable]
  induction members with
  | nil => simp [Value.membersEncodable]
  | cons m members ih =>
    rw [Value.membersEncodable, Bool.and_eq_true, Bool.and_eq_true, ih, List.forall_mem_cons]

theorem isEncodable_ofStrings (items : List String) : (Value.ofStrings items).isEncodable = true := by
  refine isEncodable_array.mpr fun v hv => ?_
  obtain ⟨s, -, rfl⟩ := List.mem_map.mp hv
  exact Str.isEncodable_ofString s

end Highlighter.Json

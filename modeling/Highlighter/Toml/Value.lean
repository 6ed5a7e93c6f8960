import Highlighter.Decimal.Binary64

/-! TOML values, and the tables of a document while it is read. A table that a header has opened, or
that a dotted key has gone through in an earlier section, is closed: neither can open it again. -/

namespace Highlighter.Toml

open Highlighter.Decimal (Binary64)

inductive Value where
  | string (s : String)
  | int (n : Int)
  | float (x : Binary64)
  | bool (b : Bool)
  /-- A date, a time, or both; which one is not kept. -/
  | moment
  | array (items : List Value)
  | table (members : List (String × Value))
  deriving Inhabited

namespace Value

def string? : Value → Option String
  | .string s => some s
  | _ => none

def array? : Value → Option (List Value)
  | .array items => some items
  | _ => none

def table? : Value → Option (List (String × Value))
  | .table members => some members
  | _ => none

end Value

/-- What a key stands for while a document is read. Sections, which headers begin, are numbered. -/
inductive Node where
  /-- A value behind an equals sign, with no room for more in it. -/
  | value (v : Value)
  /-- A table, and the section after which it is closed; one opened by a header is closed from the
  start. -/
  | table (closedAfter : Option Nat) (members : List (String × Node))
  /-- An array of tables; the last one, which comes first here, is the one that is added to. -/
  | tables (members : List (String × Node)) (earlier : List (List (String × Node)))
  deriving Inhabited

abbrev Nodes := List (String × Node)

/-- Gives a key a node: a key already present keeps its place. -/
def Nodes.put (nodes : Nodes) (key : String) (n : Node) : Nodes :=
  if nodes.any (·.1 == key) then nodes.map fun m => if m.1 == key then (key, n) else m
  else nodes ++ [(key, n)]

/-- Works on what is below a key on the way to a table, which is made if there is none. There is no
way through a value. -/
def Nodes.below (nodes : Nodes) (key : String) (work : Nodes → Option Nodes) : Option Nodes :=
  match nodes.lookup key with
  | none => (work []).map fun below => nodes.put key (.table none below)
  | some (.table closed members) =>
    (work members).map fun below => nodes.put key (.table closed below)
  | some (.tables last earlier) =>
    (work last).map fun below => nodes.put key (.tables below earlier)
  | some (.value _) => none

/-- Opens the table of a header. -/
def Nodes.openTable (nodes : Nodes) : List String → Option Nodes
  | [] => some nodes
  | [key] =>
    match nodes.lookup key with
    | none => some (nodes.put key (.table (some 0) []))
    | some (.table none members) => some (nodes.put key (.table (some 0) members))
    | some _ => none
  | key :: path => nodes.below key fun below => Nodes.openTable below path

/-- Adds a table to the array of a header. -/
def Nodes.addTable (nodes : Nodes) : List String → Option Nodes
  | [] => some nodes
  | [key] =>
    match nodes.lookup key with
    | none => some (nodes.put key (.tables [] []))
    | some (.tables last earlier) => some (nodes.put key (.tables [] (last :: earlier)))
    | some _ => none
  | key :: path => nodes.below key fun below => Nodes.addTable below path

/-- Gives a dotted key a value in a section. The tables on the way must not be closed. -/
def Nodes.setDotted (nodes : Nodes) (part : Nat) (v : Value) : List String → Option Nodes
  | [] => none
  | [key] => if nodes.any (·.1 == key) then none else some (nodes ++ [(key, .value v)])
  | key :: path =>
    match nodes.lookup key with
    | none =>
      (Nodes.setDotted [] part v path).map fun below =>
        nodes.put key (.table (some part) below)
    | some (.table closed members) =>
      if closed.any (· < part) then none
      else (Nodes.setDotted members part v path).map fun below =>
        nodes.put key (.table (some part) below)
    | some _ => none

/-- Gives a dotted key a value in the table of a header. -/
def Nodes.set (nodes : Nodes) (part : Nat) (key : List String) (v : Value) :
    List String → Option Nodes
  | [] => nodes.setDotted part v key
  | name :: header => nodes.below name fun below => Nodes.set below part key v header

mutual

def Node.toValue : Node → Value
  | .value v => v
  | .table _ members => .table (nodesValues members)
  | .tables last earlier => .array ((tablesValues earlier).reverse ++ [.table (nodesValues last)])

def nodesValues : List (String × Node) → List (String × Value)
  | [] => []
  | m :: rest => (m.1, m.2.toValue) :: nodesValues rest

def tablesValues : List (List (String × Node)) → List Value
  | [] => []
  | t :: rest => .table (nodesValues t) :: tablesValues rest

end

end Highlighter.Toml

import Highlighter.Toml.Number

/-! Reading a TOML document. Line ends are single line feeds. -/

namespace Highlighter.Toml

inductive ReadError where
  | malformed
  /-- A decimal integer with more digits than are accepted. -/
  | hugeInteger
  deriving DecidableEq, Repr

def orMalformed {α : Type} : Option α → Except ReadError α
  | some x => .ok x
  | none => .error .malformed

/-- What follows a comment, or the text itself where none starts; nothing where a character is
forbidden in the comment. -/
def skipComment : List Char → Option (List Char)
  | '#' :: rest =>
    if (rest.takeWhile (· != '\n')).any isForbidden then none
    else some (rest.dropWhile (· != '\n'))
  | s => some s

/-- What follows blanks, line ends and comments. -/
def skipFiller : Nat → List Char → Option (List Char)
  | 0, s => some s
  | fuel + 1, s =>
    match skipBlanksAndLines s with
    | '#' :: rest => do skipFiller fuel (← skipComment ('#' :: rest))
    | s => some s

def filler (s : List Char) : Except ReadError (List Char) := orMalformed (skipFiller s.length s)

/-- A value that holds no others. -/
def scalar (s : List Char) : Except ReadError (Value × List Char) :=
  match string? s with
  | some reading => orMalformed (reading.map fun (x, after) => (.string (String.ofList x), after))
  | none =>
    if "true".toList.isPrefixOf s then .ok (.bool true, s.drop 4)
    else if "false".toList.isPrefixOf s then .ok (.bool false, s.drop 5)
    else match date? s, time? s, number? s with
      | some (day, after), _, _ => if day.exists then .ok (.moment, after) else .error .malformed
      | none, some after, _ => .ok (.moment, after)
      | none, none, some (.int n, after) => .ok (.int n, after)
      | none, none, some (.float x, after) => .ok (.float x, after)
      | none, none, some (.huge, _) => .error .hugeInteger
      | none, none, none => .error .malformed

mutual

/-- A value. The fuel bounds the steps into arrays and tables and along them. -/
def value : Nat → List Char → Except ReadError (Value × List Char)
  | 0, _ => .error .malformed
  | fuel + 1, '[' :: rest => do
    let (items, after) ← items fuel (← filler rest)
    return (.array items, after)
  | fuel + 1, '{' :: rest =>
    match skipBlanks rest with
    | '}' :: after => .ok (.table [], after)
    | s => do
      let (nodes, after) ← inlineMembers fuel [] s
      return (.table (nodesValues nodes), after)
  | _ + 1, s => scalar s

/-- The items of an array up to its closing bracket; a comma may stand after the last one. -/
def items : Nat → List Char → Except ReadError (List Value × List Char)
  | 0, _ => .error .malformed
  | fuel + 1, s =>
    match s with
    | ']' :: after => .ok ([], after)
    | s => do
      let (v, after) ← value fuel s
      match ← filler after with
      | ']' :: after => return ([v], after)
      | ',' :: rest =>
        let (vs, after) ← items fuel (← filler rest)
        return (v :: vs, after)
      | _ => throw .malformed

/-- The members of a table in braces up to the closing one, added to those before. -/
def inlineMembers : Nat → Nodes → List Char → Except ReadError (Nodes × List Char)
  | 0, _, _ => .error .malformed
  | fuel + 1, before, s => do
    let (path, after) ← orMalformed (key s)
    match after with
    | '=' :: rest =>
      let (v, after) ← value fuel (skipBlanks rest)
      let nodes ← orMalformed (before.setDotted 0 v path)
      match skipBlanks after with
      | '}' :: after => return (nodes, after)
      | ',' :: rest => inlineMembers fuel nodes (skipBlanks rest)
      | _ => throw .malformed
    | _ => throw .malformed

end

/-- A document as far as it is read: its tables, the header of the current section and its number. -/
structure Document where
  nodes : Nodes := []
  header : List String := []
  part : Nat := 1

namespace Document

/-- A key with its value. -/
def assignment (d : Document) (s : List Char) : Except ReadError (Document × List Char) := do
  let (path, after) ← orMalformed (key s)
  match after with
  | '=' :: rest =>
    let rest := skipBlanks rest
    let (v, after) ← value (2 * rest.length + 2) rest
    let nodes ← orMalformed (d.nodes.set d.part path v d.header)
    return ({ d with nodes }, after)
  | _ => throw .malformed

/-- A header; the text starts after its first bracket. -/
def headline (d : Document) (s : List Char) : Option (Document × List Char) :=
  match s with
  | '[' :: rest => do
    let (path, after) ← key (skipBlanks rest)
    let nodes ← d.nodes.addTable path
    match after with
    | ']' :: ']' :: after => return (⟨nodes, path, d.part + 1⟩, after)
    | _ => none
  | s => do
    let (path, after) ← key (skipBlanks s)
    let nodes ← d.nodes.openTable path
    match after with
    | ']' :: after => return (⟨nodes, path, d.part + 1⟩, after)
    | _ => none

/-- The statement of a line, if it has one. -/
def statement (d : Document) (s : List Char) : Except ReadError (Document × List Char) :=
  match s with
  | [] => .ok (d, [])
  | c :: rest =>
    if c == '\n' || c == '#' then .ok (d, s)
    else if startsKey c then d.assignment s
    else if c == '[' then orMalformed (d.headline rest)
    else .error .malformed

/-- Reads line by line to the end; the fuel is more than the number of lines. -/
def lines : Nat → Document → List Char → Except ReadError Document
  | 0, d, _ => .ok d
  | fuel + 1, d, s => do
    let (d, after) ← d.statement (skipBlanks s)
    match ← orMalformed (skipComment (skipBlanks after)) with
    | [] => return d
    | '\n' :: rest => lines fuel d rest
    | _ => throw .malformed

end Document

/-- The table of a document. -/
def read (s : List Char) : Except ReadError (List (String × Value)) :=
  (Document.lines (s.length + 1) {} s).map fun d => nodesValues d.nodes

end Highlighter.Toml

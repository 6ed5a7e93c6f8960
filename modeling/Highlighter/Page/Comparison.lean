import Highlighter.Page.View

/-! The page that shows two versions of highlighted text side by side, with the differences in look
outlined. -/

namespace Highlighter.Page

open Highlighter.Snapshot (Entry)

def looksEqual (a b : Entry) : Bool := a.foreground == b.foreground && a.fontStyle == b.fontStyle

/-- The first entry of a line that holds a column. -/
def entryAt? (line : List Entry) (column : Int) : Option Entry :=
  line.find? fun e => e.startChar ≤ column && column < e.endChar

/-- Whether some of so many columns from one on satisfies a condition; no column after the first such
one is looked at. -/
def anyColumn (p : Int → Bool) : Nat → Int → Bool
  | 0, _ => false
  | n + 1, column => p column || anyColumn p n (column + 1)

/-- Whether some character of an entry looks different on the other side. -/
def isChanged (other : List Entry) (e : Entry) : Bool :=
  anyColumn (fun column =>
    match entryAt? other column with
    | none => true
    | some o => !looksEqual e o) (e.endChar - e.startChar).toNat e.startChar

/-- Why a gap between entries cannot be filled. -/
inductive GapFault where
  /-- The width is beyond every index. -/
  | unaddressable
  /-- The blanks would not fit into memory. -/
  | unaffordable
  deriving DecidableEq, Repr

/-- The greatest word of 64 bits with a sign. -/
def largestIndex : Int := 9223372036854775807

/-- The number stands for the memory of a machine, which so many blanks use up: 64 GiB, and no proof depends on
it. -/
def mostBlanks : Int := 68719476736

/-- The blanks that fill a gap. A negative width is none. -/
def gap (width : Int) : Except GapFault (List Char) :=
  if largestIndex < width then .error .unaddressable
  else if mostBlanks < width then .error .unaffordable
  else .ok (List.replicate width.toNat ' ')

/-- The spans of a line from a column on. Columns that no entry holds are shown as blanks. -/
def lineSpans (other : List Entry) (column : Int) : List Entry → Except GapFault (List Char)
  | [] => .ok []
  | e :: rest => do
    let blanks ← gap (e.startChar - column)
    let following ← lineSpans other e.endChar rest
    return blanks ++ entrySpan (if isChanged other e then "diff-changed" else "") e ++ following

/-- A line of one side; it is marked if an entry of it is changed. -/
def comparedLine (line other : List Entry) : Except GapFault (List Char) := do
  let spans ← lineSpans other 0 line
  return if line.any (isChanged other) then span [("class", "diff-line".toList)] spans else spans

def side (entries others : List Entry) (lines : Nat) : Except GapFault (List Char) :=
  joinLines <$>
    (List.range lines).mapM fun n => comparedLine (entriesOn entries n) (entriesOn others n)

def column (name : String) (entries others : List Entry) (lines : Nat) :
    Except GapFault (List Char) := do
  let text ← side entries others lines
  return "<div>".toList ++ heading name ++ preformatted text ++ "</div>\n".toList

/-- The page of two versions with their names. -/
def comparison (leftName rightName : String) (left right : List Entry) :
    Except GapFault (List Char) := do
  let lines := max (lineCount left) (lineCount right)
  let leftColumn ← column leftName left right lines
  let rightColumn ← column rightName right left lines
  return page s!"{leftName} vs {rightName}"
    ("<div class=\"columns\">\n".toList ++ leftColumn ++ rightColumn ++ "</div>".toList)

end Highlighter.Page

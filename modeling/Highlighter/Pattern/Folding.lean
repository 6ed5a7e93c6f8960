import Highlighter.Pattern.Basic
import Highlighter.Unicode.CaseFolding

/-! Matching without regard to case. A class takes in all that is alike in case to its members, also
where that is several characters; a text is taken apart into the ways in which it may be written. -/

namespace Highlighter.Pattern

open Highlighter.Unicode (CodeSet CodeTable)

/-- Sets of code points that are alike in case; `asciiFold` keeps to ASCII. -/
def alikeSets (asciiFold : Bool) : List (List Nat) :=
  if asciiFold then (List.range 26).map fun i => [97 + i, 65 + i]
  else Unicode.unfolds.map (fun u => u.1 :: u.2) ++ Unicode.longFolds.map (·.2)

/-- The set with all that is alike to its members. -/
def closeCase (asciiFold : Bool) (codes : CodeSet) : CodeSet :=
  let table := CodeTable.ofSet codes
  let alike := (alikeSets asciiFold).filter fun set => set.any table.contains
  codes.union (.ofList alike.flatten)

/-- A single code point and those that fold to it. -/
def variantSet (code : Nat) : CodeSet := .ofList (Unicode.caseVariants code)

/-- The sequences of characters that a member of the set folds to. -/
def foldedSequences (codes : CodeSet) : List Node :=
  let table := CodeTable.ofSet codes
  (Unicode.longFolds.filter fun f => f.2.any table.contains).map fun f =>
    .seqOf (f.1.map fun c => .set (variantSet c))

/-- A class without regard to case. What is taken in is taken in before the class is negated. -/
def foldedClass (asciiFold : Bool) (codes : CodeSet) (negated : Bool) : Node :=
  let closed := closeCase asciiFold codes
  if negated then .set closed.compl
  else .altOf (.set closed :: if asciiFold then [] else foldedSequences closed)

/-! ### Texts -/

/-- Another way of writing the beginning of a text: how many code points it stands for, and what may
stand there. -/
structure CaseItem where
  count : Nat
  codes : List Nat

/-- All ways of choosing one of each. -/
def choices : List (List Nat) → List (List Nat)
  | [] => [[]]
  | options :: rest => options.flatMap fun c => (choices rest).map (c :: ·)

/-- What several characters, the beginning of the text, may be written as: one character that folds to
them, or the same in other cases. -/
def longItems (codes : List Nat) : List CaseItem :=
  let folded := codes.map Unicode.fold
  match Unicode.longUnfoldsOf folded with
  | [] => []
  | unfolds =>
    let others := (choices (folded.map Unicode.caseVariants)).filter (· != codes)
    (unfolds.map (fun c => [c]) ++ others).map fun item => ⟨codes.length, item⟩

/-- What one character may be written as. -/
def singleItems (code : Nat) : List CaseItem :=
  match Unicode.fold? code with
  | some folded =>
    ((folded :: (Unicode.unfoldsOf folded).filter (· != code)).map fun c => ⟨1, [c]⟩)
  | none =>
    match Unicode.longFold? code with
    | some (folded, unfolds) =>
      ((unfolds.filter (· != code)).map fun c => ⟨1, [c]⟩) ++
        (choices (folded.map Unicode.caseVariants)).map fun item => ⟨1, item⟩
    | none => (Unicode.unfoldsOf code).map fun c => ⟨1, [c]⟩

def asciiItems (code : Nat) : List CaseItem :=
  if 65 ≤ code && code ≤ 90 then [⟨1, [code + 32]⟩]
  else if 97 ≤ code && code ≤ 122 then [⟨1, [code - 32]⟩]
  else []

/-- How the beginning of a text may be written otherwise. Three characters that belong together come
before two, and two before one. -/
def caseItems (asciiFold : Bool) : List Nat → List CaseItem
  | [] => []
  | c :: rest =>
    if asciiFold then asciiItems c
    else
      let three := match rest with
        | d :: e :: _ => longItems [c, d, e]
        | _ => []
      let two := match rest with
        | d :: _ => longItems [c, d]
        | _ => []
      if !three.isEmpty then three else if !two.isEmpty then two else singleItems c

/-- The parts of a text without regard to case. With `behind`, every character is written as one. -/
def foldedParts (asciiFold behind : Bool) : Nat → List Nat → List Node
  | 0, _ => []
  | _ + 1, [] => []
  | fuel + 1, c :: rest =>
    let items :=
      if behind then (caseItems asciiFold [c]).filter fun item => item.codes.length == 1
      else caseItems asciiFold (c :: rest)
    let count := (items.head?.map (·.count)).getD 1
    let part :=
      if items.isEmpty then .text [c] false
      else if items.all fun item => item.count == 1 && item.codes.length == 1 then
        .set (.ofList (c :: items.flatMap (·.codes)))
      else
        .altOf (.text ((c :: rest).take count) false ::
          items.map fun item => .text item.codes false)
    part :: foldedParts asciiFold behind fuel ((c :: rest).drop count)

/-- Joins texts that follow one another. -/
def joinTexts : List Node → List Node
  | [] => []
  | n :: rest =>
    match n, joinTexts rest with
    | .text a fold, .text b fold₂ :: others =>
      if fold == fold₂ then .text (a ++ b) fold :: others else .text a fold :: .text b fold₂ :: others
    | n, others => n :: others

/-- A text without regard to case. -/
def foldedText (asciiFold behind : Bool) (codes : List Nat) : Node :=
  .seqOf (joinTexts (foldedParts asciiFold behind codes.length codes))

end Highlighter.Pattern

import Highlighter.Grammar.Basic
import Highlighter.Json.Display
import Highlighter.Text.Blank
import Highlighter.Text.Number

/-! Reading a grammar from its document. Members of the wrong kind count as absent. -/

namespace Highlighter.Grammar

open Highlighter.Json (Value Members)

inductive ReadError where
  /-- Neither the caller nor the document names the scope. -/
  | noScope
  /-- A capture is keyed by digits that have no value. -/
  | groupNumber (key : Str)
  /-- Rules are nested too deeply. -/
  | tooDeep
  deriving DecidableEq, Repr

/-- The names between blanks. -/
def scopeOf : Option Value → Scope
  | some (.string s) => s.words
  | _ => []

def isGroupKey (key : Str) : Bool := key != "" && key.toList.all fun p => p.char?.any Unicode.isDigit

def groupNumber (key : Str) : Except ReadError Nat :=
  match key.text?.bind fun text => Text.integer? text.toList with
  | some n => .ok n.toNat
  | none => .error (.groupNumber key)

def present (v : Option Value) : Bool := (v.map (·.isPresent)).getD false

/-- The captures under a key, given how to read the rule at a place. -/
def capturesOf (read : List Nat → Members → Except ReadError Rule) (place : List Nat) (kind : Nat) :
    Option Value → Except ReadError Captures
  | some (.object members) =>
    members.zipIdx.filterMapM fun ((key, v), i) => do
      match v with
      | .object rule =>
        if isGroupKey key then
          let n ← groupNumber key
          return some (n, ← read (place ++ [kind, i]) rule)
        else return none
      | _ => return none
  | _ => .ok []

def patternsOf (read : List Nat → Members → Except ReadError Rule) (place : List Nat) :
    Option Value → Except ReadError (List Rule)
  | some (.array items) =>
    items.zipIdx.filterMapM fun (v, i) => do
      match v with
      | .object rule => return some (← read (place ++ [0, i]) rule)
      | _ => return none
  | _ => .ok []

/-- How deeply rules may be nested. The number stands for the call stack, which the levels use up: it is what was
seen of one machine, and no proof depends on it. -/
def deepestNesting : Nat := 490

/-- A rule at a place of a document. Captures without further name apply to both ends of a rule that
has two. The number says how deeply rules may be nested in this one. -/
def readRule (grammar : Nat) : Nat → List Nat → Members → Except ReadError Rule
  | 0, _, _ => .error .tooDeep
  | depth + 1, place, members => do
    let get := Json.find? members
    let read := readRule grammar depth
    let captures ← capturesOf read place 1 (get "captures")
    let beginCaptures ← capturesOf read place 2 (get "beginCaptures")
    let endCaptures ← capturesOf read place 3 (get "endCaptures")
    let whileCaptures ← capturesOf read place 4 (get "whileCaptures")
    let shared := present (get "begin") && !captures.isEmpty
    let atEnd := shared && present (get "end")
    let atWhile := shared && !atEnd && present (get "while")
    let patterns ← patternsOf read place (get "patterns")
    return {
      id := ⟨grammar, place⟩
      name := scopeOf (get "name")
      matchPattern := (get "match").bind (·.string?)
      beginPattern := (get "begin").bind (·.string?)
      endPattern := (get "end").bind (·.string?)
      whilePattern := (get "while").bind (·.string?)
      contentName := scopeOf (get "contentName")
      captures := if atEnd || atWhile then [] else captures
      beginCaptures := if atEnd || atWhile then captures else beginCaptures
      endCaptures := if atEnd then captures else endCaptures
      whileCaptures := if atWhile then captures else whileCaptures
      «include» := (get "include").bind (·.string?)
      patterns }

/-- The rules of a repository under their keys, given how to read the rule at a place. -/
def repositoryOf (read : List Nat → Members → Except ReadError Rule) :
    Option Value → Except ReadError (List (Str × Rule))
  | some (.object entries) =>
    entries.zipIdx.filterMapM fun ((key, v), i) => do
      match v with
      | .object rule => return some (key, ← read [1, i] rule)
      | _ => return none
  | _ => .ok []

/-- A scope from outside goes before the document's own. -/
def nameOf (scope : Option String) (own : Option Str) : Str :=
  match scope with
  | some s => if s == "" then own.getD "" else s
  | none => own.getD ""

/-- A grammar from its document. -/
def ofDocument (number : Nat) (scope : Option String) (members : Members) :
    Except ReadError Grammar := do
  let name := nameOf scope ((Json.find? members "scopeName").bind (·.string?))
  if name == "" then throw .noScope
  let read := readRule number deepestNesting
  let patterns ← patternsOf read [0] (Json.find? members "patterns")
  let repository ← repositoryOf read (Json.find? members "repository")
  return ⟨number, name, patterns, repository⟩

end Highlighter.Grammar

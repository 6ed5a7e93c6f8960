import Highlighter.Json.Printer
import Highlighter.Text.Quoted

/-! JSON values as messages show them: quoted texts, capitalised words, brackets. -/

namespace Highlighter.Json

mutual

def display : Value → List Char
  | .null => "None".toList
  | .bool true => "True".toList
  | .bool false => "False".toList
  | .int n => intText n
  | .float x => x.render "nan".toList "inf".toList
  | .string s => Text.quoted s
  | .array items => '[' :: displayItems items ++ [']']
  | .object members => '{' :: displayMembers members ++ ['}']

def displayItems : List Value → List Char
  | [] => []
  | v :: rest => display v ++ (if rest.isEmpty then [] else ',' :: ' ' :: displayItems rest)

def displayMembers : List (Str × Value) → List Char
  | [] => []
  | m :: rest =>
    Text.quoted m.1 ++ ':' :: ' ' :: display m.2 ++
      (if rest.isEmpty then [] else ',' :: ' ' :: displayMembers rest)

end

namespace Value

def displayText (v : Value) : String := String.ofList (display v)

/-- A value inside a sentence: a text stands without marks. -/
def sentenceText : Value → Str
  | .string s => s
  | v => v.displayText

/-- The word for the kind of a value. -/
def kindWord : Value → String
  | .null => "NoneType"
  | .bool _ => "bool"
  | .int _ => "int"
  | .float _ => "float"
  | .string _ => "str"
  | .array _ => "list"
  | .object _ => "dict"

/-- Whether a value counts as present: null, false, zero and what is empty do not. -/
def isPresent : Value → Bool
  | .null => false
  | .bool b => b
  | .int n => n != 0
  | .float (.finite _ m _) => m != 0
  | .float _ => true
  | .string s => s != ""
  | .array items => !items.isEmpty
  | .object members => !members.isEmpty

end Value

end Highlighter.Json

import Highlighter.Pattern.Reading
import Highlighter.Unicode.Block
import Highlighter.Unicode.Property
import Highlighter.Unicode.Script

/-! Named classes of characters: the traditional classes, which options may restrict to ASCII, and the
properties, scripts and blocks of Unicode. -/

namespace Highlighter.Pattern

open Highlighter.Unicode (CodeSet)

/-- The traditional classes. -/
def traditionalNames : List String :=
  ["newline", "alpha", "blank", "cntrl", "digit", "graph", "lower", "print", "posixpunct",
    "xposixpunct", "space", "upper", "xdigit", "word", "alnum"]

def traditionalClasses : List (String × CodeSet) :=
  traditionalNames.map fun name => (name, Unicode.propertyCodes name)

def asciiCodes : CodeSet := .range 0 127

/-- Whether a traditional class is restricted to ASCII. -/
def Options.restricts (opts : Options) (name : String) : Bool :=
  opts.asciiAll || (opts.asciiWord && name == "word") || (opts.asciiDigit && name == "digit") ||
    (opts.asciiSpace && name == "space")

/-- The code points of a class under its plain name. -/
def classCodes? (opts : Options) (name : String) : Option CodeSet :=
  match traditionalClasses.lookup name with
  | some codes => some (if opts.restricts name then codes.inter asciiCodes else codes)
  | none => Unicode.property? name <|> Unicode.script? name <|> Unicode.block? name

def traditionalCodes (opts : Options) (name : String) : CodeSet :=
  (classCodes? opts name).getD .empty

/-- Whether words keep to ASCII. -/
def Options.asciiWords (opts : Options) : Bool := opts.restricts "word"

/-- A property name without regard to case, blanks, dashes and underscores; `none` where it has
characters beyond ASCII. -/
def plainName? (name : List Char) : Option String :=
  if name.all fun c => c.toNat < 128 then
    some (String.ofList
      ((name.filter fun c => !(c == ' ' || c == '-' || c == '_')).map Char.toLower))
  else none

/-- The classes that may stand between `[:` and `:]`, with their plain names. -/
def bracketNames : List (String × String) :=
  [("alnum", "alnum"), ("alpha", "alpha"), ("blank", "blank"), ("cntrl", "cntrl"),
    ("digit", "digit"), ("graph", "graph"), ("lower", "lower"), ("print", "print"),
    ("punct", "posixpunct"), ("space", "space"), ("upper", "upper"), ("xdigit", "xdigit"),
    ("ascii", "ascii"), ("word", "word")]

def negate (negated : Bool) (codes : CodeSet) : CodeSet := if negated then codes.compl else codes

namespace Parser

/-- The code points of a property after its letter. In braces the name ends at the closing one; a
parenthesis, a brace or a bar leaves it unfinished. -/
def property (opts : Options) (negated braced : Bool) : Parser CodeSet := do
  let s ← rest
  let find (name : List Char) : Parser CodeSet :=
    match (plainName? name).bind (classCodes? opts) with
    | some codes => return negate negated codes
    | none => fail (.property name)
  if braced then
    let isEnd (c : Char) : Bool := c == '}' || c == '(' || c == ')' || c == '{' || c == '|'
    let name := s.takeWhile (!isEnd ·)
    match s.drop name.length with
    | '}' :: left => setRest left; find name
    | _ => fail .unmatchedOpen
  else
    setRest (s.drop 1)
    find (s.take 1)

end Parser

end Highlighter.Pattern

import Highlighter.Text.Quoted

/-! What can be wrong with a property list. -/

namespace Highlighter.PropertyList

/-- A part of a date that is out of range. -/
inductive DatePart where
  | year
  | month
  | day
  | hour
  | minute
  | second
  deriving DecidableEq, Repr

/-- What is said of it. -/
def DatePart.message : DatePart → String
  | .year => "year 0 is out of range"
  | .month => "month must be in 1..12"
  | .day => "day is out of range for month"
  | .hour => "hour must be in 0..23"
  | .minute => "minute must be in 0..59"
  | .second => "second must be in 0..59"

/-- An error that comes with a message. -/
inductive ListError where
  /-- The bytes are no property list of any form. -/
  | notRecognised
  | entity
  | charset (message : String)
  | unexpectedElement (line : Nat)
  | unexpectedKey (line : Nat)
  | missingValue (key : String) (line : Nat)
  | integer (base : Nat) (text : String)
  | longInteger (digits : Nat)
  | real (text : String)
  | padding
  /-- The number of characters that stand for bytes leaves one over. -/
  | dataLength (count : Nat)
  | date (part : DatePart)
  deriving DecidableEq, Repr

/-- The start of a quoted text, as far as a message shows it. -/
def shownStart (text : String) : String := String.ofList ((Text.quoted text).take 200)

def ListError.message : ListError → String
  | .notRecognised => "Invalid file"
  | .entity => "XML entity declarations are not supported in plist files"
  | .charset message => message
  | .unexpectedElement line => s!"unexpected element at line {line}"
  | .unexpectedKey line => s!"unexpected key at line {line}"
  | .missingValue key line => s!"missing value for key '{key}' at line {line}"
  | .integer base text => s!"invalid literal for int() with base {base}: {shownStart text}"
  | .longInteger digits =>
    s!"Exceeds the limit (4300 digits) for integer string conversion: value has {digits} digits; " ++
      "use sys.set_int_max_str_digits() to increase the limit"
  | .real text => s!"could not convert string to float: {Text.quotedString text}"
  | .padding => "Incorrect padding"
  | .dataLength count =>
    s!"Invalid base64-encoded string: number of data characters ({count}) " ++
      "cannot be 1 more than a multiple of 4"
  | .date part => part.message

/-- Why there is no property list. -/
inductive Failure where
  | error (e : ListError)
  | notWellFormed
  | unknownCharset
  /-- A key, or a value with one, stands outside of all containers. -/
  | noContainer
  | notADate
  /-- A date names no day. -/
  | incompleteDate
  deriving DecidableEq, Repr

end Highlighter.PropertyList

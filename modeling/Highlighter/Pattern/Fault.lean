import Highlighter.Text.Encoding

/-! Why a pattern is refused, or why a search with it stops without an answer, and what is said about
it. Names that are quoted are cut when they are long; a cut may fall inside a character, and then
nothing readable can be said. -/

namespace Highlighter.Pattern

inductive PatternError where
  | unmatchedOpen
  | unmatchedClose
  | endInGroup
  | undefinedOption
  | invalidOption
  | nestedTooDeep
  | tooManyGroups
  | emptyGroupName
  | groupName (name : List Char)
  | groupNameChar (name : List Char)
  | unfinishedClass
  | emptyClass
  | emptyRange
  | classAtRangeEnd
  | loneRange
  | bracketClass
  | property (name : List Char)
  | endAtEscape
  | endAtMeta
  | endAtControl
  | controlSyntax
  | metaSyntax
  | missingTarget
  | invalidTarget
  | repeatTooLarge
  | numberTooLarge
  | wideCharTooLong
  | wideCharTooLarge
  | codePoint
  | shortMultibyte
  | backref
  | numberedBackref
  | undefinedName (name : List Char)
  | undefinedGroup (name : List Char)
  | ambiguousCall (name : List Char)
  | repeatedName (name : List Char)
  | conditionSyntax
  | calloutPattern
  | calloutName
  | calloutTag
  | calloutArgument
  | calloutBody
  | unknownCallout
  | lookBehind
  | endlessRecursion
  | invalidArgument
  | tooManyRetries
  /-- A callout of the pattern reports an error of its own by number. -/
  | reported (code : Int)
  deriving DecidableEq, Repr

/-- The most bytes of a quoted name that are shown. -/
def shownBytes : Nat := 27

/-- The characters that fill so many bytes exactly, or `none` where a character goes past the end. -/
def takeBytes : Nat → List Char → Option (List Char)
  | 0, _ => some []
  | _ + 1, [] => some []
  | left + 1, c :: rest =>
    if c.utf8Size ≤ left + 1 then (takeBytes (left + 1 - c.utf8Size) rest).map (c :: ·) else none
termination_by structural _ s => s

/-- A name as it is quoted: in full, or its beginning with dots. -/
def quotedName (name : List Char) : Option String :=
  if Text.byteLength name ≤ shownBytes then some (String.ofList name)
  else (takeBytes shownBytes name).map fun shown => String.ofList shown ++ "..."

/-- The texts of the errors that a callout may report, by number. -/
def reportTexts : List (Int × String) :=
  [(-2, "no support in this configuration"), (-3, "abort"), (-5, "failed to allocate memory"),
    (-6, "undefined type (bug)"), (-11, "internal parser error (bug)"), (-12, "stack error (bug)"),
    (-13, "undefined bytecode (bug)"), (-14, "unexpected bytecode (bug)"),
    (-15, "match-stack limit over"), (-16, "parse depth limit over"),
    (-17, "retry-limit-in-match over"), (-18, "retry-limit-in-search over"),
    (-19, "subexp-call-limit-in-search over"), (-20, "time limit over"),
    (-21, "default multibyte-encoding is not set"),
    (-22, "can't convert to wide-char on specified multibyte-encoding"),
    (-23, "fail to initialize"), (-30, "invalid argument"), (-100, "end pattern at left brace"),
    (-101, "end pattern at left bracket"), (-102, "empty char-class"),
    (-103, "premature end of char-class"), (-104, "end pattern at escape"),
    (-105, "end pattern at meta"), (-106, "end pattern at control"),
    (-108, "invalid meta-code syntax"), (-109, "invalid control-code syntax"),
    (-110, "char-class value at end of range"), (-111, "char-class value at start of range"),
    (-112, "unmatched range specifier in char-class"),
    (-113, "target of repeat operator is not specified"),
    (-114, "target of repeat operator is invalid"), (-115, "nested repeat operator"),
    (-116, "unmatched close parenthesis"), (-117, "end pattern with unmatched parenthesis"),
    (-118, "end pattern in group"), (-119, "undefined group option"), (-120, "invalid group option"),
    (-121, "invalid POSIX bracket type"), (-122, "invalid pattern in look-behind"),
    (-123, "invalid repeat range \x7blower,upper\x7d"), (-200, "too big number"),
    (-201, "too big number for repeat range"),
    (-202, "upper is smaller than lower in repeat range"), (-203, "empty range in char class"),
    (-204, "mismatch multibyte code length in char-class range"),
    (-205, "too many multibyte code ranges are specified"), (-206, "too short multibyte code string"),
    (-207, "too big backref number"), (-208, "invalid backref number/name"),
    (-209, "numbered backref/call is not allowed. (use name)"), (-210, "too many captures"),
    (-212, "too long wide-char value"), (-213, "undefined operator"), (-214, "group name is empty"),
    (-221, "never ending recursion"),
    (-222, "group number is too big for capture history"), (-224, "invalid if-else syntax"),
    (-225, "invalid absent group pattern"), (-226, "invalid absent group generator pattern"),
    (-227, "invalid callout pattern"), (-228, "invalid callout name"),
    (-229, "undefined callout name"), (-230, "invalid callout body"),
    (-231, "invalid callout tag name"), (-232, "invalid callout arg"),
    (-400, "invalid code point value"), (-401, "too big wide-char value"),
    (-402, "not supported encoding combination"), (-403, "invalid combination of options"),
    (-404, "too many user defined objects"), (-405, "too long property name"),
    (-406, "very inefficient pattern"), (-500, "library is not initialized"),
    (-1001, "over thread pass limit count")]

/-- What is said about a fault, where it can be said. -/
def PatternError.message? : PatternError → Option String
  | .unmatchedOpen => "end pattern with unmatched parenthesis"
  | .unmatchedClose => "unmatched close parenthesis"
  | .endInGroup => "end pattern in group"
  | .undefinedOption => "undefined group option"
  | .invalidOption => "invalid group option"
  | .nestedTooDeep => "parse depth limit over"
  | .tooManyGroups => "too many captures"
  | .emptyGroupName => "group name is empty"
  | .groupName name => quoting "invalid group name <" name ">"
  | .groupNameChar name => quoting "invalid char in group name <" name ">"
  | .unfinishedClass => "premature end of char-class"
  | .emptyClass => "empty char-class"
  | .emptyRange => "empty range in char class"
  | .classAtRangeEnd => "char-class value at end of range"
  | .loneRange => "unmatched range specifier in char-class"
  | .bracketClass => "invalid POSIX bracket type"
  | .property name => quoting "invalid character property name \x7b" name "\x7d"
  | .endAtEscape => "end pattern at escape"
  | .endAtMeta => "end pattern at meta"
  | .endAtControl => "end pattern at control"
  | .controlSyntax => "invalid control-code syntax"
  | .metaSyntax => "invalid meta-code syntax"
  | .missingTarget => "target of repeat operator is not specified"
  | .invalidTarget => "target of repeat operator is invalid"
  | .repeatTooLarge => "too big number for repeat range"
  | .numberTooLarge => "too big number"
  | .wideCharTooLong => "too long wide-char value"
  | .wideCharTooLarge => "too big wide-char value"
  | .codePoint => "invalid code point value"
  | .shortMultibyte => "too short multibyte code string"
  | .backref => "invalid backref number/name"
  | .numberedBackref => "numbered backref/call is not allowed. (use name)"
  | .undefinedName name => quoting "undefined name <" name "> reference"
  | .undefinedGroup name => quoting "undefined group <" name "> reference"
  | .ambiguousCall name => quoting "multiplex definition name <" name "> call"
  | .repeatedName name => quoting "multiplex defined name <" name ">"
  | .conditionSyntax => "invalid if-else syntax"
  | .calloutPattern => "invalid callout pattern"
  | .calloutName => "invalid callout name"
  | .calloutTag => "invalid callout tag name"
  | .calloutArgument => "invalid callout arg"
  | .calloutBody => "invalid callout body"
  | .unknownCallout => "undefined callout name"
  | .lookBehind => "invalid pattern in look-behind"
  | .endlessRecursion => "never ending recursion"
  | .invalidArgument => "invalid argument"
  | .tooManyRetries => "retry-limit-in-match over"
  | .reported code => (reportTexts.lookup code).getD "undefined error code"
where
  quoting (opening : String) (name : List Char) (closing : String) : Option String :=
    (quotedName name).map fun shown => opening ++ shown ++ closing

end Highlighter.Pattern

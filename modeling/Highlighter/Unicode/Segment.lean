import Highlighter.Unicode.Property
import Highlighter.Unicode.Script

/-! Where text may be divided into what a reader takes for characters, and into words. Both rules look
at the classes of the code points on the two sides of a place and of those around it. -/

namespace Highlighter.Unicode

/-! ### Clusters -/

/-- How a code point takes part in a cluster. -/
inductive ClusterClass where
  | carriageReturn
  | lineFeed
  | control
  | extend
  | joiner
  | regional
  | preceding
  | spacing
  | leading
  | vowel
  | trailing
  | syllable
  | closedSyllable
  | other
  deriving DecidableEq, Repr

/-- What a cluster is extended by. -/
def extendCodes : CodeSet :=
  (propertyCodes "graphemeextend").union (propertyCodes "emojimodifier")

/-- Signs that stand before what they belong to. -/
def precedingCodes : CodeSet :=
  (propertyCodes "prependedconcatenationmark").union
    (.ofText "d4e 111c2-111c3 113d1 1193f 11941 11a3a 11a84-11a89 11d46 11f02")

/-- Spacing marks that go with what is before them. -/
def spacingCodes : CodeSet :=
  let marks := (propertyCodes "mc").diff
    (extendCodes.union (.ofText
      "102b-102c 1038 1062-1064 1067-106d 1083 1087-108c 108f 109a-109c 1a61 1a63-1a64 aa7b aa7d
      11720-11721"))
  marks.union (.ofText "e33 eb3")

/-- Controls, and what is reserved for signs that do not show. -/
def controlCodes : CodeSet :=
  let invisible := CodeSet.ofCategories
    [.control, .format, .lineSeparator, .paragraphSeparator, .surrogate]
  let reserved := CodeSet.ofText "2065 fff0-fff8 e0000 e0002-e001f e0080-e00ff e01f0-e0fff"
  (invisible.union reserved).diff
    ((extendCodes.union precedingCodes).union (.ofText "a d 200c-200d"))

def vowelCodes : CodeSet := .ofText "1160-11a7 d7b0-d7c6 16d63 16d67-16d6a"

def clusterClasses : List (ClusterClass × CodeTable) :=
  [(.extend, .ofSet extendCodes), (.preceding, .ofSet precedingCodes),
    (.control, .ofSet controlCodes), (.spacing, .ofSet spacingCodes),
    (.vowel, .ofSet vowelCodes), (.leading, .ofSet (.ofText "1100-115f a960-a97c")),
    (.trailing, .ofSet (.ofText "11a8-11ff d7cb-d7fb")),
    (.regional, .ofSet (propertyCodes "regionalindicator"))]

def clusterClass (code : Nat) : ClusterClass :=
  if code == 13 then .carriageReturn
  else if code == 10 then .lineFeed
  else if code == 0x200D then .joiner
  else if 0xAC00 ≤ code && code ≤ 0xD7A3 then
    if (code - 0xAC00) % 28 == 0 then .syllable else .closedSyllable
  else ((clusterClasses.find? fun entry => entry.2.contains code).map (·.1)).getD .other

def pictographs : CodeTable := .ofSet (propertyCodes "extendedpictographic")

def isPictograph (code : Nat) : Bool := pictographs.contains code

/-- Whether what comes before a joiner, the last first, is a pictograph with extensions. -/
def joinsPictograph (before : List Nat) : Bool :=
  match before.dropWhile fun c => clusterClass c == .extend with
  | c :: _ => isPictograph c
  | [] => false

/-- How many regional indicators end a text, which comes last first. -/
def trailingRegionals (before : List Nat) : Nat :=
  (before.takeWhile fun c => clusterClass c == .regional).length

/-- Whether a new cluster may begin between two code points; `before` is what stands before the first
of them, the last first. -/
def clusterBreak (before : List Nat) (first second : Nat) : Bool :=
  let a := clusterClass first
  let b := clusterClass second
  let isControl (k : ClusterClass) : Bool :=
    k == .control || k == .carriageReturn || k == .lineFeed
  if a == .carriageReturn && b == .lineFeed then false
  else if isControl a || isControl b then true
  else if a == .leading &&
      (b == .leading || b == .vowel || b == .syllable || b == .closedSyllable) then false
  else if (a == .syllable || a == .vowel) && (b == .vowel || b == .trailing) then false
  else if (a == .closedSyllable || a == .trailing) && b == .trailing then false
  else if b == .extend || b == .joiner || b == .spacing || a == .preceding then false
  else if a == .joiner && isPictograph second && joinsPictograph before then false
  else if a == .regional && b == .regional then trailingRegionals before % 2 == 1
  else true

/-! ### Words -/

/-- How a code point takes part in a word. -/
inductive WordClass where
  | carriageReturn
  | lineFeed
  | newline
  | extend
  | joiner
  | format
  | regional
  | katakana
  | hebrew
  | letter
  | singleQuote
  | doubleQuote
  | midNumberLetter
  | midLetter
  | midNumber
  | numeric
  | connector
  | blank
  | other
  deriving DecidableEq, Repr

def katakanaCodes : CodeSet := .ofText
  "3031-3035 309b-309c 30a0-30fa 30fc-30ff 31f0-31ff 32d0-32fe 3300-3357 ff66-ff9d 1aff0-1aff3
  1aff5-1affb 1affd-1affe 1b000 1b120-1b122 1b155 1b164-1b167"

def hebrewCodes : CodeSet := .ofText
  "5d0-5ea 5ef-5f2 fb1d fb1f-fb28 fb2a-fb36 fb38-fb3c fb3e fb40-fb41 fb43-fb44 fb46-fb4f"

def wordExtendCodes : CodeSet := extendCodes.union (propertyCodes "mc")

/-- Scripts that are written without marks between words, or not by letters. -/
def undividedCodes : CodeSet :=
  .unions ((["hiragana", "thai", "lao", "khmer", "myanmar", "taitham", "taile", "newtailue",
    "taiviet", "ahom"].filterMap script?) ++ [.range 0x1B000 0x1B16F])

/-- Letters of words, with signs that are used like letters. -/
def letterCodes : CodeSet :=
  let alphabetic := (propertyCodes "alphabetic").diff
    (.unions [propertyCodes "ideographic", katakanaCodes, wordExtendCodes, hebrewCodes,
      undividedCodes])
  alphabetic.union (.ofText
    "2c2-2c5 2d2-2d7 2de-2df 2e5-2eb 2ed 2ef-2ff 55a-55c 55e 58a 5f3 70f a708-a716 a720-a721
    a789-a78a ab5b")

def numericCodes : CodeSet :=
  (propertyCodes "nd").union (.ofText "600-605 66b 6dd 890-891 8e2 110bd 110cd")

def formatCodes : CodeSet :=
  (propertyCodes "cf").diff
    (.unions [wordExtendCodes, precedingCodes, .ofText "200b-200d"])

def wordClasses : List (WordClass × CodeTable) :=
  [(.newline, .ofSet (.ofText "b-c 85 2028-2029")), (.extend, .ofSet wordExtendCodes),
    (.format, .ofSet formatCodes), (.regional, .ofSet (propertyCodes "regionalindicator")),
    (.katakana, .ofSet katakanaCodes), (.hebrew, .ofSet hebrewCodes),
    (.letter, .ofSet letterCodes), (.singleQuote, .ofSet (.single 0x27)),
    (.doubleQuote, .ofSet (.single 0x22)),
    (.midNumberLetter, .ofSet (.ofText "2e 2018-2019 2024 fe52 ff07 ff0e")),
    (.midLetter, .ofSet (.ofText "3a b7 387 55f 5f4 2027 fe13 fe55 ff1a")),
    (.midNumber, .ofSet (.ofText
      "2c 3b 37e 589 60c-60d 66c 7f8 2044 fe10 fe14 fe50 fe54 ff0c ff1b")),
    (.numeric, .ofSet numericCodes),
    (.connector, .ofSet (.ofText "5f 202f 203f-2040 2054 fe33-fe34 fe4d-fe4f ff3f")),
    (.blank, .ofSet (.ofText "20 1680 2000-2006 2008-200a 205f 3000"))]

def wordClass (code : Nat) : WordClass :=
  if code == 13 then .carriageReturn
  else if code == 10 then .lineFeed
  else if code == 0x200D then .joiner
  else ((wordClasses.find? fun entry => entry.2.contains code).map (·.1)).getD .other

def WordClass.isIgnored (k : WordClass) : Bool := k == .extend || k == .format || k == .joiner

def WordClass.isLetter (k : WordClass) : Bool := k == .letter || k == .hebrew

def WordClass.isLineEnd (k : WordClass) : Bool :=
  k == .newline || k == .carriageReturn || k == .lineFeed

/-- The class of the nearest code point that counts. -/
def nearestClass (codes : List Nat) : Option WordClass :=
  (codes.find? fun c => !(wordClass c).isIgnored).map wordClass

/-- The code points that count, as far as regional indicators go. -/
def regionalsBefore : List Nat → Nat
  | [] => 0
  | c :: rest =>
    let k := wordClass c
    if k == .regional then regionalsBefore rest + 1
    else if k.isIgnored then regionalsBefore rest
    else 0

/-- Whether a new word may begin between two texts, the first of which comes last first. -/
def wordBreak (before after : List Nat) : Bool :=
  match before, after with
  | first :: _, second :: following =>
    let nearA := wordClass first
    let b := wordClass second
    if nearA == .carriageReturn && b == .lineFeed then false
    else if nearA.isLineEnd || b.isLineEnd then true
    else if nearA == .joiner && isPictograph second then false
    else if nearA == .blank && b == .blank then false
    else if b.isIgnored then false
    else
      let counted := before.dropWhile fun c => (wordClass c).isIgnored
      match counted with
      | [] => true
      | last :: earlier =>
        let a := wordClass last
        let previous := nearestClass earlier
        let next := nearestClass following
        let isMid (k : WordClass) : Bool := k == .midNumberLetter || k == .singleQuote
        let isIn (k : Option WordClass) (p : WordClass → Bool) : Bool := (k.map p).getD false
        if a.isLetter && b.isLetter then false
        else if a.isLetter && (b == .midLetter || isMid b) && isIn next (·.isLetter) then false
        else if (a == .midLetter || isMid a) && b.isLetter && isIn previous (·.isLetter) then
          false
        else if a == .hebrew && b == .singleQuote then false
        else if a == .hebrew && b == .doubleQuote && isIn next (· == .hebrew) then false
        else if a == .doubleQuote && b == .hebrew && isIn previous (· == .hebrew) then false
        else if a == .numeric && b == .numeric then false
        else if a.isLetter && b == .numeric then false
        else if a == .numeric && b.isLetter then false
        else if (a == .midNumber || isMid a) && b == .numeric &&
            isIn previous (· == .numeric) then false
        else if a == .numeric && (b == .midNumber || isMid b) &&
            isIn next (· == .numeric) then false
        else if a == .katakana && b == .katakana then false
        else if (a.isLetter || a == .numeric || a == .katakana || a == .connector) &&
            b == .connector then false
        else if a == .connector && (b.isLetter || b == .numeric || b == .katakana) then false
        else if a == .regional && b == .regional then regionalsBefore earlier % 2 == 1
        else true
  | _, _ => true

end Highlighter.Unicode

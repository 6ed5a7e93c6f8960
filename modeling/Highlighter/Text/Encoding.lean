import Highlighter.Text.Str

/-! Texts in bytes of UTF-8, and their columns in code units of UTF-16. One step of the decoder reads a
well-formed character or the longest ill-formed start of one; the strict and the lenient reading differ only in
what they do with the latter. -/

namespace Highlighter.Text

abbrev Bytes := List UInt8

def encodeChar (c : Char) : Bytes :=
  let n := c.toNat
  if n < 0x80 then [n.toUInt8]
  else if n < 0x800 then [(0xC0 + n / 64).toUInt8, (0x80 + n % 64).toUInt8]
  else if n < 0x10000 then
    [(0xE0 + n / 4096).toUInt8, (0x80 + n / 64 % 64).toUInt8, (0x80 + n % 64).toUInt8]
  else
    [(0xF0 + n / 262144).toUInt8, (0x80 + n / 4096 % 64).toUInt8, (0x80 + n / 64 % 64).toUInt8,
      (0x80 + n % 64).toUInt8]

/-- The number of bytes that characters take. -/
def byteLength (s : List Char) : Nat := s.foldr (fun c n => c.utf8Size + n) 0

def encodeUtf8 (s : List Char) : Bytes := s.flatMap encodeChar

/-- How many bytes follow a lead byte, the bounds of the first of them, and the lead's own bits.
The bounds leave out overlong forms, surrogates and what lies beyond U+10FFFF. -/
def leadByte (b : Nat) : Option (Nat × Nat × Nat × Nat) :=
  if 0xC2 ≤ b && b ≤ 0xDF then some (1, 0x80, 0xBF, b - 0xC0)
  else if b == 0xE0 then some (2, 0xA0, 0xBF, 0)
  else if b == 0xED then some (2, 0x80, 0x9F, 0xD)
  else if 0xE1 ≤ b && b ≤ 0xEF then some (2, 0x80, 0xBF, b - 0xE0)
  else if b == 0xF0 then some (3, 0x90, 0xBF, 0)
  else if b == 0xF4 then some (3, 0x80, 0x8F, 4)
  else if 0xF1 ≤ b && b ≤ 0xF3 then some (3, 0x80, 0xBF, b - 0xF0)
  else none

/-- Reads the bytes that must follow: the code point, or `none` where they break off, and the bytes
not read. -/
def continuation : Nat → Nat → Nat → Nat → Bytes → Option Nat × Bytes
  | 0, _, _, code, rest => (some code, rest)
  | _ + 1, _, _, _, [] => (none, [])
  | owed + 1, low, high, code, b :: rest =>
    if low ≤ b.toNat && b.toNat ≤ high then
      continuation owed 0x80 0xBF (code * 64 + (b.toNat - 0x80)) rest
    else (none, b :: rest)

/-- The character at the front, or `none` for an ill-formed sequence, and the bytes after it. -/
def decodeStep (b : UInt8) (rest : Bytes) : Option Char × Bytes :=
  if b.toNat < 0x80 then (some (Char.ofNat b.toNat), rest)
  else match leadByte b.toNat with
    | none => (none, rest)
    | some (owed, low, high, code) =>
      let (found, after) := continuation owed low high code rest
      (found.map Char.ofNat, after)

/-- The characters of a byte string, `none` for each ill-formed sequence. -/
def decodeItems : Nat → Bytes → List (Option Char)
  | 0, _ => []
  | _ + 1, [] => []
  | fuel + 1, b :: rest =>
    let (item, after) := decodeStep b rest
    item :: decodeItems fuel after

/-- The text of well-formed bytes. -/
def decodeUtf8? (bs : Bytes) : Option (List Char) :=
  (decodeItems bs.length bs).foldr (fun item tail => do return (← item) :: (← tail)) (some [])

/-- The text of any bytes, U+FFFD standing for each ill-formed sequence. -/
def decodeUtf8Lossy (bs : Bytes) : List Char :=
  (decodeItems bs.length bs).map (·.getD '\uFFFD')

/-! ### Code units of UTF-16 -/

/-- A code point beyond the first plane takes two units. -/
def pointUnits (p : CodePoint) : Nat := if 0xFFFF < p.code then 2 else 1

def units (s : List CodePoint) : Nat := s.foldr (fun p n => pointUnits p + n) 0

/-- Walks the text until the units read reach the offset; past the end each further unit counts as
one code point. -/
def indexOfUnitFrom (units index : Nat) (offset : Int) : List CodePoint → Int
  | [] => index + max 0 (offset - units)
  | p :: rest =>
    if offset ≤ units then index
    else indexOfUnitFrom (units + pointUnits p) (index + 1) offset rest

/-- The least index whose prefix has at least `offset` units. -/
def indexOfUnit (s : List CodePoint) (offset : Int) : Int := indexOfUnitFrom 0 0 offset s

def isAscii (s : List CodePoint) : Bool := s.all (·.code < 128)

end Highlighter.Text

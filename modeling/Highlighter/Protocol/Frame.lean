import Highlighter.Json.Printer
import Highlighter.Json.Reader
import Highlighter.Text.Number
import Highlighter.Text.Quoted

/-! Framed messages: a block of header lines that ends with an empty line, and a body whose length in
bytes the header gives. A stream may hand out its bytes in pieces of any size. -/

namespace Highlighter.Protocol

open Highlighter.Json (Value Members)
open Highlighter.Text (Bytes)

/-- Bytes to be read, and how many of them each read gives at most; a read never gives none while
some are left. -/
structure Stream where
  unread : Bytes
  reads : Nat := 0
  cut : Nat → Nat := fun _ => 1

/-- The greatest number of bytes that a read can ask for: sizes are words of 64 bits with a sign. -/
def greatestRead : Nat := 0x7FFFFFFFFFFFFFFF

namespace Stream

/-- Up to a number of bytes. A number that is no size is refused, and then nothing is read. -/
def read (s : Stream) (most : Nat) : Option Bytes × Stream :=
  if greatestRead < most then (none, s)
  else
    let size := min most (max 1 (s.cut s.reads))
    (some (s.unread.take size), { s with unread := s.unread.drop size, reads := s.reads + 1 })

end Stream

def lineBreak : Bytes := [13, 10]

/-- The end of a header block, backwards. -/
def headerEnd : Bytes := [10, 13, 10, 13]

/-- Reads byte by byte to the end of the header block, which is left out; nothing if the stream ends
before. What was read is reversed. The fuel is the number of unread bytes. -/
def readHeader : Nat → Bytes → Stream → Option Bytes × Stream
  | 0, _, s => (none, s)
  | fuel + 1, before, s =>
    let (piece, s) := s.read 1
    match piece with
    | none | some [] => (none, s)
    | some piece =>
      let header := piece.reverse ++ before
      if headerEnd.isPrefixOf header then (some (header.drop 4).reverse, s)
      else readHeader fuel header s

/-- Why a number of bytes was not read. -/
inductive Shortfall where
  /-- The stream ended before. -/
  | ended
  /-- It is no size that a read can ask for. -/
  | oversized
  deriving DecidableEq, Repr

/-- Reads exactly a number of bytes. The fuel is more than the number of unread bytes. -/
def readExact : Nat → Nat → Bytes → Stream → Except Shortfall Bytes × Stream
  | 0, _, _, s => (.error .ended, s)
  | fuel + 1, length, before, s =>
    if before.length < length then
      let (piece, s) := s.read (length - before.length)
      match piece with
      | none => (.error .oversized, s)
      | some [] => (.error .ended, s)
      | some piece => readExact fuel length (before ++ piece) s
    else (.ok before, s)

def lowerByte (b : UInt8) : UInt8 := if 65 ≤ b && b ≤ 90 then b + 32 else b

def lengthField : Bytes := Text.encodeUtf8 "content-length:".toList

/-- The lines of a header block. -/
def headerLines : Bytes → List Bytes
  | [] => [[]]
  | 13 :: 10 :: rest => [] :: headerLines rest
  | b :: rest =>
    match headerLines rest with
    | [] => [[b]]
    | line :: lines => (b :: line) :: lines

/-- The number that the first length line gives, if it is one and not negative. -/
def announcedLength (header : Bytes) : Option Nat := do
  let line ← (headerLines header).find? fun l => lengthField.isPrefixOf (l.map lowerByte)
  let number := line.drop lengthField.length
  guard (number.all (· < 128))
  let n ← Text.integer? (number.map fun b => Char.ofNat b.toNat)
  guard (0 ≤ n)
  return n.toNat

/-- Why a frame cannot be used. -/
inductive FrameError where
  | header (block : Bytes)
  | undecodable
  | malformed (cause : Json.ReadError)
  | notObject
  deriving DecidableEq, Repr

/-- The text of an error. What the decoder of a text says is left to the reader of the message. -/
def FrameError.message (decoding : String) : FrameError → String
  | .header block => s!"Invalid LSP header: {String.ofList (Text.quotedBytes block)}"
  | .undecodable => s!"Failed to parse LSP message: {decoding}"
  | .malformed cause => s!"Failed to parse LSP message: {cause.message}"
  | .notObject => "Invalid LSP message payload"

/-- What a read of a frame gives. -/
inductive Arrival where
  | message (members : Members)
  /-- The stream ended before the frame did. -/
  | ended
  | unusable (e : FrameError)
  /-- A number that cannot be read stops the reader for good. -/
  | hugeInteger (digits : Nat)
  /-- So does a length that no read can ask for; nothing of the body is read. -/
  | oversized

/-- What a read comes to without its body. -/
def Shortfall.arrival : Shortfall → Arrival
  | .ended => .ended
  | .oversized => .oversized

/-- What a body holds. -/
def ofBody (body : Bytes) : Arrival :=
  match Text.decodeUtf8? body with
  | none => .unusable .undecodable
  | some text =>
    match Json.read text with
    | .error (.hugeInteger digits) => .hugeInteger digits
    | .error e => .unusable (.malformed e)
    | .ok (.object members) => .message members
    | .ok _ => .unusable .notObject

/-- Reads one frame. -/
def readFrame (s : Stream) : Arrival × Stream :=
  match readHeader s.unread.length [] s with
  | (none, s) => (.ended, s)
  | (some header, s) =>
    match announcedLength header with
    | none => (.unusable (.header header), s)
    | some length =>
      match readExact (s.unread.length + 1) length [] s with
      | (.error e, s) => (e.arrival, s)
      | (.ok body, s) => (ofBody body, s)

/-- The framed form of a message: its JSON text is ASCII, so its length is the same in bytes. -/
def frame (message : Value) : Bytes :=
  let body := Json.compact message
  Text.encodeUtf8 ("Content-Length: ".toList ++ Nat.toDigits 10 body.length ++
    ['\r', '\n', '\r', '\n'] ++ body)

end Highlighter.Protocol

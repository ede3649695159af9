/-
Texts as bytes.

* `Begun`, `begin?`: a character of which some bytes have been read;
* `DecodeFault`, `decode`: reading a text from its bytes, of which a character has one to four;
* `Undecodable`: bytes that are those of no text;
* `EncodeFault`, `encodeFault?`: texts that have no bytes, as they hold surrogates.
-/
import RequestSuite.Text.Hex
import RequestSuite.Text.Points

namespace RequestSuite.Text

/-- A character of which some bytes have been read. -/
structure Begun where
  /-- The first of its bytes. -/
  first : Nat
  /-- The number of bytes that have been read. -/
  read : Nat := 1
  /-- The number of bytes that are to follow. -/
  owed : Nat
  /-- The least and the greatest value of the next byte. -/
  low : Nat := 0x80
  high : Nat := 0xbf
  /-- The code point, as far as it is known. -/
  point : Nat
  deriving Repr

/-- What the first byte of a character announces, unless it is no such byte. Of the second byte not
all values are allowed where the code point would be one of fewer bytes, a surrogate or too
large. -/
def begin? (b : Nat) : Option Begun :=
  if b < 0x80 then some { first := b, owed := 0, point := b }
  else if b < 0xc2 then none
  else if b < 0xe0 then some { first := b, owed := 1, point := b - 0xc0 }
  else if b < 0xf0 then
    some
      { first := b, owed := 2, point := b - 0xe0
        low := if b = 0xe0 then 0xa0 else 0x80
        high := if b = 0xed then 0x9f else 0xbf }
  else if b < 0xf5 then
    some
      { first := b, owed := 3, point := b - 0xf0
        low := if b = 0xf0 then 0x90 else 0x80
        high := if b = 0xf4 then 0x8f else 0xbf }
  else none

/-- A character after one more byte. -/
def Begun.next (ch : Begun) (b : Nat) : Begun where
  first := ch.first
  read := ch.read + 1
  owed := ch.owed - 1
  point := ch.point * 64 + (b - 0x80)

/-- The ways in which bytes fail to be those of a text. -/
inductive DecodeKind
  | start
  | continuation
  | ending
  deriving DecidableEq, Repr

/-- What a fault is called. -/
def DecodeKind.title : DecodeKind → String
  | .start => "invalid start byte"
  | .continuation => "invalid continuation byte"
  | .ending => "unexpected end of data"

/-- Bytes that are no character: the position of the first, their number and the first itself. -/
structure DecodeFault where
  kind : DecodeKind
  position : Nat
  count : Nat := 1
  first : Nat
  deriving DecidableEq, Repr

/-- Positions, the first of some and the last. -/
def positionsText (position count : Nat) : String :=
  toString position ++ "-" ++ toString (position + count - 1)

/-- The report of a fault. -/
def DecodeFault.message (fault : DecodeFault) : String :=
  let place :=
    if fault.count = 1 then
      "byte 0x" ++ String.ofList (hex 2 fault.first) ++ " in position " ++ toString fault.position
    else "bytes in position " ++ positionsText fault.position fault.count
  "'utf-8' codec can't decode " ++ place ++ ": " ++ fault.kind.title

/-- A character that cannot be read on at a position. -/
def Begun.fault (ch : Begun) (kind : DecodeKind) (position : Nat) : DecodeFault :=
  ⟨kind, position - ch.read, ch.read, ch.first⟩

/-- Reads bytes from a position on, after the characters `acc`, backwards, and perhaps some bytes of
another one. -/
def decodeFrom (position : Nat) (acc : List Char) :
    Option Begun → List UInt8 → Except DecodeFault (List Char)
  | none, [] => .ok acc.reverse
  | some ch, [] => .error (ch.fault .ending position)
  | none, b :: bytes =>
    match begin? b.toNat with
    | none => .error ⟨.start, position, 1, b.toNat⟩
    | some ch =>
      if ch.owed = 0 then
        decodeFrom (position + 1) ((ofPoint ch.point).reverse ++ acc) none bytes
      else decodeFrom (position + 1) acc (some ch) bytes
  | some ch, b :: bytes =>
    if ch.low ≤ b.toNat && b.toNat ≤ ch.high then
      let ch := ch.next b.toNat
      if ch.owed = 0 then
        decodeFrom (position + 1) ((ofPoint ch.point).reverse ++ acc) none bytes
      else decodeFrom (position + 1) acc (some ch) bytes
    else .error (ch.fault .continuation position)

/-- Reads a text from its bytes. -/
def decode (bytes : List UInt8) : Except DecodeFault (List Char) := decodeFrom 0 [] none bytes

/-- Bytes that are those of no text. -/
structure Undecodable where
  bytes : List UInt8
  fault : DecodeFault
  decode_eq : decode bytes = .error fault
  deriving DecidableEq, Repr

/-- Surrogates in a text: the position of the first, their number and the first itself. -/
structure EncodeFault where
  position : Nat
  count : Nat
  first : Nat
  deriving DecidableEq, Repr

/-- The report of a fault. -/
def EncodeFault.message (fault : EncodeFault) : String :=
  let place :=
    if fault.count = 1 then
      "character '\\u" ++ String.ofList (hex 4 fault.first) ++ "' in position " ++
        toString fault.position
    else "characters in position " ++ positionsText fault.position fault.count
  "'utf-8' codec can't encode " ++ place ++ ": surrogates not allowed"

/-- The first surrogates of a text. -/
def encodeFault? (text : List Char) : Option EncodeFault :=
  let before := (points text).takeWhile fun n => !isSurrogate n
  match (points text).drop before.length with
  | [] => none
  | n :: rest => some ⟨before.length, (rest.takeWhile isSurrogate).length + 1, n⟩

/-- A word in Latin letters with an accent has one byte too few for its last character. -/
example : decode [0x43, 0x61, 0x66, 0xe9] = .error ⟨.ending, 3, 1, 0xe9⟩ := rfl

end RequestSuite.Text

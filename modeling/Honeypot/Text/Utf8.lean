/-!
# UTF-8 text as bytes

Streams and files carry bytes, people read text. `Text.encode` gives the bytes of a text and
`Text.decode` reads bytes back, putting one U+FFFD in the place of every maximal invalid part.

* `Pending`: a character of which the leading bytes have been read.
* `decodeFrom`: decoding as a left-to-right scan with one pending character at most.
* `bytewise`: the order of texts by their bytes, used wherever names are listed.
-/

namespace Honeypot

/-- A finite sequence of bytes. -/
abbrev Bytes := List UInt8

namespace Text

/-- The UTF-8 bytes of a text. -/
def encode (text : String) : Bytes :=
  text.toList.flatMap String.utf8EncodeChar

/-- The character that stands for bytes that are no text. -/
def replacement : Char := '\uFFFD'

/-- A character whose leading bytes have been read. -/
structure Pending where
  /-- The bits collected so far. -/
  bits : Nat
  /-- How many further bytes the character needs, less one. -/
  later : Nat
  /-- The least byte that may come next. -/
  low : UInt8
  /-- The greatest byte that may come next. -/
  high : UInt8
deriving DecidableEq, Repr

/-- What a byte means where a character may start: the characters it completes, and the
character it opens. -/
def Pending.opened (byte : UInt8) : List Char × Option Pending :=
  if byte < 0x80 then ([Char.ofNat byte.toNat], none)
  else if byte < 0xC2 then ([replacement], none)
  else if byte < 0xE0 then ([], some ⟨byte.toNat % 32, 0, 0x80, 0xBF⟩)
  -- After E0 and F0 lower bytes would make a form longer than needed, after ED a surrogate, after
  -- F4 a number above the last character.
  else if byte = 0xE0 then ([], some ⟨0, 1, 0xA0, 0xBF⟩)
  else if byte = 0xED then ([], some ⟨13, 1, 0x80, 0x9F⟩)
  else if byte < 0xF0 then ([], some ⟨byte.toNat % 16, 1, 0x80, 0xBF⟩)
  else if byte = 0xF0 then ([], some ⟨0, 2, 0x90, 0xBF⟩)
  else if byte < 0xF4 then ([], some ⟨byte.toNat % 8, 2, 0x80, 0xBF⟩)
  else if byte = 0xF4 then ([], some ⟨4, 2, 0x80, 0x8F⟩)
  else ([replacement], none)

/-- What a byte means after a pending character: it continues the character, or it shows that
the bytes before it were no text and is looked at afresh. -/
def Pending.next (pending : Pending) (byte : UInt8) : List Char × Option Pending :=
  if pending.low ≤ byte ∧ byte ≤ pending.high then
    let bits := pending.bits * 64 + byte.toNat % 64
    match pending.later with
    | 0 => ([Char.ofNat bits], none)
    | later + 1 => ([], some ⟨bits, later, 0x80, 0xBF⟩)
  else
    (replacement :: (opened byte).1, (opened byte).2)

/-- The characters of a byte sequence, when a character may be pending before it. -/
def decodeFrom : Option Pending → Bytes → List Char
  | none, [] => []
  | some _, [] => [replacement]
  | none, byte :: bytes => (Pending.opened byte).1 ++ decodeFrom (Pending.opened byte).2 bytes
  | some pending, byte :: bytes => (pending.next byte).1 ++ decodeFrom (pending.next byte).2 bytes

/-- The text of a byte sequence, with U+FFFD for every maximal part that is no text. -/
def decode (bytes : Bytes) : String :=
  String.ofList (decodeFrom none bytes)

/-- Whether one text comes before another, or is equal to it, byte by byte. -/
def bytewise (first second : String) : Bool :=
  decide (encode first ≤ encode second)

end Text

end Honeypot

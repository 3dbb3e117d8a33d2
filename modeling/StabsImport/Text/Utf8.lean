import StabsImport.Text.Integer
import StabsImport.Text.Surrogate

/-!
# UTF-8

Reading never fails: each longest start of a character that the following bytes do not complete,
and each byte that starts none, becomes one replacement character. Where that will not do, bytes
that are no encoding of characters are refused, for the first character that cannot be read.
-/

namespace StabsImport.Text

abbrev Bytes := List UInt8

/-- What a first byte asks for: how many more bytes, the bounds of the next one, and the bits the
first byte gives. -/
structure Lead where
  more : Nat
  low : Nat
  high : Nat
  bits : Nat

/-- Overlong forms, surrogates and codes past the last plane are excluded by the bounds of the
second byte. -/
def lead? (b : Nat) : Option Lead :=
  if b < 0xC2 then none
  else if b ≤ 0xDF then some ⟨1, 0x80, 0xBF, b - 0xC0⟩
  else if b == 0xE0 then some ⟨2, 0xA0, 0xBF, 0⟩
  else if b == 0xED then some ⟨2, 0x80, 0x9F, 0xD⟩
  else if b ≤ 0xEF then some ⟨2, 0x80, 0xBF, b - 0xE0⟩
  else if b == 0xF0 then some ⟨3, 0x90, 0xBF, 0⟩
  else if b ≤ 0xF3 then some ⟨3, 0x80, 0xBF, b - 0xF0⟩
  else if b == 0xF4 then some ⟨3, 0x80, 0x8F, 4⟩
  else none

/-- A byte where a character may start: what it yields, and the character it begins. -/
def startByte (b : Nat) : List Char × Option Lead :=
  if b < 0x80 then ([Char.ofNat b], none)
  else
    match lead? b with
    | some lead => ([], some lead)
    | none => ([replacement], none)

/-- The next byte of a character begun, or the start of another after a broken one. -/
def nextByte (lead : Lead) (b : Nat) : List Char × Option Lead :=
  if lead.low ≤ b && b ≤ lead.high then
    let bits := 64 * lead.bits + (b - 0x80)
    if lead.more ≤ 1 then ([Char.ofNat bits], none)
    else ([], some ⟨lead.more - 1, 0x80, 0xBF, bits⟩)
  else
    let (out, next) := startByte b
    (replacement :: out, next)

def decodeFrom : Option Lead → Bytes → List Char
  | none, [] => []
  | some _, [] => [replacement]
  | pending, byte :: rest =>
      let (out, next) :=
        match pending with
        | none => startByte byte.toNat
        | some lead => nextByte lead byte.toNat
      out ++ decodeFrom next rest

def decodeUtf8 (bytes : Bytes) : List Char := decodeFrom none bytes

/-! ## What cannot be read -/

inductive DecodeReason where
  | startsNone
  | notContinued
  /-- The bytes end inside a character. -/
  | cutShort
  deriving DecidableEq, Repr

def DecodeReason.text : DecodeReason → String
  | startsNone => "invalid start byte"
  | notContinued => "invalid continuation byte"
  | cutShort => "unexpected end of data"

/-- A character that cannot be read: why, where it stands, its first byte, and how many bytes of it
there are. -/
structure DecodeFault where
  reason : DecodeReason
  position : Nat
  byte : Nat
  length : Nat := 1
  deriving DecidableEq, Repr

def DecodeFault.message (e : DecodeFault) : String :=
  let what :=
    if e.length = 1 then s!"byte 0x{hexDigits e.byte} in position {e.position}"
    else s!"bytes in position {e.position}-{e.position + e.length - 1}"
  "'utf-8' codec can't decode " ++ what ++ ": " ++ e.reason.text

/-- What keeps the bytes from a position on from being read, if anything does. Of a character begun
before them, its first byte is given, and how many bytes of it have been passed. -/
def decodeFaultFrom : (position : Nat) → Option (Lead × Nat × Nat) → Bytes → Option DecodeFault
  | _, none, [] => none
  | position, some (_, byte, length), [] => some ⟨.cutShort, position - length, byte, length⟩
  | position, none, b :: rest =>
      let b := b.toNat
      match lead? b with
      | some lead => decodeFaultFrom (position + 1) (some (lead, b, 1)) rest
      | none =>
          if b < 0x80 then decodeFaultFrom (position + 1) none rest
          else some ⟨.startsNone, position, b, 1⟩
  | position, some (lead, byte, length), b :: rest =>
      let b := b.toNat
      if lead.low ≤ b && b ≤ lead.high then
        let begun := (nextByte lead b).2.map fun lead => (lead, byte, length + 1)
        decodeFaultFrom (position + 1) begun rest
      else some ⟨.notContinued, position - length, byte, length⟩

def decodeFault? (bytes : Bytes) : Option DecodeFault := decodeFaultFrom 0 none bytes

/-! ## Texts -/

/-- The text that bytes are the encoding of. -/
def ofUtf8 (bytes : Bytes) : String := ofChars (decodeUtf8 bytes)

def encodeChars (cs : List Char) : Bytes := (String.ofList cs).toUTF8.toList

def encodeUtf8 (s : String) : Bytes := encodeChars (toChars s)

/-- The characters that bytes are the encoding of, if they are one. -/
def charsOfUtf8? (bytes : Bytes) : Option (List Char) :=
  let cs := decodeUtf8 bytes
  if encodeChars cs = bytes then some cs else none

end StabsImport.Text

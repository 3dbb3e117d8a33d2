import StabsImport.Text.Blank

/-!
# Integers as text

Digits and what they are worth, decimal ones in every script, and the hexadecimal and zero-padded
forms in which whole numbers are written.
-/

namespace StabsImport.Text

/-- Where the digits zero to nine of each script start. -/
def digitZeros : List Nat :=
  [0x30, 0x660, 0x6F0, 0x7C0, 0x966, 0x9E6, 0xA66, 0xAE6, 0xB66, 0xBE6, 0xC66, 0xCE6, 0xD66, 0xDE6,
   0xE50, 0xED0, 0xF20, 0x1040, 0x1090, 0x17E0, 0x1810, 0x1946, 0x19D0, 0x1A80, 0x1A90, 0x1B50,
   0x1BB0, 0x1C40, 0x1C50, 0xA620, 0xA8D0, 0xA900, 0xA9D0, 0xA9F0, 0xAA50, 0xABF0, 0xFF10, 0x104A0,
   0x10D30, 0x11066, 0x110F0, 0x11136, 0x111D0, 0x112F0, 0x11450, 0x114D0, 0x11650, 0x116C0,
   0x11730, 0x118E0, 0x11950, 0x11C50, 0x11D50, 0x11DA0, 0x16A60, 0x16AC0, 0x16B50, 0x1D7CE,
   0x1D7D8, 0x1D7E2, 0x1D7EC, 0x1D7F6, 0x1E140, 0x1E2F0, 0x1E950, 0x1FBF0]

def decimalDigit? (c : Char) : Option Nat :=
  (digitZeros.find? fun first => first ≤ c.toNat && c.toNat < first + 10).map (c.toNat - ·)

/-- What may stand around a number: white space, save the information separators. -/
def isMargin (c : Char) : Bool := isBlank c && !(0x1C ≤ c.toNat && c.toNat ≤ 0x1F)

def hexDigit? (c : Char) : Option Nat :=
  if c.isDigit then some (c.toNat - '0'.toNat)
  else if 'a' ≤ c && c ≤ 'f' then some (c.toNat - 'a'.toNat + 10)
  else if 'A' ≤ c && c ≤ 'F' then some (c.toNat - 'A'.toNat + 10)
  else none

/-- The value of ASCII digits of a base, from the first on; other characters make it fail. -/
def ofBaseAux? (base acc : Nat) : List Char → Option Nat
  | [] => some acc
  | c :: rest =>
      match hexDigit? c with
      | some d => if d < base then ofBaseAux? base (base * acc + d) rest else none
      | none => none

def ofBase? (base : Nat) (digits : List Char) : Option Nat :=
  if digits.isEmpty then none else ofBaseAux? base 0 digits

def hexDigits (n : Nat) : String := String.ofList (Nat.toDigits 16 n)

/-- Lower-case hexadecimal after `0x`; the sign of a negative number stands between the two. -/
def hex (n : Int) : String :=
  if n < 0 then "0x-" ++ hexDigits n.natAbs else "0x" ++ hexDigits n.natAbs

def padLeft (width : Nat) (s : String) : String :=
  String.ofList (List.replicate (width - s.length) '0') ++ s

/-- Hexadecimal of at least eight places, a sign counted among them. -/
def hex8 (n : Int) : String :=
  if n < 0 then "-" ++ padLeft 7 (hexDigits n.natAbs) else padLeft 8 (hexDigits n.natAbs)

end StabsImport.Text

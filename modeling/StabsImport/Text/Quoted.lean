import StabsImport.Text.Integer
import StabsImport.Text.Printable
import StabsImport.Text.Surrogate

/-!
# Quoted text

A text between single quotes, or between double quotes when it holds a single quote and no double
one. Backslash, the quote in use and the three common controls are escaped by a letter, all other
characters that do not print by their code.
-/

namespace StabsImport.Text

def quoteMark (cs : List Char) : Char :=
  if cs.contains '\'' && !cs.contains '"' then '"' else '\''

def escapeCode (n : Nat) : List Char :=
  let code (mark : Char) (width : Nat) :=
    '\\' :: mark :: (padLeft width (hexDigits n)).toList
  if n < 0x100 then code 'x' 2 else if n < 0x10000 then code 'u' 4 else code 'U' 8

def quotedCode (mark : Char) (n : Nat) : List Char :=
  let c := Char.ofNat n
  if isSurrogate n then escapeCode n
  else if c == '\\' || c == mark then ['\\', c]
  else if c == '\n' then ['\\', 'n']
  else if c == '\r' then ['\\', 'r']
  else if c == '\t' then ['\\', 't']
  else if isPrintable c then [c]
  else escapeCode n

def quoted (s : String) : String :=
  let mark := quoteMark s.toList
  String.ofList (mark :: (codes s).flatMap (quotedCode mark) ++ [mark])

def quotedByte (mark : Char) (b : UInt8) : List Char :=
  let c := Char.ofNat b.toNat
  if c == '\\' || c == mark then ['\\', c]
  else if c == '\n' then ['\\', 'n']
  else if c == '\r' then ['\\', 'r']
  else if c == '\t' then ['\\', 't']
  else if 0x20 ≤ b && b < 0x7F then [c]
  else '\\' :: 'x' :: (padLeft 2 (hexDigits b.toNat)).toList

/-- Bytes as ASCII text, with a mark in front. -/
def quotedBytes (bytes : List UInt8) : String :=
  let mark := quoteMark (bytes.map fun b => Char.ofNat b.toNat)
  String.ofList ('b' :: mark :: bytes.flatMap (quotedByte mark) ++ [mark])

end StabsImport.Text

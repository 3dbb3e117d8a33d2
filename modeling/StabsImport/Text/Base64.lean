/-!
# Base 64

Characters outside the alphabet are passed over. Padding counts from the third place of a group on
and ends the text once it fills the group.
-/

namespace StabsImport.Text

def base64Digit? (c : Char) : Option Nat :=
  if 'A' ≤ c && c ≤ 'Z' then some (c.toNat - 'A'.toNat)
  else if 'a' ≤ c && c ≤ 'z' then some (c.toNat - 'a'.toNat + 26)
  else if '0' ≤ c && c ≤ '9' then some (c.toNat - '0'.toNat + 52)
  else if c == '+' then some 62
  else if c == '/' then some 63
  else none

/-- The bytes of a group of two to four digits, one byte fewer than it has digits. -/
def groupBytes (digits : List Nat) : List UInt8 :=
  let n := (digits ++ List.replicate (4 - digits.length) 0).foldl (fun acc d => 64 * acc + d) 0
  ([n / 65536, n / 256, n].take (digits.length - 1)).map fun b => UInt8.ofNat (b % 256)

/-- Reads on with the digits of an open group, fewer than four, and the padding seen in a row. -/
def base64From (group : List Nat) (pads : Nat) : List Char → Option (List UInt8)
  | [] => if group.isEmpty then some [] else none
  | '=' :: rest =>
      if group.length < 2 then base64From group pads rest
      else if group.length + pads + 1 ≥ 4 then some (groupBytes group)
      else base64From group (pads + 1) rest
  | c :: rest =>
      match base64Digit? c with
      | none => base64From group pads rest
      | some d =>
          if group.length == 3 then
            (base64From [] 0 rest).map (groupBytes (group ++ [d]) ++ ·)
          else base64From (group ++ [d]) 0 rest

def base64? (s : String) : Option (List UInt8) := base64From [] 0 s.toList

end StabsImport.Text

import StabsImport.Real.Binary64
import StabsImport.Text.Integer

/-!
# Floating point numbers from text

Digits with a point and an exponent, both optional, or the words for infinity and not-a-number.
Also the sums of products that numbers in base 60 need.
-/

namespace StabsImport.Binary64

/-- The decimal digits a text starts with, and the rest. -/
def leadingDigits : List Char → List Nat × List Char
  | [] => ([], [])
  | c :: rest =>
      match Text.decimalDigit? c with
      | some d => let (ds, after) := leadingDigits rest; (d :: ds, after)
      | none => ([], c :: rest)

def ofDigits (digits : List Nat) : Nat := digits.foldl (fun acc d => 10 * acc + d) 0

/-- Nothing, or a mark of exponent with a sign and at least one digit. -/
def exponentPart? : List Char → Option Int
  | [] => some 0
  | mark :: rest =>
      if mark != 'e' && mark != 'E' then none
      else
        let (isNegative, rest) :=
          match rest with
          | '-' :: rest => (true, rest)
          | '+' :: rest => (false, rest)
          | rest => (false, rest)
        match leadingDigits rest with
        | (d :: ds, []) =>
            let e : Int := ofDigits (d :: ds)
            some (if isNegative then -e else e)
        | _ => none

def magnitude? (isNegative : Bool) (cs : List Char) : Option Binary64 :=
  let (whole, rest) := leadingDigits cs
  let (fraction, rest) :=
    match rest with
    | '.' :: rest => leadingDigits rest
    | rest => ([], rest)
  if whole.isEmpty && fraction.isEmpty then none
  else
    (exponentPart? rest).map fun e =>
      ofDecimal isNegative (ofDigits (whole ++ fraction)) (e - (fraction.length : Int))

def ofText? (s : String) : Option Binary64 :=
  let (isNegative, cs) :=
    match Text.dropEnds Text.isMargin s.toList with
    | '-' :: cs => (true, cs)
    | '+' :: cs => (false, cs)
    | cs => (false, cs)
  let word := String.ofList (cs.map Char.toLower)
  if word == "inf" || word == "infinity" then some (infinite isNegative)
  else if word == "nan" then some nan
  else magnitude? isNegative cs

def negate : Binary64 → Binary64
  | nan => nan
  | infinite negative => infinite !negative
  | finite negative m e => finite (!negative) m e

/-- Infinities of opposite signs have no sum. -/
def add (x y : Binary64) : Binary64 :=
  match x, y with
  | nan, _ | _, nan => nan
  | infinite s, infinite t => if s = t then infinite s else nan
  | infinite s, _ | _, infinite s => infinite s
  | x, y =>
      match x.fraction?, y.fraction? with
      | some (a, b), some (c, d) =>
          let num := a * d + c * b
          ofQuotient (num < 0) num.natAbs (b * d)
      | _, _ => nan

/-- A number times a whole one, which is rounded first; none if that is beyond all numbers. -/
def timesNat? (x : Binary64) (n : Nat) : Option Binary64 :=
  (ofInt n).fraction?.map fun (c, d) =>
    match x.fraction? with
    | some (a, b) => ofQuotient (a * c < 0) (a * c).natAbs (b * d)
    | none => x

end StabsImport.Binary64

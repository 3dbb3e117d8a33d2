/-!
# Binary floating point numbers

The numbers of 64 bits, kept exactly: a sign, a mantissa below `2 ^ 53` and a power of two. Every
operation is carried out on fractions and rounded once, half to the even neighbour.
-/

namespace StabsImport

inductive Binary64 where
  | nan
  | infinite (negative : Bool)
  /-- The mantissa has 53 bits, or the exponent is the least one. -/
  | finite (negative : Bool) (mantissa : Nat) (exponent : Int)
  deriving DecidableEq, Repr, Inhabited

namespace Binary64

def leastExponent : Int := -1074

def greatestExponent : Int := 971

/-- A power of two; 1 when the exponent is negative. -/
def pow2 (e : Int) : Nat := Nat.pow 2 e.toNat

/-- A power of ten; 1 when the exponent is negative. -/
def pow10 (e : Int) : Nat := Nat.pow 10 e.toNat

/-- A quotient rounded to the nearest whole number, half to even. -/
def roundQuotient (num den : Nat) : Nat :=
  let q := num / den
  let r := num % den
  if 2 * r < den || (2 * r == den && q % 2 == 0) then q else q + 1

/-- `num / den` in units of `2 ^ e`. -/
def mantissaAt (num den : Nat) (e : Int) : Nat :=
  roundQuotient (num * pow2 (-e)) (den * pow2 e)

/-- The exponent at which the whole part of `num / den` has 53 bits. -/
def fittingExponent (num den : Nat) : Int :=
  let guess : Int := (Nat.log2 num : Int) - Nat.log2 den - 52
  let guess := if num * pow2 (-guess) / (den * pow2 guess) < pow2 52 then guess - 1 else guess
  max guess leastExponent

/-- The number nearest to `num / den`. -/
def ofQuotient (negative : Bool) (num den : Nat) : Binary64 :=
  if num == 0 then finite negative 0 leastExponent
  else
    let e := fittingExponent num den
    let m := mantissaAt num den e
    let (m, e) := if m == pow2 53 then (pow2 52, e + 1) else (m, e)
    if e > greatestExponent then infinite negative else finite negative m e

/-- More digits than this before the point are beyond the greatest number, and more zeros after
it below half of the least one. -/
def decimalRange : Int := 400

/-- The number nearest to `digits * 10 ^ e`. -/
def ofDecimal (negative : Bool) (digits : Nat) (e : Int) : Binary64 :=
  let size : Int := (Nat.toDigits 10 digits).length + e
  if digits == 0 || size < -decimalRange then finite negative 0 leastExponent
  else if size > decimalRange then infinite negative
  else ofQuotient negative (digits * pow10 e) (pow10 (-e))

def ofInt (n : Int) : Binary64 := ofQuotient (n < 0) n.natAbs 1

def isZero : Binary64 → Bool
  | finite _ m _ => m == 0
  | _ => false

/-- A finite number as a signed numerator over a power of two. -/
def fraction? : Binary64 → Option (Int × Nat)
  | finite negative m e =>
      let num : Int := m * pow2 e
      some (if negative then -num else num, pow2 (-e))
  | _ => none

/-- The whole part, the fraction dropped toward zero. -/
def truncate? (x : Binary64) : Option Int := x.fraction?.map fun (num, den) => num.tdiv den

/-- The whole number a number is equal to. -/
def whole? (x : Binary64) : Option Int :=
  match x.fraction? with
  | some (num, den) => if num % den == 0 then some (num / den) else none
  | none => none

/-- Comparison as numbers; nothing compares with a not-a-number. -/
def compare? : Binary64 → Binary64 → Option Ordering
  | nan, _ | _, nan => none
  | infinite s, infinite t => some (compare t.toNat s.toNat)
  | infinite s, _ => some (if s then .lt else .gt)
  | _, infinite t => some (if t then .gt else .lt)
  | x, y =>
      match x.fraction?, y.fraction? with
      | some (a, b), some (c, d) => some (compare (a * d) (c * b))
      | _, _ => none

def compareInt? (x : Binary64) (n : Int) : Option Ordering :=
  match x with
  | nan => none
  | infinite s => some (if s then .lt else .gt)
  | _ => x.fraction?.map fun (num, den) => compare num (n * den)

/-- One less, rounded. -/
def pred (x : Binary64) : Binary64 :=
  match x.fraction? with
  | some (num, den) =>
      let num := num - den
      ofQuotient (num < 0) num.natAbs den
  | none => x

end Binary64

end StabsImport

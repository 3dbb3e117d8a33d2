import StabsImport.Real.Binary64

/-!
# Shortest decimals

A number is written with the fewest decimal digits that read back as the same number, and of those
with the ones nearest to it. Exponents from -4 to 15 are written out; a whole number keeps `.0`.
-/

namespace StabsImport.Binary64

/-- The reals that round to a number, ends included when the mantissa is even: all values times
one common denominator. -/
structure Interval where
  low : Nat
  value : Nat
  high : Nat
  den : Nat
  closed : Bool

/-- Below a power of two the spacing halves. -/
def interval (m : Nat) (e : Int) : Interval :=
  let unit := pow2 (e - 2)
  let below := if m == pow2 52 && e > leastExponent then 1 else 2
  { low := (4 * m - below) * unit
    value := 4 * m * unit
    high := (4 * m + 2) * unit
    den := pow2 (2 - e)
    closed := m % 2 == 0 }

def Interval.holds (i : Interval) (num den : Nat) : Bool :=
  let x := num * i.den
  if i.closed then i.low * den ≤ x && x ≤ i.high * den else i.low * den < x && x < i.high * den

/-- The decimal point's place: the least `p` with the value below `10 ^ p`. -/
def pointPlace (i : Interval) : Int :=
  let whole := i.value / i.den
  if whole != 0 then (Nat.toDigits 10 whole).length
  else
    let leadingZeros := (List.range 400).find? fun (k : Nat) => i.den ≤ i.value * pow10 (k + 1)
    0 - (leadingZeros.getD 400 : Int)

/-- The grid of multiples of `10 ^ step`: the neighbour of the value that reads back, the nearer
one if both do. -/
def onGrid (i : Interval) (step : Int) : Option Nat :=
  let up := pow10 step
  let down := pow10 (-step)
  let num := i.value * down
  let den := i.den * up
  let q := num / den
  let r := num % den
  let lower := i.holds (q * up) down
  let upper := i.holds ((q + 1) * up) down
  match lower, upper with
  | true, true => some (if 2 * r < den || (2 * r == den && q % 2 == 0) then q else q + 1)
  | true, false => some q
  | false, true => some (q + 1)
  | false, false => none

/-- Digits and the power of ten of the last one. -/
def shortestDigits (m : Nat) (e : Int) : Nat × Int :=
  let i := interval m e
  let p := pointPlace i
  let grids := (List.range 17).map fun (k : Nat) => p - (k : Int) - 1
  (grids.findSome? fun step => (onGrid i step).map fun n => (n, step)).getD (0, 0)

def dropTrailingZeros : Nat → Nat × Int → Nat × Int
  | 0, d => d
  | fuel + 1, (n, e) =>
      if n != 0 && n % 10 == 0 then dropTrailingZeros fuel (n / 10, e + 1) else (n, e)

def zeros (n : Int) : String := String.ofList (List.replicate n.toNat '0')

def exponentText (e : Int) : String :=
  let digits := toString e.natAbs
  (if e < 0 then "e-" else "e+") ++ (if digits.length < 2 then "0" ++ digits else digits)

/-- `digits * 10 ^ e`, both without trailing zeros. -/
def decimalText (digits : Nat) (e : Int) : String :=
  let ds := toString digits
  let count : Int := ds.length
  let point := count + e
  if point ≤ -4 || 16 < point then
    let head := String.ofList (ds.toList.take 1)
    let tail := String.ofList (ds.toList.drop 1)
    head ++ (if tail.isEmpty then "" else "." ++ tail) ++ exponentText (point - 1)
  else if point ≤ 0 then "0." ++ zeros (-point) ++ ds
  else if count ≤ point then ds ++ zeros e ++ ".0"
  else
    String.ofList (ds.toList.take point.toNat) ++ "." ++ String.ofList (ds.toList.drop point.toNat)

def text : Binary64 → String
  | nan => "nan"
  | infinite negative => if negative then "-inf" else "inf"
  | finite negative m e =>
      let magnitude :=
        if m == 0 then "0.0"
        else
          let (n, e) := dropTrailingZeros 20 (shortestDigits m e)
          decimalText n e
      if negative then "-" ++ magnitude else magnitude

end StabsImport.Binary64

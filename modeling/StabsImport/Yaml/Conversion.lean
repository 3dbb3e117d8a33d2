import StabsImport.Real.Decimal
import StabsImport.Text.Base64
import StabsImport.Text.Case
import StabsImport.Yaml.Schema
import StabsImport.Yaml.Value

/-!
# Scalars from text

The value that a text gives as a scalar of a kind, and what is wrong with it if it gives none.
-/

namespace StabsImport.Yaml

def withoutScores (s : String) : String := String.ofList (s.toList.filter (· != '_'))

/-- A number without its sign, and whether that is a minus. -/
def signedDigits (s : String) : Except Fault (Bool × List Char) :=
  match s.toList with
  | [] => .error .noNumber
  | '-' :: cs => .ok (true, cs)
  | '+' :: cs => .ok (false, cs)
  | cs => .ok (false, cs)

def inBase (base : Nat) (cs : List Char) : Except Fault Int :=
  let s := String.ofList cs
  (Text.Numeral.read base s).mapError (.notInteger base s)

/-- Numbers between colons, each worth sixty times the next. -/
def inSixties (parts : List (List Char)) : Except Fault Int :=
  parts.foldlM (fun acc part => return 60 * acc + (← inBase 10 part)) 0

def intOf (s : String) : Except Fault Int := do
  let (isNegative, cs) ← signedDigits (withoutScores s)
  let n ←
    match cs with
    | [] => throw .noNumber
    | ['0'] => pure 0
    | '0' :: 'b' :: ds => inBase 2 ds
    | '0' :: 'x' :: ds => inBase 16 ds
    | '0' :: _ => inBase 8 cs
    | _ => if cs.contains ':' then inSixties (Kind.splitColons cs) else inBase 10 cs
  return if isNegative then -n else n

def realPart (cs : List Char) : Except Fault Binary64 :=
  match Binary64.ofText? (String.ofList cs) with
  | some x => .ok x
  | none => .error (.notReal (String.ofList cs))

def addPlace (sum : Binary64) (x : Binary64) (place : Nat) : Except Fault Binary64 :=
  match x.timesNat? place with
  | some y => .ok (sum.add y)
  | none => .error .hugePlace

/-- All parts are read first. Those from the last on are worth one, sixty and so on. -/
def realInSixties (parts : List (List Char)) : Except Fault Binary64 := do
  let xs ← parts.mapM realPart
  xs.reverse.zipIdx.foldlM (fun sum (x, i) => addPlace sum x (Nat.pow 60 i)) (.ofInt 0)

def realOf (s : String) : Except Fault Binary64 := do
  let (isNegative, cs) ← signedDigits (Text.lower (withoutScores s))
  let x ←
    if cs = ".inf".toList then pure (Binary64.infinite false)
    else if cs = ".nan".toList then pure .nan
    else if cs.contains ':' then realInSixties (Kind.splitColons cs)
    else realPart cs
  return if isNegative then x.negate else x

/-- Whether a number that is none is the one that all such texts stand for. -/
def isCommonNan (s : String) : Bool :=
  match signedDigits (Text.lower (withoutScores s)) with
  | .ok (_, cs) => cs == ".nan".toList
  | .error _ => false

def truthOf (s : String) : Except Fault Bool :=
  let word := Text.lower s
  match Kind.truthWords.lookup word with
  | some b => .ok b
  | none => .error (.notTruth word)

def timeOf (s : String) : Except Fault Time :=
  match Time.ofText? s with
  | some t => t.check
  | none => .error .notTime

def bytesOf (s : String) : Except Fault (List UInt8) :=
  if s.toList.any fun c => c.toNat ≥ 0x80 then .error .malformed
  else
    match Text.base64? s with
    | some bytes => .ok bytes
    | none => .error .malformed

/-- The value of a text of a kind. -/
def scalarValue (kind : Kind) (s : String) : Except Fault Value :=
  match kind with
  | .null => .ok .null
  | .bool => (truthOf s).map .bool
  | .int => (intOf s).map .int
  | .real => (realOf s).map .real
  | .text => .ok (.text s)
  | .bytes => (bytesOf s).map .bytes
  | .time => (timeOf s).map .time
  | _ => .error .malformed

end StabsImport.Yaml

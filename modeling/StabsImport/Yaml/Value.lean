import StabsImport.Json.Printer
import StabsImport.Room
import StabsImport.Slots
import StabsImport.Yaml.Time

/-!
# YAML values

What a document says, as opposed to how. Keys of a mapping are compared by value: a truth value, a
whole number and a floating point number that are equal are one key.
-/

namespace StabsImport.Yaml

inductive Value where
  | null
  | bool (b : Bool)
  | int (n : Int)
  | real (x : Binary64)
  | text (s : String)
  | bytes (b : List UInt8)
  | time (t : Time)
  | list (items : List Value)
  | pair (first second : Value)
  | mapping (entries : List (Value × Value))
  | set (items : List Value)
  /-- The list or mapping inside which this value stands. -/
  | cycle (isMapping : Bool)
  deriving Inhabited

/-- What keeps a value from being written. -/
inductive WritingFault where
  /-- A number in it has too many digits. -/
  | longNumber
  /-- There is too much inside one another. -/
  | tooDeep
  deriving DecidableEq, Repr

namespace WritingFault

def title : WritingFault → String
  | longNumber => "ValueError"
  | tooDeep => "RecursionError"

def message : WritingFault → String
  | longNumber => Text.longNumberMessage
  | tooDeep => ""

end WritingFault

namespace Value

mutual

/-- A value read from JSON. -/
def ofJson : Json → Value
  | .null => null
  | .bool b => bool b
  | .int n => int n
  | .real x => real x
  | .text s => text s
  | .list items => list (ofItems items)
  | .object fields => mapping (ofFields fields)

def ofItems : List Json → List Value
  | [] => []
  | x :: xs => ofJson x :: ofItems xs

def ofFields : List (String × Json) → List (Value × Value)
  | [] => []
  | (k, x) :: xs => (text k, ofJson x) :: ofFields xs

end

/-- The whole number that a key is equal to. -/
def whole? : Value → Option Int
  | bool b => some b.toInt
  | int n => some n
  | real x => x.whole?
  | _ => none

/-- Whether two scalars are the same as keys. -/
def sameKey (a b : Value) : Bool :=
  match a, b with
  | null, null => true
  | text s, text t => s == t
  | bytes s, bytes t => s == t
  | time s, time t => s.same t
  | real x, real y => x == y || (x.isZero && y.isZero)
  | a, b => a.whole?.isSome && a.whole? == b.whole?

/-- The modulus by which numbers are told apart in a set, `2 ^ 61 - 1`. -/
def residueModulus : Nat := 2305843009213693951

/-- What a fraction over a power of two leaves by the modulus, with the sign of the fraction. The
61st power of two leaves 1, so that dividing by a power is multiplying by another one. -/
def residue (num : Int) (den : Nat) : Int :=
  let size := num.natAbs * Nat.pow 2 (61 - Nat.log2 den % 61) % residueModulus
  let r : Int := if num < 0 then -size else size
  if r == -1 then -2 else r

/-- The number by which a number finds its place in a set. -/
def residue? : Value → Option Int
  | bool b => some b.toInt
  | int n => some (residue n 1)
  | real (.infinite negative) => some (if negative then -314159 else 314159)
  | real x => x.fraction?.map fun (num, den) => residue num den
  | _ => none

/-- The slot number of a value; a negative residue counts down from `2 ^ 64`. -/
def slotNumber (v : Value) : Nat := ((v.residue?.getD 0) % 18446744073709551616).toNat

/-- The set of some keys. Numbers come by their slots, all else as it was put in. -/
def setOf (items : List Value) : Value :=
  set (if items.all (·.residue?.isSome) then Slots.order slotNumber items else items)

mutual

/-- What is first in the way of writing a value, with so much room, if anything is. A set that is
not empty is shown by a list. -/
def writingFault? (room : Room) : Value → Option WritingFault
  | int n =>
      if room.allows 1 then if Text.isWritable n then none else some .longNumber
      else some .tooDeep
  | list items => if room.allows 1 then itemsFault? (room.inside 1) items else some .tooDeep
  | set [] => if room.allows 1 then none else some .tooDeep
  | set (x :: xs) =>
      if room.allows 2 then (writingFault? (room.inside 2) x).or (itemsFault? (room.inside 2) xs)
      else some .tooDeep
  | time t => if room.allows t.depth then none else some .tooDeep
  | pair a b =>
      if room.allows 1 then
        (writingFault? (room.inside 1) a).or (writingFault? (room.inside 1) b)
      else some .tooDeep
  | mapping entries =>
      if room.allows 1 then entriesFault? (room.inside 1) entries else some .tooDeep
  | _ => if room.allows 1 then none else some .tooDeep

def itemsFault? (room : Room) : List Value → Option WritingFault
  | [] => none
  | x :: xs => (writingFault? room x).or (itemsFault? room xs)

def entriesFault? (room : Room) : List (Value × Value) → Option WritingFault
  | [] => none
  | (k, v) :: rest =>
      ((writingFault? room k).or (writingFault? room v)).or (entriesFault? room rest)

end

mutual

/-- The form of a value inside a message. -/
def shown : Value → String
  | null => "None"
  | bool b => if b then "True" else "False"
  | int n => toString n
  | real x => x.text
  | text s => Text.quoted s
  | bytes b => Text.quotedBytes b
  | time t => t.shown
  | list items => "[" ++ ", ".intercalate (shownItems items) ++ "]"
  | pair a b => "(" ++ a.shown ++ ", " ++ b.shown ++ ")"
  | mapping entries => "\x7b" ++ ", ".intercalate (shownEntries entries) ++ "\x7d"
  | set [] => "set()"
  | set (x :: xs) => "\x7b" ++ ", ".intercalate (x.shown :: shownItems xs) ++ "\x7d"
  | cycle isMapping => if isMapping then "\x7b...\x7d" else "[...]"

def shownItems : List Value → List String
  | [] => []
  | x :: xs => x.shown :: shownItems xs

def shownEntries : List (Value × Value) → List String
  | [] => []
  | (k, v) :: rest => (k.shown ++ ": " ++ v.shown) :: shownEntries rest

end

/-- A text and a time stand for themselves, every other value for its form in a message. -/
def plain : Value → String
  | text s => s
  | time t => t.text
  | v => v.shown

end Value

end StabsImport.Yaml

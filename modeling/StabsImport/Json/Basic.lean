import StabsImport.Real.Binary64

/-!
# JSON values

Whole numbers are told apart from floating point ones. The fields of an object stand in order of
first mention, each key once.
-/

namespace StabsImport

inductive Json where
  | null
  | bool (b : Bool)
  | int (n : Int)
  | real (x : Binary64)
  | text (s : String)
  | list (items : List Json)
  | object (fields : List (String × Json))
  deriving Inhabited

namespace Json

mutual

def decEq : (a b : Json) → Decidable (a = b)
  | null, null => isTrue rfl
  | bool a, bool b => decidable_of_iff (a = b) (by simp)
  | int a, int b => decidable_of_iff (a = b) (by simp)
  | real a, real b => decidable_of_iff (a = b) (by simp)
  | text a, text b => decidable_of_iff (a = b) (by simp)
  | list a, list b =>
      match decEqItems a b with
      | isTrue h => isTrue (by rw [h])
      | isFalse h => isFalse (by simpa using h)
  | object a, object b =>
      match decEqFields a b with
      | isTrue h => isTrue (by rw [h])
      | isFalse h => isFalse (by simpa using h)
  | null, bool _ | null, int _ | null, real _ | null, text _ | null, list _ | null, object _
  | bool _, null | bool _, int _ | bool _, real _ | bool _, text _ | bool _, list _
  | bool _, object _ | int _, null | int _, bool _ | int _, real _ | int _, text _
  | int _, list _ | int _, object _ | real _, null | real _, bool _ | real _, int _
  | real _, text _ | real _, list _ | real _, object _ | text _, null | text _, bool _
  | text _, int _ | text _, real _ | text _, list _ | text _, object _ | list _, null
  | list _, bool _ | list _, int _ | list _, real _ | list _, text _ | list _, object _
  | object _, null | object _, bool _ | object _, int _ | object _, real _ | object _, text _
  | object _, list _ => isFalse (by simp)

def decEqItems : (a b : List Json) → Decidable (a = b)
  | [], [] => isTrue rfl
  | [], _ :: _ | _ :: _, [] => isFalse (by simp)
  | x :: xs, y :: ys =>
      match decEq x y, decEqItems xs ys with
      | isTrue h, isTrue h' => isTrue (by rw [h, h'])
      | isFalse h, _ => isFalse (by simp [h])
      | _, isFalse h => isFalse (by simp [h])

def decEqFields : (a b : List (String × Json)) → Decidable (a = b)
  | [], [] => isTrue rfl
  | [], _ :: _ | _ :: _, [] => isFalse (by simp)
  | (k, x) :: xs, (l, y) :: ys =>
      match decEq x y, decEqFields xs ys with
      | isTrue h, isTrue h' => decidable_of_iff (k = l) (by simp [h, h'])
      | isFalse h, _ => isFalse (by simp [h])
      | _, isFalse h => isFalse (by simp [h])

end

instance : DecidableEq Json := decEq

/-- Null, false, zero and everything empty do not hold. -/
def holds : Json → Bool
  | null => false
  | bool b => b
  | int n => n != 0
  | real x => !x.isZero
  | text s => !s.isEmpty
  | list items => !items.isEmpty
  | object fields => !fields.isEmpty

/-- The whole number a value is equal to; truth values count as zero and one. -/
def whole? : Json → Option Int
  | bool b => some b.toInt
  | int n => some n
  | real x => x.whole?
  | _ => none

mutual

/-- How many lists and objects stand inside one another. -/
def depth : Json → Nat
  | list items => depthOfItems items + 1
  | object fields => depthOfFields fields + 1
  | _ => 0

def depthOfItems : List Json → Nat
  | [] => 0
  | x :: xs => max x.depth (depthOfItems xs)

def depthOfFields : List (String × Json) → Nat
  | [] => 0
  | (_, x) :: rest => max x.depth (depthOfFields rest)

end

def text? : Json → Option String
  | text s => some s
  | _ => none

/-- A repeated key takes its last value and keeps its first place. -/
def setField (key : String) (value : Json) : List (String × Json) → List (String × Json)
  | [] => [(key, value)]
  | (k, v) :: rest => if k = key then (k, value) :: rest else (k, v) :: setField key value rest

def field? (key : String) : Json → Option Json
  | object fields => fields.lookup key
  | _ => none

def ofOption {α : Type} (f : α → Json) : Option α → Json
  | some x => f x
  | none => null

end Json

end StabsImport

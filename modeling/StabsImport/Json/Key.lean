import StabsImport.Json.Basic
import StabsImport.Ledger

/-!
# JSON values as names and keys

Equal numbers are the same however they are written, a truth value counts as zero or one, and the
fields of an object have no order. What can change, a list or an object, cannot be a key.
-/

namespace StabsImport.Json

mutual

/-- The form of all values that are the same as this one. -/
def form : Json → Json
  | bool b => int b.toInt
  | real x =>
      match x.whole? with
      | some n => int n
      | none => real x
  | list items => list (formItems items)
  | object fields => object ((formFields fields).mergeSort fun a b => decide (a.1 ≤ b.1))
  | v => v

def formItems : List Json → List Json
  | [] => []
  | x :: xs => form x :: formItems xs

def formFields : List (String × Json) → List (String × Json)
  | [] => []
  | (k, x) :: xs => (k, form x) :: formFields xs

end

instance : Key Json where
  Form := Json
  decideForm := inferInstance
  form := form

/-- Whether a value can name an entry of a table. -/
def isKey : Json → Bool
  | list _ | object _ => false
  | _ => true

def isNan : Json → Bool
  | real .nan => true
  | _ => false

/-- Whether two values compare as equal. A not-a-number is the same as itself, but not equal to
it. -/
def isEqual (a b : Json) : Bool := Key.same a b && !a.isNan

@[simp] theorem same_text (s t : String) : Key.same (text s) (text t) = decide (s = t) := by
  exact decide_eq_decide.mpr ⟨fun h => Json.text.inj h, fun h => congrArg Json.text h⟩

@[simp] theorem isEqual_text (s t : String) : isEqual (text s) (text t) = decide (s = t) := by
  simp [isEqual, isNan]

/-- Only the text itself is the same as a text. -/
theorem same_text_iff {v : Json} {s : String} : Key.same v (text s) = true ↔ v = text s := by
  have h : Key.same v (text s) = true ↔ form v = text s := decide_eq_true_iff
  rw [h]
  cases v with
  | real x => cases h : x.whole? <;> simp [form, h]
  | _ => simp [form]

end StabsImport.Json

/-!
# Insertion-ordered tables

A table keeps its entries in the order in which their keys were first put. Putting a key again
replaces its value in place; removing it and putting it again moves it to the end. Keys may be
spelled differently and yet be the same: a table keeps the spelling that was put first.
-/

namespace StabsImport

/-- How a table tells keys apart: those that are the same have one form. -/
class Key (κ : Type) where
  Form : Type
  decideForm : DecidableEq Form
  form : κ → Form

attribute [reducible, instance] Key.decideForm

namespace Key

/-- Where nothing else is said, only equal keys are the same. -/
instance (priority := low) ofDecidableEq {κ : Type} [DecidableEq κ] : Key κ where
  Form := κ
  decideForm := inferInstance
  form := id

variable {κ : Type}

def same [Key κ] (a b : κ) : Bool := decide (form a = form b)

@[simp] theorem same_self [Key κ] (a : κ) : same a a = true := by simp [same]

theorem same_comm [Key κ] (a b : κ) : same a b = same b a := by simp [same, eq_comm]

theorem same_trans [Key κ] {a b c : κ} (h : same a b = true) (h' : same b c = true) :
    same a c = true := by
  simp_all [same]

/-- Equal keys are the same in every table. -/
theorem same_of_eq [Key κ] {a b : κ} (h : a = b) : same a b = true := by simp [h]

end Key

structure Ledger (κ ν : Type) where
  entries : List (κ × ν) := []
  deriving Inhabited

namespace Ledger

variable {κ ν : Type} [Key κ]

def find (k : κ) : List (κ × ν) → Option ν
  | [] => none
  | (k', v) :: rest => if Key.same k' k then some v else find k rest

def replace (k : κ) (v : ν) : List (κ × ν) → List (κ × ν)
  | [] => [(k, v)]
  | (k', v') :: rest => if Key.same k' k then (k', v) :: rest else (k', v') :: replace k v rest

def get? (l : Ledger κ ν) (k : κ) : Option ν := find k l.entries

def contains (l : Ledger κ ν) (k : κ) : Bool := (l.get? k).isSome

def put (l : Ledger κ ν) (k : κ) (v : ν) : Ledger κ ν := ⟨replace k v l.entries⟩

def remove (l : Ledger κ ν) (k : κ) : Ledger κ ν := ⟨l.entries.filter fun e => !Key.same e.1 k⟩

def update (l : Ledger κ ν) (k : κ) (f : ν → ν) : Ledger κ ν :=
  match l.get? k with
  | some v => l.put k (f v)
  | none => l

def keys (l : Ledger κ ν) : List κ := l.entries.map (·.1)

def values (l : Ledger κ ν) : List ν := l.entries.map (·.2)

theorem get?_put_of_same (l : Ledger κ ν) {k k' : κ} (v : ν) (h : Key.same k k' = true) :
    (l.put k v).get? k' = some v := by
  obtain ⟨es⟩ := l
  simp only [get?, put]
  induction es with
  | nil => simp [replace, find, h]
  | cons e es ih =>
      by_cases he : Key.same e.1 k = true
      · simp [replace, find, he, Key.same_trans he h]
      · have : ¬ Key.same e.1 k' = true := fun h' =>
          he (Key.same_trans h' (Key.same_comm k k' ▸ h))
        simp [replace, find, he, this, ih]

theorem get?_put_self (l : Ledger κ ν) (k : κ) (v : ν) : (l.put k v).get? k = some v :=
  get?_put_of_same l v (Key.same_self k)

theorem get?_put_of_not_same (l : Ledger κ ν) {k k' : κ} (v : ν) (h : Key.same k' k = false) :
    (l.put k v).get? k' = l.get? k' := by
  have h' : Key.same k k' = false := Key.same_comm k k' ▸ h
  obtain ⟨es⟩ := l
  simp only [get?, put]
  induction es with
  | nil => simp [replace, find, h']
  | cons e es ih =>
      by_cases he : Key.same e.1 k = true
      · have : ¬ Key.same e.1 k' = true := fun hk =>
          absurd (Key.same_trans (Key.same_comm e.1 k ▸ he) hk) (by simp [h'])
        simp [replace, find, he, this]
      · simp [replace, find, he, ih]

theorem get?_remove_of_same (l : Ledger κ ν) {k k' : κ} (h : Key.same k k' = true) :
    (l.remove k).get? k' = none := by
  obtain ⟨es⟩ := l
  simp only [get?, remove]
  induction es with
  | nil => rfl
  | cons e es ih =>
      by_cases he : Key.same e.1 k = true
      · simp_all
      · have : ¬ Key.same e.1 k' = true := fun h' =>
          he (Key.same_trans h' (Key.same_comm k k' ▸ h))
        simp_all [find]

theorem get?_remove_of_not_same (l : Ledger κ ν) {k k' : κ} (h : Key.same k' k = false) :
    (l.remove k).get? k' = l.get? k' := by
  obtain ⟨es⟩ := l
  simp only [get?, remove]
  induction es with
  | nil => rfl
  | cons e es ih =>
      by_cases he : Key.same e.1 k = true
      · have : ¬ Key.same e.1 k' = true := fun hk =>
          absurd (Key.same_trans (Key.same_comm e.1 k' ▸ hk) he) (by simp [h])
        simp_all [find]
      · by_cases hk : Key.same e.1 k' = true <;> simp_all [find]

end Ledger

/-- The entries of a table by key, keys compared by `le`. -/
def Ledger.sorted {κ ν : Type} (l : Ledger κ ν) (le : κ → κ → Bool) : List (κ × ν) :=
  l.entries.mergeSort fun a b => le a.1 b.1

end StabsImport

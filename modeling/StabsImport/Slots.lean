/-!
# Values by slot

A row of slots, in which each value is placed by a number of its own. Where a slot is taken, its
neighbours are tried, and after them slots further away. Main statement: `order_perm`, the values in
the order of their slots are the values that were placed.
-/

namespace StabsImport.Slots

/-- Eight slots for up to four values; from then on more than twice as many slots as values. -/
def slotCount (count : Nat) : Nat := if count < 5 then 8 else Nat.pow 2 (Nat.log2 count + 2)

/-- The slots tried in one round: ten next to one another, or a single one near the end. -/
def tried (size slot : Nat) : List Nat := if slot + 9 < size then List.range' slot 10 else [slot]

/-- The first free slot of some rounds. What is left of the number picks the next round. -/
def free? {α : Type} (slots : List (Option α)) : Nat → Nat → Nat → Option Nat
  | 0, _, _ => none
  | rounds + 1, number, slot =>
      match (tried slots.length slot).find? (fun i => (slots[i]?).any Option.isNone) with
      | some i => some i
      | none =>
          let number := number / 32
          free? slots rounds number ((slot * 5 + 1 + number) % slots.length)

/-- Slots and, apart from them, the values for which none was found. -/
structure Placed (α : Type) where
  slots : List (Option α)
  others : List α

namespace Placed

variable {α : Type}

def values (p : Placed α) : List α := p.slots.filterMap id ++ p.others

def place (number : α → Nat) (p : Placed α) (x : α) : Placed α :=
  let size := p.slots.length
  match free? p.slots (size + 13) (number x) (number x % size) with
  | some i => { p with slots := p.slots.set i (some x) }
  | none => { p with others := x :: p.others }

end Placed

/-- The values in the order of their slots. -/
def order {α : Type} (number : α → Nat) (items : List α) : List α :=
  let start : Placed α := ⟨List.replicate (slotCount items.length) none, []⟩
  (items.foldl (Placed.place number) start).values

variable {α : Type}

theorem isFree_of_free? {slots : List (Option α)} {rounds number slot i : Nat}
    (h : free? slots rounds number slot = some i) : slots[i]? = some none := by
  induction rounds generalizing number slot with
  | zero => simp [free?] at h
  | succ rounds ih =>
    rw [free?] at h
    split at h
    · rename_i j hj
      obtain rfl := Option.some.inj h
      have hfree := List.find?_some hj
      cases hs : slots[j]? with
      | none => simp [hs] at hfree
      | some s => cases s <;> simp_all
    · exact ih h

theorem set_perm {slots : List (Option α)} {i : Nat} (x : α) (h : slots[i]? = some none) :
    ((slots.set i (some x)).filterMap id).Perm (x :: slots.filterMap id) := by
  induction slots generalizing i with
  | nil => simp at h
  | cons s slots ih =>
    cases i with
    | zero => simp_all
    | succ i =>
      have rest := ih (by simpa using h)
      cases s with
      | none => simpa using rest
      | some y => simpa using (rest.cons y).trans (List.Perm.swap x y _)

namespace Placed

theorem place_perm (number : α → Nat) (p : Placed α) (x : α) :
    (p.place number x).values.Perm (x :: p.values) := by
  unfold place values
  dsimp only
  split
  · rename_i h
    exact (set_perm x (isFree_of_free? h)).append_right _
  · exact List.perm_middle

theorem foldl_place_perm (number : α → Nat) (items : List α) (p : Placed α) :
    (items.foldl (place number) p).values.Perm (items ++ p.values) := by
  induction items generalizing p with
  | nil => exact List.Perm.refl _
  | cons x items ih =>
    exact (ih _).trans (((place_perm number p x).append_left items).trans List.perm_middle)

end Placed

theorem order_perm (number : α → Nat) (items : List α) : (order number items).Perm items := by
  have h := Placed.foldl_place_perm number items ⟨.replicate (slotCount items.length) none, []⟩
  have empty : (List.replicate (slotCount items.length) (none : Option α)).filterMap id = [] := by
    simp
  simpa [order, Placed.values, empty] using h

end StabsImport.Slots

import StabsImport.Proofs.Ledgers

/-!
# What will do for a type

An enumeration and a composite without members are compared by what they are, not by how they are
called, so whether a registered type will do for them is told by the two shapes. The registry hosts
such a shape where the first of its names in turn that leads to something that will do is found, and
it goes on to do so while what is registered stays.
-/

namespace StabsImport

/-- What is registered before anything else is done to it: an enumeration, no name of which stands
twice, or a composite without members. -/
def Shape.IsInitial : Shape → Prop
  | enumeration _ values => values.Distinct
  | composite c => c.components = []
  | _ => False

/-- A registered shape will do for an initial one. -/
def Shape.Serves : Shape → Shape → Prop
  | composite c, composite d => c.kind = d.kind ∧ (d.size = 0 ∨ d.size = c.size)
  | enumeration size values, enumeration size' values' =>
      size = size' ∧ Arena.sameValues values values' = true
  | _, _ => False

theorem Arena.sameValues_self {values : Ledger Json Int} (h : values.Distinct) :
    sameValues values values = true := by
  simp only [sameValues, beq_self_eq_true, Bool.true_and, List.all_eq_true, beq_iff_eq]
  exact fun e he => h.get?_of_mem he

theorem Shape.IsInitial.serves {shape : Shape} (h : shape.IsInitial) : shape.Serves shape := by
  cases shape with
  | composite => exact ⟨rfl, .inr rfl⟩
  | enumeration => exact ⟨rfl, Arena.sameValues_self h⟩
  | _ => exact h.elim

namespace Arena

variable {a b : Arena} {x y : TypeId} {shape : Shape}

def Serves (a : Arena) (shape : Shape) (x : TypeId) : Prop :=
  ∃ own shape', a.get? x = some (.named own shape') ∧ shape'.Serves shape

theorem serves_congr (h : b.get? x = a.get? x) : b.Serves shape x ↔ a.Serves shape x := by
  simp only [Serves, h]

theorem canReuse_initial {name : Json} (hy : a.get? y = some (.named name shape))
    (initial : shape.IsInitial) : a.canReuse x y = .ok true ↔ a.Serves shape x := by
  cases shape with
  | composite c =>
      obtain ⟨kind, size, components⟩ := c
      obtain rfl : components = [] := initial
      rw [canReuse_shell (composite?_eq_some.mpr ⟨name, hy⟩)]
      simp only [Admits, composite?_eq_some]
      constructor
      · rintro ⟨c, ⟨own, hx⟩, h⟩
        exact ⟨own, _, hx, h⟩
      · rintro ⟨own, shape', hx, h⟩
        cases shape' with
        | composite c => exact ⟨c, ⟨own, hx⟩, h⟩
        | _ => exact h.elim
  | enumeration size values =>
      constructor
      · intro h
        obtain ⟨own, values', hx, hv⟩ := canReuse_enumeration hy h
        exact ⟨own, _, hx, rfl, hv⟩
      · rintro ⟨own, shape', hx, h⟩
        cases shape' with
        | enumeration size' values' =>
            obtain ⟨rfl, hv⟩ := h
            have hc : a.composite? y = none := by simp [composite?, hy, TypeObject.composite?]
            simp only [canReuse, hc, isEquivalent, hx, hy, hv, beq_self_eq_true, Bool.and_self]
        | _ => exact h.elim
  | _ => exact initial.elim

end Arena

namespace Program

variable {p q : Program} {name : String} {shape : Shape} {m n : Nat} {x y : TypeId}

/-- A type that will do for the shape stands under the first of its names in turn that leads to
one. -/
structure Hosts (p : Program) (name : String) (shape : Shape) (n : Nat) (x : TypeId) : Prop where
  before : ∀ m < n, ∃ other, p.registry.get? (.text (nameInTurn name m)) = some other ∧
    ¬ p.arena.Serves shape other
  here : p.registry.get? (.text (nameInTurn name n)) = some x
  serves : p.arena.Serves shape x

namespace Hosts

theorem not_lt (h : p.Hosts name shape m x) (h' : p.Hosts name shape n y) : ¬ m < n := by
  intro hlt
  obtain ⟨other, ho, hserves⟩ := h'.before m hlt
  obtain rfl : x = other := Option.some.inj (h.here.symm.trans ho)
  exact hserves h.serves

theorem eq (h : p.Hosts name shape m x) (h' : p.Hosts name shape n y) : x = y := by
  obtain rfl : m = n :=
    Nat.le_antisymm (Nat.le_of_not_lt (h'.not_lt h)) (Nat.le_of_not_lt (h.not_lt h'))
  exact Option.some.inj (h.here.symm.trans h'.here)

/-- What stands stays, as long as the same will do. -/
theorem mono (h : p.Hosts name shape n x)
    (registry : ∀ {own y}, p.registry.get? own = some y → q.registry.get? own = some y)
    (serves : ∀ {own y}, p.registry.get? own = some y →
      (q.arena.Serves shape y ↔ p.arena.Serves shape y)) : q.Hosts name shape n x where
  before k hk := by
    obtain ⟨other, ho, hother⟩ := h.before k hk
    exact ⟨other, registry ho, fun hs => hother ((serves ho).mp hs)⟩
  here := registry h.here
  serves := (serves h.here).mpr h.serves

end Hosts

end Program

end StabsImport

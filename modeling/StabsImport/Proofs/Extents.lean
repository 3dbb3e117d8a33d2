import StabsImport.Import.Types
import StabsImport.Proofs.Arena
import StabsImport.Proofs.Nodes

/-!
# Extents and members

How much room a type takes up can be told from the document alone, as long as every structure and
union of the table has the size it declares. So can what a member does to the composite it is
placed in.
-/

namespace StabsImport

/-- What of a type decides how a member of it is placed. -/
inductive Extent where
  | void
  | plain (length : Int)
  | composite (size : Int)
  deriving DecidableEq, Repr

namespace Extent

def length : Extent → Int
  | void => 0
  | plain n => n
  | composite size => if size > 0 then size else 1

def isEmpty : Extent → Bool
  | void => true
  | plain n => n ≤ 0
  | composite size => size ≤ 0

/-- The extent of what takes the place of a type without a length. -/
def sized (e : Extent) : Extent := if e.length ≤ 0 then plain 1 else e

/-- The extent of what takes the place of void. -/
def solid (e : Extent) : Extent := if e = void then plain 1 else e

theorem length_sized_pos (e : Extent) : 0 < e.sized.length := by
  unfold sized
  split
  · decide
  · next h => exact Int.not_le.mp h

end Extent

/-! ## Extents of types -/

/-- The extent of a type that is not made of another. -/
def Shape.extent : Shape → Extent
  | void => .void
  | undefined size | builtIn size .. | enumeration size _ => .plain size
  | signature .. => .plain 1
  | composite c => .composite c.size

namespace Arena

/-- The extent of a type as it stands. -/
def extent (a : Arena) (id : TypeId) : Extent :=
  match a.get? id with
  | some (.named _ shape) => shape.extent
  | _ => .plain (a.length id)

variable {a : Arena} {id : TypeId}

theorem extent_named {name : Json} {shape : Shape} (h : a.get? id = some (.named name shape)) :
    a.extent id = shape.extent := by
  simp only [extent, h]

theorem extent_pointer {target : TypeId} {size : Int}
    (h : a.get? id = some (.pointer target size)) : a.extent id = .plain size := by
  simp only [extent, h, length, lengthWithin]

theorem extent_array {element : TypeId} {count : Int}
    (h : a.get? id = some (.array element count)) : a.extent id = .plain (a.length id) := by
  simp only [extent, h]

theorem length_extent (a : Arena) (id : TypeId) : (a.extent id).length = a.length id := by
  cases h : a.get? id with
  | none => simp only [extent, h, Extent.length]
  | some t =>
      cases t with
      | named name shape =>
          simp only [extent, h, length, lengthWithin]
          cases shape <;> rfl
      | _ => simp only [extent, h, Extent.length]

theorem isEmpty_extent (a : Arena) (id : TypeId) : (a.extent id).isEmpty = a.isZeroLength id := by
  have plain (hc : a.composite? id = none) : a.isZeroLength id = decide (a.length id ≤ 0) := by
    simp only [isZeroLength, hc]
  cases h : a.get? id with
  | none =>
      rw [plain (by simp [composite?, h])]
      simp only [extent, h, Extent.isEmpty]
  | some t =>
      cases t with
      | named name shape =>
          cases shape with
          | composite c =>
              have hc : a.composite? id = some c := composite?_eq_some.mpr ⟨name, h⟩
              simp only [extent_named h, isZeroLength, hc, Shape.extent, Extent.isEmpty]
          | _ =>
              rw [plain (by simp [composite?, h, TypeObject.composite?])]
              simp [← length_extent, extent_named h, Shape.extent, Extent.isEmpty, Extent.length]
      | _ =>
          rw [plain (by simp [composite?, h, TypeObject.composite?])]
          simp only [extent, h, Extent.isEmpty]

end Arena

end StabsImport

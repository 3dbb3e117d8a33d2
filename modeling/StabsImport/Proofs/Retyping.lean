import StabsImport.Proofs.Refilling

/-!
# Members of other types

Where a member goes in a composite, and what it displaces there, does not go by its type. So members
put into a composite stand there as others of other types would, and all the members that were put
into an empty composite may be put there again.
-/

namespace StabsImport

namespace Component

/-- The component with another type. -/
def retyped (f : TypeId → TypeId) (m : Component) : Component := { m with type := f m.type }

/-- The component takes up room, and its name equals itself. -/
structure IsProper (m : Component) : Prop where
  long : 0 < m.length
  named : m.name.isNan = false

end Component

namespace Composite

variable {c : Composite} {m : Component} {ms : List Component}

def retyped (f : TypeId → TypeId) (c : Composite) : Composite :=
  { c with components := c.components.map (·.retyped f) }

/-- A member is put into a composite, in the way of its kind. -/
def put (c : Composite) (m : Component) : Composite :=
  match c.kind with
  | .record => c.settle m
  | .union => c.joinAll [m]

def putAll (c : Composite) (ms : List Component) : Composite := ms.foldl put c

theorem put_of_record (h : c.kind = .record) (m : Component) : c.put m = c.settle m := by
  rw [put, h]

theorem put_of_union (h : c.kind = .union) (m : Component) : c.put m = c.joinAll [m] := by
  rw [put, h]

theorem kind_put (c : Composite) (m : Component) : (c.put m).kind = c.kind := by
  unfold put
  split <;> rfl

theorem size_put (c : Composite) (m : Component) : (c.put m).size = max c.size m.stop := by
  unfold put
  split <;> rfl

theorem mem_put {d : Component} (h : d ∈ (c.put m).components) : d = m ∨ d ∈ c.components := by
  unfold put at h
  split at h
  · exact (mem_insertSorted h).imp_right fun h => (List.mem_filter.mp h).1
  · rcases List.mem_append.mp h with h | h
    · exact .inr (List.mem_filter.mp h).1
    · exact .inl (List.mem_singleton.mp h)

theorem putAll_append (c : Composite) (ms ns : List Component) :
    c.putAll (ms ++ ns) = (c.putAll ms).putAll ns := List.foldl_append

theorem kind_putAll (c : Composite) (ms : List Component) : (c.putAll ms).kind = c.kind := by
  induction ms generalizing c with
  | nil => rfl
  | cons m ms ih => exact (ih (c.put m)).trans (kind_put c m)

theorem putAll_of_record (h : c.kind = .record) (ms : List Component) :
    c.putAll ms = c.settleAll ms := by
  induction ms generalizing c with
  | nil => rfl
  | cons m ms ih =>
      have first := put_of_record h m
      show (c.put m).putAll ms = _
      rw [first, ih (first ▸ (kind_put c m).trans h)]
      rfl

theorem putAll_of_union (h : c.kind = .union) (ms : List Component) :
    c.putAll ms = c.joinAll ms := by
  induction ms generalizing c with
  | nil => rfl
  | cons m ms ih =>
      have first := put_of_union h m
      show (c.put m).putAll ms = _
      rw [first, ih (first ▸ (kind_put c m).trans h), ← joinAll_append]
      rfl

/-- Members put into a composite that had none may be put there again. -/
theorem putAll_again (bare : c.components = []) (proper : ∀ m ∈ ms, m.IsProper) :
    (c.putAll ms).putAll ms = c.putAll ms := by
  cases hkind : c.kind with
  | record =>
      have ranked : c.Ranked := ⟨by rw [bare]; exact .nil, by rw [bare]; exact nofun⟩
      rw [putAll_of_record ((kind_putAll c ms).trans hkind), putAll_of_record hkind,
        settleAll_again ranked fun m hm => (proper m hm).long]
  | union =>
      rw [putAll_of_union ((kind_putAll c ms).trans hkind), putAll_of_union hkind,
        joinAll_again fun m hm => (proper m hm).named]

/-- A placement in composites of a kind puts the member there under whichever type, or it is refused,
whatever the type and the composite are. -/
def IsPutting (kind : CompositeKind) (m : Component)
    (place : TypeId → Composite → Except Rejection Composite) : Prop :=
  ∃ check : Except Rejection Unit, (check = .ok () → 0 < m.length) ∧
    ∀ (type : TypeId) (c : Composite), c.kind = kind →
      place type c = check.map fun _ => c.put { m with type }

theorem isPutting_placeMember (offset : Int) (type : TypeId) (length : Int) (name : Json) :
    IsPutting .record { offset, type, length, name }
      fun type c => c.placeMember offset type length name := by
  by_cases ho : offset < 0
  · exact ⟨.error _, nofun, fun _ _ _ => if_pos ho⟩
  by_cases hl : length ≤ 0
  · exact ⟨.error _, nofun, fun _ _ _ => (if_neg ho).trans (if_pos hl)⟩
  · refine ⟨.ok (), fun _ => Int.not_le.mp hl, fun type c hkind => ?_⟩
    refine ((if_neg ho).trans (if_neg hl)).trans ?_
    rw [put_of_record hkind]
    rfl

theorem isPutting_placeBits (offset width bitOffset : Int) (type : TypeId) (bitSize : Int)
    (name : Json) : IsPutting .record { offset, type, length := width, name, bitSize, bitOffset }
      fun type c => c.placeBits offset width bitOffset type bitSize name := by
  by_cases hw : (decide (bitSize ≤ 0) || decide (width ≤ 0)) = true
  · exact ⟨.error _, nofun, fun _ _ _ => if_pos hw⟩
  · obtain ⟨hbits, hwidth⟩ : 0 < bitSize ∧ 0 < width := by simpa using hw
    refine ⟨.ok (), fun _ => hwidth, fun type c hkind => (if_neg hw).trans ?_⟩
    have isBits : decide (bitSize > 0) = true := decide_eq_true hbits
    rw [put_of_record hkind]
    simp only [settle, Component.displaces, Component.isBitField, isBits, if_true]
    rfl

theorem isPutting_addAlternative (type : TypeId) (length : Int) {name : Json} (given : name ≠ .null) :
    IsPutting .union { offset := 0, type, length, name }
      fun type c => c.addAlternative type length name := by
  by_cases hl : length ≤ 0
  · exact ⟨.error _, nofun, fun _ _ _ => if_pos hl⟩
  · refine ⟨.ok (), fun _ => Int.not_le.mp hl, fun type c hkind => (if_neg hl).trans ?_⟩
    rw [if_neg given, put_of_union hkind]
    simp only [joinAll, List.map_cons, List.map_nil, List.foldl_cons, List.foldl_nil,
      Component.stop, Int.zero_add]
    rfl

/-! ## Other types -/

variable {f : TypeId → TypeId}

theorem insertSorted_retyped (m : Component) (ms : List Component) :
    (insertSorted m ms).map (·.retyped f) =
      insertSorted (m.retyped f) (ms.map (·.retyped f)) := by
  induction ms with
  | nil => rfl
  | cons d rest ih =>
      have same : comesBefore (m.retyped f) (d.retyped f) = comesBefore m d := rfl
      rw [List.map_cons, insertSorted, insertSorted, same]
      split
      · rfl
      · rw [List.map_cons, ih]

theorem filter_retyped {p : Component → Bool} (hp : ∀ d, p (d.retyped f) = p d)
    (ms : List Component) : (ms.filter p).map (·.retyped f) = (ms.map (·.retyped f)).filter p := by
  rw [List.filter_map]
  congr 1
  exact List.filter_congr fun d _ => (hp d).symm

theorem put_retyped (c : Composite) (m : Component) :
    (c.put m).retyped f = (c.retyped f).put (m.retyped f) := by
  have kind : (c.retyped f).kind = c.kind := rfl
  unfold put
  rw [kind]
  split
  · have components : ((c.settle m).retyped f).components =
        ((c.retyped f).settle (m.retyped f)).components := by
      refine (insertSorted_retyped m _).trans ?_
      rw [filter_retyped fun _ => rfl]
      rfl
    exact congrArg (Composite.mk c.kind (max c.size m.stop)) components
  · have components : ((c.joinAll [m]).retyped f).components =
        ((c.retyped f).joinAll [m.retyped f]).components := by
      refine List.map_append.trans ?_
      rw [filter_retyped fun _ => rfl]
      rfl
    exact congrArg (Composite.mk c.kind (max c.size m.stop)) components

theorem putAll_retyped (c : Composite) (ms : List Component) :
    (c.putAll ms).retyped f = (c.retyped f).putAll (ms.map (·.retyped f)) := by
  induction ms generalizing c with
  | nil => rfl
  | cons m ms ih =>
      show ((c.put m).putAll ms).retyped f = _
      rw [ih, put_retyped]
      rfl

end Composite

end StabsImport

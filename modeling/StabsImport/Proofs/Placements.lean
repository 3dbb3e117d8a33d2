import StabsImport.Proofs.Arena

/-!
# Placements

What putting a member into a composite may do to it. Whichever way the member is put, the composite
keeps its kind, does not shrink, and takes on no type but the member's.
-/

namespace StabsImport

/-- What placing a member of a type may do to a composite, and why it may be refused. -/
structure IsPlacement (type : TypeId) (f : Composite → Except Rejection Composite) : Prop where
  kind : ∀ {c c'}, f c = .ok c' → c'.kind = c.kind
  size : ∀ {c c'}, f c = .ok c' → c.size ≤ c'.size
  components : ∀ {c c'}, f c = .ok c' → ∀ m ∈ c'.components, m ∈ c.components ∨ m.type = type
  refusal : ∀ {c cause}, f c = .error cause → cause.category = .invalidInput

/-- What becomes of a composite in which something was placed, or refused. -/
def Composite.orElse (c : Composite) : Except Rejection Composite → Composite
  | .ok c' => c'
  | .error _ => c

theorem Composite.insertSorted_perm (c : Component) (cs : List Component) :
    (insertSorted c cs).Perm (c :: cs) := by
  induction cs with
  | nil => exact .refl _
  | cons d rest ih =>
      simp only [insertSorted]
      split
      · exact .refl _
      · exact (ih.cons d).trans (.swap c d rest)

theorem mem_insertSorted {m c : Component} {cs : List Component}
    (h : m ∈ Composite.insertSorted c cs) : m = c ∨ m ∈ cs :=
  List.mem_cons.mp ((Composite.insertSorted_perm c cs).mem_iff.mp h)

theorem isPlacement_insert {type : TypeId} {f : Composite → Except Rejection Composite}
    (keep : Component → Bool) (new : Component) (hnew : new.type = type)
    (ok : ∀ {c c'}, f c = .ok c' →
      c' = Composite.insert { c with components := c.components.filter keep } new)
    (refusal : ∀ {c cause}, f c = .error cause → cause.category = .invalidInput) :
    IsPlacement type f where
  kind h := by rw [ok h]; rfl
  size {c c'} h := by
    rw [ok h]
    exact Composite.size_le_size_insert { c with components := c.components.filter keep } new
  components h m hm := by
    rw [ok h] at hm
    rcases mem_insertSorted hm with rfl | hm
    · exact .inr hnew
    · exact .inl (List.mem_filter.mp hm).1
  refusal := refusal

theorem isPlacement_placeMember (offset : Int) (type : TypeId) (length : Int) (name : Json) :
    IsPlacement type (·.placeMember offset type length name) := by
  refine isPlacement_insert (fun c => !Composite.overlaps offset length c)
    { offset, type, length, name } rfl ?_ ?_
  · intro c c' h
    simp only [Composite.placeMember] at h
    split at h
    · cases h
    · split at h <;> cases h
      rfl
  · intro c cause h
    simp only [Composite.placeMember] at h
    split at h
    · cases h
      rfl
    · split at h <;> cases h
      rfl

theorem isPlacement_placeBits (offset width bitOffset : Int) (type : TypeId) (bitSize : Int)
    (name : Json) : IsPlacement type (·.placeBits offset width bitOffset type bitSize name) := by
  refine isPlacement_insert (fun c => !Composite.startsAtBit offset bitOffset c)
    { offset, type, length := width, name, bitSize, bitOffset } rfl ?_ ?_
  · intro c c' h
    simp only [Composite.placeBits] at h
    split at h <;> cases h
    rfl
  · intro c cause h
    simp only [Composite.placeBits] at h
    split at h <;> cases h
    rfl

theorem isPlacement_addAlternative (type : TypeId) (length : Int) (name : Json) :
    IsPlacement type (·.addAlternative type length name) where
  kind {c c'} h := by
    simp only [Composite.addAlternative] at h
    split at h <;> cases h
    rfl
  size {c c'} h := by
    simp only [Composite.addAlternative] at h
    split at h <;> cases h
    exact Int.le_max_left _ _
  components {c c'} h m hm := by
    simp only [Composite.addAlternative] at h
    split at h <;> cases h
    rcases List.mem_append.mp hm with hm | hm
    · split at hm
      · exact .inl hm
      · exact .inl (List.mem_filter.mp hm).1
    · cases List.mem_singleton.mp hm
      exact .inr rfl
  refusal {c cause} h := by
    simp only [Composite.addAlternative] at h
    split at h <;> cases h
    rfl

end StabsImport

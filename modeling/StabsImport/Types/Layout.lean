import StabsImport.Types.Object

/-!
# Layout of composites

Placing a member of a structure displaces the components whose bytes it overlaps, placing a bit
field only a bit field that starts at the same bit. The members of a union all start at zero, and
a later one of the same name takes the place of an earlier one. No placement makes a composite
smaller.
-/

namespace StabsImport.Composite

def empty (kind : CompositeKind) (size : Int) : Composite := ⟨kind, size, []⟩

/-- Components stand in order of offset, then of bit offset. -/
def comesBefore (c d : Component) : Bool :=
  c.offset < d.offset || (c.offset == d.offset && c.bitOffset < d.bitOffset)

/-- After all components that do not come later. -/
def insertSorted (c : Component) : List Component → List Component
  | [] => [c]
  | d :: rest => if comesBefore c d then c :: d :: rest else d :: insertSorted c rest

def insert (s : Composite) (c : Component) : Composite :=
  { s with components := insertSorted c s.components, size := max s.size c.stop }

def overlaps (offset length : Int) (c : Component) : Bool :=
  !(c.stop ≤ offset || c.offset ≥ offset + length)

def placeMember (s : Composite) (offset : Int) (type : TypeId) (length : Int)
    (name : Json) : Except Rejection Composite :=
  if offset < 0 then .error (.negativeOffset offset)
  else if length ≤ 0 then .error (.fieldWithoutSize name.plain)
  else
    let kept := s.components.filter fun c => !overlaps offset length c
    .ok ({ s with components := kept }.insert { offset, type, length, name })

def startsAtBit (offset bitOffset : Int) (c : Component) : Bool :=
  c.isBitField && c.offset == offset && c.bitOffset == bitOffset

def placeBits (s : Composite) (offset width bitOffset : Int) (type : TypeId) (bitSize : Int)
    (name : Json) : Except Rejection Composite :=
  if bitSize ≤ 0 || width ≤ 0 then .error (.badBitField name.plain)
  else
    let kept := s.components.filter fun c => !startsAtBit offset bitOffset c
    .ok ({ s with components := kept }.insert
      { offset, type, length := width, name, bitSize, bitOffset })

def addAlternative (s : Composite) (type : TypeId) (length : Int) (name : Json) :
    Except Rejection Composite :=
  if length ≤ 0 then .error (.fieldWithoutSize name.plain)
  else
    let kept :=
      if name = .null then s.components else s.components.filter fun c => !c.name.isEqual name
    .ok { s with components := kept ++ [{ offset := 0, type, length, name }]
                 size := max s.size length }

/-- The size is at least what the member placed needs. -/
theorem stop_le_size_insert (s : Composite) (c : Component) : c.stop ≤ (s.insert c).size := by
  simp only [insert]; omega

theorem size_le_size_insert (s : Composite) (c : Component) : s.size ≤ (s.insert c).size := by
  simp only [insert]; omega

end StabsImport.Composite

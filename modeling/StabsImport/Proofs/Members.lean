import StabsImport.Proofs.Extents
import StabsImport.Proofs.Placements

/-!
# Members of composites

What a structure or union is made of, told from its node alone: which of its members have types at
all, how much room each takes up, and what placing it does to the members before it.
-/

namespace StabsImport

open Document (Node Base Variable)

namespace Document.Node

/-- Whether the node describes a type that can be made. Members and parameters that cannot be are
left out or replaced, so only what a type cannot do without counts. -/
def isBuildable (pointerSize : Int) : Node → Bool
  | pointer _ _ target => target.isBuildable pointerSize
  | array _ element count => element.isBuildable pointerSize && 0 ≤ count
  | bitField _ _ underlying => underlying.isBuildable pointerSize
  | memberPointer .. => 1 ≤ pointerSize
  | functionType ⟨_, some returnType, _, _, _, _⟩ => returnType.isBuildable pointerSize
  | variable_ _ | functionDefinition _ | sourceFile _ => false
  | _ => true

mutual

/-- The numbers under which types are kept for a node and what stands in it. -/
def serials : Node → List Nat
  | array _ element _ => element.serials
  | bitField _ _ underlying => underlying.serials
  | composite c isRecord bases fields _ =>
      c.serial :: (if isRecord then serialsOfBases bases else []) ++ serialsOfNodes fields
  | enumeration c _ => [c.serial]
  | pointer _ _ target => target.serials
  | functionType ⟨c, returnType, parameters, _, _, _⟩ =>
      c.serial :: serialsOfOption returnType ++ serialsOfParameters parameters
  | _ => []

def serialsOfOption : Option Node → List Nat
  | some n => n.serials
  | none => []

def serialsOfParameters : Option (List Variable) → List Nat
  | some vs => serialsOfVariables vs
  | none => []

def serialsOfNodes : List Node → List Nat
  | [] => []
  | n :: rest => n.serials ++ serialsOfNodes rest

def serialsOfBases : List Base → List Nat
  | [] => []
  | ⟨_, _, _, type⟩ :: rest => type.serials ++ serialsOfBases rest

def serialsOfVariables : List Variable → List Nat
  | [] => []
  | ⟨_, _, _, type⟩ :: rest => type.serials ++ serialsOfVariables rest

end

/-- The extent of a structure, union or enumeration as it is declared. -/
def declaredExtent : Node → Extent
  | composite c .. => .composite (Import.declaredBytes c.sizeBits)
  | _ => .plain Import.enumerationSize

end Document.Node

namespace Import

/-- A member as a node gives it, with its number among its like. -/
inductive Member where
  | base (index : Nat) (offset : Int) (type : Node)
  | bits (index : Nat) (common : Document.Common) (offsetBits : Int) (underlying : Node)
  | field (index : Nat) (node : Node)

def fieldMember (index : Nat) : Node → Member
  | .bitField c offsetBits underlying => .bits index c offsetBits underlying
  | node => .field index node

def baseMembers : Nat → List Base → List Member
  | _, [] => []
  | index, b :: rest => .base index b.offset b.type :: baseMembers (index + 1) rest

def fieldMembers : Nat → List Node → List Member
  | _, [] => []
  | index, f :: rest => fieldMember index f :: fieldMembers (index + 1) rest

/-- A union takes no base classes. -/
def membersOf (isRecord : Bool) (bases : List Base) (fields : List Node) : List Member :=
  (if isRecord then baseMembers 0 bases else []) ++ fieldMembers 0 fields

def kindOf (isRecord : Bool) : CompositeKind := if isRecord then .record else .union

namespace Member

/-- The node that gives the type of the member. -/
def node : Member → Node
  | base _ _ type => type
  | bits _ _ _ underlying => underlying
  | field _ node => node

def name : Member → Json
  | base index .. => .text s!"base_{index}"
  | bits index c offsetBits underlying => fieldName (.bitField c offsetBits underlying) index
  | field index node => fieldName node index

/-- The name for a member type without one. -/
def hint (owner : Json) : Member → Json
  | field index node => .text s!"{owner.plain}__{(fieldName node index).plain}"
  | _ => .null

/-- The extent of what is placed for a member, where its type has this one. -/
def placed (e : Extent) : Member → Extent
  | base .. => e
  | bits .. => e.sized
  | field .. => e.solid

/-- The length a member takes up, where what is placed has this extent. -/
def length (e : Extent) : Member → Int
  | field _ node => if e.isEmpty && node.sizeBits > 0 then node.sizeBits / 8 else e.length
  | _ => e.length

/-- Where the member stands in a structure. -/
def offset : Member → Int
  | base _ offset _ => offset
  | bits _ c .. => max c.relativeOffset 0
  | field _ node => max node.relativeOffset 0

/-- Places a type of this extent for the member. -/
def place? (c : Composite) (type : TypeId) (e : Extent) (m : Member) :
    Except Rejection Composite :=
  match c.kind, m with
  | .record, bits _ common offsetBits _ =>
      c.placeBits m.offset (m.length e) offsetBits type common.sizeBits m.name
  | .record, _ => c.placeMember m.offset type (m.length e) m.name
  | .union, _ => c.addAlternative type (m.length e) m.name

/-- What the composite is after the member was placed, or refused. -/
def place (c : Composite) (type : TypeId) (e : Extent) (m : Member) : Composite :=
  match m.place? c type e with
  | .ok c' => c'
  | .error _ => c

/-- The size a composite must have to hold the member; one that is refused needs none. -/
def needs (kind : CompositeKind) (e : Extent) (m : Member) : Int :=
  if m.length e ≤ 0 then 0
  else
    match kind, m with
    | .union, _ => m.length e
    | .record, bits _ common .. => if common.sizeBits ≤ 0 then 0 else m.offset + m.length e
    | .record, _ => if m.offset < 0 then 0 else m.offset + m.length e

theorem place_kind (c : Composite) (type : TypeId) (e : Extent) (m : Member) :
    (m.place c type e).kind = c.kind := by
  unfold place
  cases h : m.place? c type e with
  | error _ => rfl
  | ok c' =>
      simp only [place?] at h
      split at h
      · exact (isPlacement_placeBits _ _ _ type _ _).kind h
      · exact (isPlacement_placeMember _ type _ _).kind h
      · exact (isPlacement_addAlternative type _ _).kind h

/-- A member is refused, and then needs no room, or the composite grows to what it needs. -/
theorem place?_cases (c : Composite) (type : TypeId) (e : Extent) (m : Member) :
    (∃ cause, m.place? c type e = .error cause ∧ m.needs c.kind e = 0) ∨
      ∃ c', m.place? c type e = .ok c' ∧ c'.size = max c.size (m.needs c.kind e) := by
  have member (offset : Int) (name : Json) :
      (∃ cause, c.placeMember offset type (m.length e) name = .error cause ∧
          (if m.length e ≤ 0 then 0 else if offset < 0 then 0 else offset + m.length e) = 0) ∨
        ∃ c', c.placeMember offset type (m.length e) name = .ok c' ∧ c'.size = max c.size
          (if m.length e ≤ 0 then 0 else if offset < 0 then 0 else offset + m.length e) := by
    unfold Composite.placeMember
    by_cases ho : offset < 0
    · exact .inl ⟨_, if_pos ho, by simp [ho]⟩
    · by_cases hl : m.length e ≤ 0
      · exact .inl ⟨_, by rw [if_neg ho, if_pos hl], if_pos hl⟩
      · refine .inr ⟨_, by rw [if_neg ho, if_neg hl], ?_⟩
        rw [if_neg hl, if_neg ho]
        rfl
  unfold place? needs
  cases c.kind with
  | union =>
      by_cases hl : m.length e ≤ 0
      · exact .inl ⟨_, if_pos hl, if_pos hl⟩
      · rw [if_neg hl]
        exact .inr ⟨_, if_neg hl, rfl⟩
  | record =>
      cases m with
      | bits index common offsetBits underlying =>
          simp only [Composite.placeBits, Bool.or_eq_true, decide_eq_true_eq]
          by_cases hl : (bits index common offsetBits underlying).length e ≤ 0
          · exact .inl ⟨_, if_pos (.inr hl), if_pos hl⟩
          · by_cases hs : common.sizeBits ≤ 0
            · refine .inl ⟨_, if_pos (.inl hs), ?_⟩
              rw [if_neg hl, if_pos hs]
            · refine .inr ⟨_, if_neg (not_or.mpr ⟨hs, hl⟩), ?_⟩
              rw [if_neg hl, if_neg hs]
              rfl
      | base index offset type' => exact member offset _
      | field index node => exact member (max node.relativeOffset 0) _

theorem place_size {c : Composite} (hc : 0 ≤ c.size) (type : TypeId) (e : Extent) (m : Member) :
    (m.place c type e).size = max c.size (m.needs c.kind e) := by
  unfold place
  rcases m.place?_cases c type e with ⟨_, h, hn⟩ | ⟨c', h, hs⟩
  · rw [h, hn]
    exact (Int.max_eq_left hc).symm
  · rw [h]
    exact hs

end Member

theorem node_of_mem_baseMembers {index : Nat} {bases : List Base} {m : Member}
    (h : m ∈ baseMembers index bases) : ∃ b ∈ bases, m.node = b.type := by
  induction bases generalizing index with
  | nil => cases h
  | cons b rest ih =>
      rcases List.mem_cons.mp h with rfl | h
      · exact ⟨b, List.mem_cons_self, rfl⟩
      · obtain ⟨b', hb, he⟩ := ih h
        exact ⟨b', List.mem_cons_of_mem _ hb, he⟩

theorem node_of_mem_fieldMembers {index : Nat} {fields : List Node} {m : Member}
    (h : m ∈ fieldMembers index fields) : ∃ f ∈ fields, m.node = f ∨ m.node ∈ f.parts := by
  induction fields generalizing index with
  | nil => cases h
  | cons f rest ih =>
      rcases List.mem_cons.mp h with rfl | h
      · refine ⟨f, List.mem_cons_self, ?_⟩
        cases f with
        | bitField c offsetBits underlying => exact .inr (List.mem_singleton_self underlying)
        | _ => exact .inl rfl
      · obtain ⟨f', hf, he⟩ := ih h
        exact ⟨f', List.mem_cons_of_mem _ hf, he⟩

/-- The node that gives the type of a member stands in that of the composite. -/
theorem within_of_mem_membersOf {c : Document.Common} {isRecord : Bool} {bases : List Base}
    {fields members : List Node} {m : Member} (h : m ∈ membersOf isRecord bases fields) :
    Node.Within m.node (.composite c isRecord bases fields members) := by
  rcases List.mem_append.mp h with h | h
  · cases isRecord with
    | false => cases h
    | true =>
        obtain ⟨b, hb, he⟩ := node_of_mem_baseMembers h
        exact .part (Node.mem_parts_of_mem_bases hb) (he ▸ .self)
  · obtain ⟨f, hf, he | he⟩ := node_of_mem_fieldMembers h
    · exact .part (Node.mem_parts_of_mem_fields hf) (he ▸ .self)
    · exact .part (Node.mem_parts_of_mem_fields hf) (.part he .self)

end Import

end StabsImport

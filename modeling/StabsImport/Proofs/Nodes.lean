import StabsImport.Document.Node

/-!
# Nodes and what they are made of

The parts of a node are the nodes its type is made of. What a node refers to stands in it or in
some part of a part; entries of the table are not parts.
-/

namespace StabsImport

/-- A document value that can be a name: a text or nothing. -/
def Json.IsName (v : Json) : Prop := v = .null ∨ ∃ s, v = .text s

theorem Json.IsName.isKey {v : Json} (h : v.IsName) : v.isKey = true := by
  rcases h with rfl | ⟨s, rfl⟩ <;> rfl

namespace Document

namespace Node

/-- A union takes no base classes. -/
def parts : Node → List Node
  | array _ element _ => [element]
  | bitField _ _ underlying => [underlying]
  | composite _ isRecord bases fields _ => (if isRecord then bases.map (·.type) else []) ++ fields
  | pointer _ _ target => [target]
  | functionType f => f.returnType.toList ++ (f.parameters.getD []).map (·.type)
  | _ => []

mutual

/-- How many nodes stand inside one another, leaves not counted. -/
def height : Node → Nat
  | array _ element _ => element.height + 1
  | bitField _ _ underlying => underlying.height + 1
  | composite _ _ bases fields _ => max (heightOfBases bases) (heightOfNodes fields) + 1
  | pointer _ _ target => target.height + 1
  | functionType ⟨_, returnType, parameters, _, _, _⟩ =>
      max (heightOfOptional returnType) (heightOfParameters parameters) + 1
  | _ => 0

def heightOfOptional : Option Node → Nat
  | some n => n.height
  | none => 0

def heightOfParameters : Option (List Variable) → Nat
  | some vs => heightOfVariables vs
  | none => 0

def heightOfNodes : List Node → Nat
  | [] => 0
  | n :: rest => max n.height (heightOfNodes rest)

def heightOfBases : List Base → Nat
  | [] => 0
  | ⟨_, _, _, type⟩ :: rest => max type.height (heightOfBases rest)

def heightOfVariables : List Variable → Nat
  | [] => 0
  | ⟨_, _, _, type⟩ :: rest => max type.height (heightOfVariables rest)

end

theorem height_le_heightOfNodes {n : Node} {ns : List Node} (h : n ∈ ns) :
    n.height ≤ heightOfNodes ns := by
  induction h with
  | head => exact Nat.le_max_left _ _
  | tail _ _ ih => exact Nat.le_trans ih (Nat.le_max_right _ _)

theorem height_le_heightOfBases {b : Base} {bs : List Base} (h : b ∈ bs) :
    b.type.height ≤ heightOfBases bs := by
  induction h with
  | head => exact Nat.le_max_left _ _
  | tail _ _ ih => exact Nat.le_trans ih (Nat.le_max_right _ _)

theorem height_le_heightOfVariables {v : Variable} {vs : List Variable} (h : v ∈ vs) :
    v.type.height ≤ heightOfVariables vs := by
  induction h with
  | head => exact Nat.le_max_left _ _
  | tail _ _ ih => exact Nat.le_trans ih (Nat.le_max_right _ _)

theorem height_lt_of_mem_parts {m n : Node} (h : m ∈ n.parts) : m.height < n.height := by
  cases n with
  | array c e k => simp only [parts, List.mem_singleton] at h; subst h; simp [height]
  | bitField c o u => simp only [parts, List.mem_singleton] at h; subst h; simp [height]
  | pointer c p t => simp only [parts, List.mem_singleton] at h; subst h; simp [height]
  | composite c r bases fields mf =>
      simp only [parts, List.mem_append] at h
      simp only [height]
      rcases h with h | h
      · split at h
        · obtain ⟨b, hb, rfl⟩ := List.mem_map.mp h
          have := height_le_heightOfBases hb
          omega
        · cases h
      · have := height_le_heightOfNodes h
        omega
  | functionType f =>
      obtain ⟨c, returnType, parameters, mod, ctor, vt⟩ := f
      simp only [parts, List.mem_append, Option.mem_toList] at h
      simp only [height]
      rcases h with rfl | h
      · exact Nat.lt_succ_of_le (Nat.le_max_left _ _)
      · obtain ⟨v, hv, rfl⟩ := List.mem_map.mp h
        cases parameters with
        | none => cases hv
        | some vs =>
            exact Nat.lt_succ_of_le
              (Nat.le_trans (height_le_heightOfVariables hv) (Nat.le_max_right _ _))
  | _ => cases h

theorem mem_parts_of_mem_fields {c : Common} {isRecord : Bool} {bases : List Base}
    {fields members : List Node} {n : Node} (h : n ∈ fields) :
    n ∈ (composite c isRecord bases fields members).parts :=
  List.mem_append_right _ h

theorem mem_parts_of_mem_bases {c : Common} {bases : List Base} {fields members : List Node}
    {b : Base} (h : b ∈ bases) : b.type ∈ (composite c true bases fields members).parts :=
  List.mem_append_left _ (List.mem_map_of_mem h)

/-- Structures, unions and enumerations are the types that a program registers. -/
def isNominal : Node → Bool
  | enumeration .. | composite .. => true
  | _ => false

/-- A node stands in another if it is that one or stands in a part of it. -/
inductive Within (m : Node) : Node → Prop where
  | self : Within m m
  | part {k n : Node} (h : k ∈ n.parts) (within : Within m k) : Within m n

/-- The node gives a reference, in it or in some part of it. -/
def RefersTo (n : Node) (r : TypeReference) : Prop := ∃ c, Within (.typeName c r) n

theorem refersTo_typeName (c : Common) (r : TypeReference) : (typeName c r).RefersTo r :=
  ⟨c, .self⟩

theorem RefersTo.of_part {n k : Node} {r : TypeReference} (h : k ∈ n.parts) :
    k.RefersTo r → n.RefersTo r
  | ⟨c, hc⟩ => ⟨c, .part h hc⟩

theorem Within.trans {l m n : Node} (h : Within l m) (h' : Within m n) : Within l n := by
  induction h' with
  | self => exact h
  | part hk _ ih => exact .part hk ih

/-- References give names only, and no type numbers. -/
def RefersByName (n : Node) : Prop := ∀ r, n.RefersTo r → r.number = none

theorem RefersByName.within {m n : Node} (h : n.RefersByName) (hm : Within m n) :
    m.RefersByName := fun r ⟨c, hc⟩ => h r ⟨c, hc.trans hm⟩

theorem RefersByName.part {n k : Node} (h : n.RefersByName) (hk : k ∈ n.parts) :
    k.RefersByName := h.within (.part hk .self)

theorem refersByName_iff {n : Node} : n.RefersByName ↔
    (∀ c r, n = .typeName c r → r.number = none) ∧ ∀ k ∈ n.parts, k.RefersByName := by
  refine ⟨fun h => ⟨fun c r he => h r ⟨c, he ▸ .self⟩, fun k hk => h.part hk⟩, ?_⟩
  rintro ⟨hself, hparts⟩ r ⟨c, hc⟩
  cases hc with
  | self => exact hself c r rfl
  | part hk hc => exact hparts _ hk r ⟨c, hc⟩

theorem refersByName_typeName {c : Common} {r : TypeReference} (h : r.number = none) :
    (typeName c r).RefersByName :=
  refersByName_iff.mpr ⟨fun _ _ he => by cases he; exact h, nofun⟩

theorem refersByName_builtIn (c : Common) (b : BuiltInClass) : (builtIn c b).RefersByName :=
  refersByName_iff.mpr ⟨nofun, nofun⟩

theorem refersByName_pointer (c : Common) (isPointer : Bool) {target : Node}
    (h : target.RefersByName) : (pointer c isPointer target).RefersByName :=
  refersByName_iff.mpr ⟨nofun, fun k hk => by rw [List.mem_singleton.mp hk]; exact h⟩

theorem refersByName_composite (c : Common) (isRecord : Bool) {fields : List Node}
    (h : ∀ f ∈ fields, f.RefersByName) (members : List Node) :
    (composite c isRecord [] fields members).RefersByName := by
  refine refersByName_iff.mpr ⟨nofun, fun k hk => h k ?_⟩
  simpa [parts] using hk

/-- Names are texts or missing. -/
def IsTyped : Node → Prop
  | typeName c r => c.name.IsName ∧ r.typeName.IsName
  | enumeration c constants => c.name.IsName ∧ ∀ k ∈ constants, k.2.IsName
  | n => n.name.IsName

theorem IsTyped.name {n : Node} (h : n.IsTyped) : n.name.IsName := by
  cases n with
  | typeName c r => exact h.1
  | enumeration c constants => exact h.1
  | _ => exact h

def WellTyped (n : Node) : Prop := ∀ m, Within m n → m.IsTyped

theorem WellTyped.typed {n : Node} (h : n.WellTyped) : n.IsTyped := h n .self

theorem WellTyped.part {n k : Node} (h : n.WellTyped) (hk : k ∈ n.parts) : k.WellTyped :=
  fun m hm => h m (.part hk hm)

theorem wellTyped_iff {n : Node} : n.WellTyped ↔ n.IsTyped ∧ ∀ k ∈ n.parts, k.WellTyped := by
  refine ⟨fun h => ⟨h.typed, fun k hk => h.part hk⟩, fun ⟨ht, hp⟩ m hm => ?_⟩
  cases hm with
  | self => exact ht
  | part hk hm => exact hp _ hk m hm

/-- Fields are told apart by whether they are bit fields. -/
theorem isBitField_or (n : Node) :
    (∃ c offsetBits underlying, n = .bitField c offsetBits underlying) ∨
      ∀ c offsetBits underlying, n ≠ .bitField c offsetBits underlying := by
  cases n with
  | bitField c offsetBits underlying => exact .inl ⟨c, offsetBits, underlying, rfl⟩
  | _ => exact .inr nofun

theorem wellTyped_typeName {c : Common} {r : TypeReference} (hn : c.name.IsName)
    (hr : r.typeName.IsName) : (typeName c r).WellTyped :=
  wellTyped_iff.mpr ⟨⟨hn, hr⟩, nofun⟩

theorem wellTyped_builtIn {c : Common} (hn : c.name.IsName) (b : BuiltInClass) :
    (builtIn c b).WellTyped :=
  wellTyped_iff.mpr ⟨hn, nofun⟩

theorem wellTyped_pointer {c : Common} (hn : c.name.IsName) (isPointer : Bool) {target : Node}
    (ht : target.WellTyped) : (pointer c isPointer target).WellTyped :=
  wellTyped_iff.mpr ⟨hn, fun k hk => by rw [List.mem_singleton.mp hk]; exact ht⟩

theorem wellTyped_composite {c : Common} (hn : c.name.IsName) (isRecord : Bool)
    {fields : List Node} (hf : ∀ f ∈ fields, f.WellTyped) (members : List Node) :
    (composite c isRecord [] fields members).WellTyped := by
  refine wellTyped_iff.mpr ⟨hn, fun k hk => hf k ?_⟩
  simpa [parts] using hk

/-- A structure or union with fewer members is as well typed. -/
theorem WellTyped.take {c : Common} {isRecord : Bool} {bases : List Base}
    {fields members : List Node} (h : (composite c isRecord bases fields members).WellTyped)
    (i j : Nat) : (composite c isRecord (bases.take i) (fields.take j) members).WellTyped := by
  refine wellTyped_iff.mpr ⟨h.typed, fun k hk => h.part ?_⟩
  rcases List.mem_append.mp hk with hk | hk
  · cases isRecord with
    | false => cases hk
    | true =>
        obtain ⟨b, hb, rfl⟩ := List.mem_map.mp hk
        exact mem_parts_of_mem_bases (List.mem_of_mem_take hb)
  · exact mem_parts_of_mem_fields (List.mem_of_mem_take hk)

end Node

/-- An address that is given or missing. -/
def IsAddress (v : Json) : Prop := v = .null ∨ ∃ n, v = .int n

def WellTypedVariable (v : Variable) : Prop := v.common.name.IsName ∧ v.type.WellTyped

structure WellTypedFunction (d : FunctionDefinition) : Prop where
  name : d.common.name.IsName
  low : IsAddress d.low
  high : IsAddress d.high
  relativePath : d.relativePath.IsName
  type : (Node.functionType d.type).WellTyped
  parameters : ∀ vs ∈ d.type.parameters, ∀ v ∈ vs, v.common.name.IsName
  locals : ∀ v ∈ d.locals, WellTypedVariable v
  breadcrumbs : ∀ b ∈ d.breadcrumbs, ∃ s, b.path = .text s

structure WellTypedFile (f : SourceFile) : Prop where
  path : ∃ s, f.path = .text s
  relativePath : ∃ s, f.relativePath = .text s
  functions : ∀ d ∈ f.functions, WellTypedFunction d
  globals : ∀ v ∈ f.globals, WellTypedVariable v

/-- A document whose values are of the kinds that a reader of its parts expects. -/
structure WellTyped (d : Document) : Prop where
  types : ∀ n ∈ d.types, n.WellTyped
  files : ∀ f ∈ d.files, WellTypedFile f

end Document

end StabsImport

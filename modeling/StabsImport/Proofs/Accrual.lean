import StabsImport.Proofs.Permanence

/-!
# What accrues in the course of an import

Resolution adds types, puts members into composites, and records pointers and arrays by what they
are made of and the types of nodes under their numbers. A record is made only where there was none
when the work on it began. What holds over each of these steps holds over all resolution and over
the stages; the walk over a node is made once here for all that is told in this way.
-/

namespace StabsImport

open Document (Node)

/-! ## What programs keep of their types -/

def Shape.isSized : Shape → Bool
  | enumeration size _ => 0 < size
  | signature .. | composite _ => true
  | _ => false

/-- What never changes of a type. -/
inductive TypeObject.Mold where
  | named (isSized : Bool)
  | pointer (target : TypeId) (size : Int)
  | array (element : TypeId) (count : Int)

def TypeObject.mold : TypeObject → Mold
  | named _ shape => .named shape.isSized
  | pointer target size => .pointer target size
  | array element count => .array element count

/-- Types keep what never changes of them, and new ones have names of their own. -/
structure Program.Retypes (p q : Program) : Prop where
  pointerSize : q.pointerSize = p.pointerSize
  size_le : p.arena.size ≤ q.arena.size
  kept : ∀ {id t}, p.arena.get? id = some t → ∃ t', q.arena.get? id = some t' ∧ t'.mold = t.mold
  fresh : ∀ {id t}, q.arena.get? id = some t → p.arena.size ≤ id → ∃ isSized, t.mold = .named isSized

open TypeObject (Mold)

namespace Program.Retypes

variable {p q r : Program}

theorem of_arena (h : q.arena = p.arena) (pointerSize : q.pointerSize = p.pointerSize) :
    p.Retypes q where
  pointerSize := pointerSize
  size_le := Nat.le_of_eq (congrArg Arena.size h.symm)
  kept {_ t} ht := ⟨t, h ▸ ht, rfl⟩
  fresh ht hle := absurd (Arena.lt_size_of_get? ht) (Nat.not_lt_of_le (h ▸ hle))

theorem trans (h : p.Retypes q) (h' : q.Retypes r) : p.Retypes r where
  pointerSize := h'.pointerSize.trans h.pointerSize
  size_le := Nat.le_trans h.size_le h'.size_le
  kept ht :=
    have ⟨_, ht', hm⟩ := h.kept ht
    have ⟨t'', ht'', hm'⟩ := h'.kept ht'
    ⟨t'', ht'', hm'.trans hm⟩
  fresh {id t} ht hle := by
    by_cases hid : q.arena.size ≤ id
    · exact h'.fresh ht hid
    · obtain ⟨t', ht', hm⟩ := h'.kept (Array.getElem?_eq_getElem (Nat.lt_of_not_le hid))
      obtain rfl : t = t' := Option.some.inj (ht.symm.trans ht')
      obtain ⟨isSized, hm'⟩ := h.fresh (Array.getElem?_eq_getElem (Nat.lt_of_not_le hid)) hle
      exact ⟨isSized, hm.trans hm'⟩

theorem pushNamed (p : Program) (name : Json) (shape : Shape) :
    p.Retypes { p with arena := p.arena.push (.named name shape) } where
  pointerSize := rfl
  size_le := by
    rw [Arena.size_push]
    omega
  kept {_ t} ht := ⟨t, Arena.get?_push_of_get? _ ht, rfl⟩
  fresh ht hle := by
    rcases Arena.get?_push_cases ht with ⟨-, rfl⟩ | ht
    · exact ⟨_, rfl⟩
    · exact absurd (Arena.lt_size_of_get? ht) (Nat.not_lt_of_le hle)

theorem setNamed {id : TypeId} {name name' : Json} {shape shape' : Shape}
    (h : p.arena.get? id = some (.named name shape)) (same : shape'.isSized = shape.isSized) :
    p.Retypes { p with arena := p.arena.set id (.named name' shape') } where
  pointerSize := rfl
  size_le := Nat.le_of_eq (Arena.size_set _ _ _).symm
  kept {k t} ht := by
    by_cases hk : k = id
    · subst hk
      obtain rfl : TypeObject.named name shape = t := Option.some.inj (h.symm.trans ht)
      exact ⟨_, Arena.get?_set_self _ (Arena.lt_size_of_get? h),
        by simp only [TypeObject.mold, same]⟩
    · exact ⟨t, by rw [Arena.get?_set_of_ne _ _ hk]; exact ht, rfl⟩
  fresh ht hle := by
    have hlt := Arena.lt_size_of_get? ht
    rw [Arena.size_set] at hlt
    exact absurd hlt (Nat.not_lt_of_le hle)

end Program.Retypes

namespace Program

theorem editComposite_retypes (kind : CompositeKind) (id : TypeId)
    (f : Composite → Except Rejection Composite) : MovesWithin Retypes (editComposite kind id f) := by
  intro p
  rw [editComposite, Runs.bind_iff, Runs.get_iff]
  split
  · next name c hc =>
      split
      · exact .of_arena rfl rfl
      · rw [Runs.bind_iff, runs_ofExcept]
        cases f c with
        | ok c' => exact .setNamed hc rfl
        | error cause => exact .of_arena rfl rfl
  · exact .of_arena rfl rfl

theorem addType_retypes (id : TypeId) : MovesWithin Retypes (addType id) := by
  intro p
  rw [addType, Runs.bind_iff, runs_view]
  split
  · rw [Runs.bind_iff, runs_view]
    split
    · split
      · exact .of_arena rfl rfl
      · dsimp only
        split
        · rw [Runs.bind_iff, rename, Runs.bind_iff, Runs.get_iff]
          split
          · next hnamed => exact .trans (.setNamed hnamed rfl) (.of_arena rfl rfl)
          · exact .of_arena rfl rfl
        · exact .of_arena rfl rfl
    · exact .of_arena rfl rfl
  · exact .of_arena rfl rfl

end Program

namespace Document.Node

/-- The number under which the type of a node itself is recorded, if it is. -/
def number? : Node → Option Nat
  | enumeration c _ | composite c .. => some c.serial
  | functionType f => some f.common.serial
  | _ => none

theorem mem_serialsOfNodes {n : Node} {ns : List Node} {σ : Nat} (h : n ∈ ns) (hσ : σ ∈ n.serials) :
    σ ∈ serialsOfNodes ns := by
  induction h with
  | head => exact List.mem_append_left _ hσ
  | tail _ _ ih => exact List.mem_append_right _ ih

theorem mem_serialsOfBases {b : Base} {bs : List Base} {σ : Nat} (h : b ∈ bs)
    (hσ : σ ∈ b.type.serials) : σ ∈ serialsOfBases bs := by
  induction h with
  | head => exact List.mem_append_left _ hσ
  | tail _ _ ih => exact List.mem_append_right _ ih

theorem mem_serialsOfVariables {v : Variable} {vs : List Variable} {σ : Nat} (h : v ∈ vs)
    (hσ : σ ∈ v.type.serials) : σ ∈ serialsOfVariables vs := by
  induction h with
  | head => exact List.mem_append_left _ hσ
  | tail _ _ ih => exact List.mem_append_right _ ih

/-- The numbers of a part are among those of the node. -/
theorem mem_serials_of_mem_parts {m n : Node} {σ : Nat} (h : m ∈ n.parts) (hσ : σ ∈ m.serials) :
    σ ∈ n.serials := by
  cases n with
  | array | bitField | pointer =>
      obtain rfl := List.mem_singleton.mp h
      exact hσ
  | composite c isRecord bases fields members =>
      refine List.mem_cons_of_mem _ (List.mem_append.mpr ((List.mem_append.mp h).imp ?_ ?_))
      · intro hm
        cases isRecord with
        | false => cases hm
        | true =>
            obtain ⟨b, hb, rfl⟩ := List.mem_map.mp hm
            exact mem_serialsOfBases hb hσ
      · exact fun hm => mem_serialsOfNodes hm hσ
  | functionType f =>
      obtain ⟨c, returnType, parameters, _, _, _⟩ := f
      refine List.mem_append.mpr ((List.mem_append.mp h).imp ?_ ?_)
      · intro hm
        obtain rfl := Option.mem_toList.mp hm
        exact List.mem_cons_of_mem _ hσ
      · intro hm
        obtain ⟨v, hv, rfl⟩ := List.mem_map.mp hm
        cases parameters with
        | none => cases hv
        | some vs => exact mem_serialsOfVariables hv hσ
  | _ => cases h

theorem mem_serials_of_within {m n : Node} {σ : Nat} (h : Within m n) (hσ : m.number? = some σ) :
    σ ∈ n.serials := by
  induction h with
  | self =>
      cases m with
      | functionType f =>
          cases hσ
          exact List.mem_append_left _ List.mem_cons_self
      | enumeration | composite =>
          cases hσ
          exact List.mem_cons_self
      | _ => cases hσ
  | part hk _ ih => exact mem_serials_of_mem_parts hk ih

end Document.Node

namespace Import

open Document (Base Variable TypeReference BuiltInClass)
open Program (MovesWithin)

variable {d : Document} {X : Session → Session → Prop} {may : Nat → Prop} {s s' : Session}
  {α : Type}

/-- What holds over each step of resolution and of the later stages. The type of a node is recorded
only under such numbers as may be. -/
class Accrues (X : Session → Session → Prop) (may : outParam (Nat → Prop)) : Prop where
  trans {s s' s'' : Session} : X s s' → X s' s'' → X s s''
  /-- Neither types nor records of pointers, arrays and nodes were touched. -/
  aside {s s' : Session} : s'.program = s.program → s'.cache.pointers = s.cache.pointers →
    s'.cache.arrays = s.cache.arrays → s'.cache.nodes = s.cache.nodes → X s s'
  program {s : Session} {p : Program} : s.program.Retypes p → X s { s with program := p }
  pointer {s : Session} {target : TypeId} {size : Int} :
    s.cache.pointers.get? (target, size) = none →
    X s { s.push (.pointer target size) with
      cache.pointers := s.cache.pointers.put (target, size) s.program.arena.size }
  array {s : Session} {element : TypeId} {count : Int} : 0 ≤ count →
    s.cache.arrays.get? (element, count) = none →
    X s { s.push (.array element count) with
      cache.arrays := s.cache.arrays.put (element, count) s.program.arena.size }
  /-- There was no record when the work on it began. -/
  node {s s' : Session} {serial : Nat} {id : TypeId} {t : TypeObject} : X s s' → may serial →
    s.cache.nodes.get? serial = none → s'.program.arena.get? id = some t →
    t.mold = .named true → X s { s' with cache.nodes := s'.cache.nodes.put serial id }

/-- A function type whose return type is made only where the relation no longer says anything. -/
def Hopeless (X : Session → Session → Prop) : Node → Prop
  | .functionType f => ∃ n, f.returnType = some n ∧ ∀ enter s,
      Runs (createType enter n .null) s (fun _ t => ∀ u, X t u) fun _ _ => True
  | _ => False

/-- Whatever stands in the node is recorded under a number that may be, if at all. -/
def Admits (X : Session → Session → Prop) (may : Nat → Prop) (node : Node) : Prop :=
  ∀ ⦃m⦄, Node.Within m node → ∀ ⦃σ⦄, m.number? = some σ → may σ ∨ Hopeless X m

namespace Admits

variable {node m : Node}

theorem all : Admits X (fun _ => True) node := fun _ _ _ _ => .inl trivial

theorem of_serials (h : ∀ σ ∈ node.serials, may σ) : Admits X may node :=
  fun _ hm _ hσ => .inl (h _ (Node.mem_serials_of_within hm hσ))

theorem part (h : Admits X may node) (hm : m ∈ node.parts) : Admits X may m :=
  fun _ hk => h (.part hm hk)

end Admits

/-- It holds over sessions over the document. -/
def Over (d : Document) (X : Session → Session → Prop) (s s' : Session) : Prop :=
  s.document = d → s'.document = d ∧ X s s'

namespace Over

theorem of_ne (h : s.document ≠ d) : Over d X s s' := fun ho => absurd ho h

theorem of (document : s'.document = s.document) (h : X s s') : Over d X s s' :=
  fun hd => ⟨document.trans hd, h⟩

variable [accrues : Accrues X may]

include accrues

theorem aside (document : s'.document = s.document) (program : s'.program = s.program)
    (pointers : s'.cache.pointers = s.cache.pointers) (arrays : s'.cache.arrays = s.cache.arrays)
    (nodes : s'.cache.nodes = s.cache.nodes) : Over d X s s' :=
  .of document (Accrues.aside program pointers arrays nodes)

theorem program {p : Program} (h : s.program.Retypes p) : Over d X s { s with program := p } :=
  .of rfl (Accrues.program h)

instance : Naming (Over d X) where
  refl _ := aside rfl rfl rfl rfl rfl
  trans h h' hd := ⟨(h' (h hd).1).1, Accrues.trans (h hd).2 (h' (h hd).1).2⟩
  report _ _ := aside rfl rfl rfl rfl rfl
  inside {s s'} r h hd := by
    have outer (t : Session) (room : Room) : X t { t with room } :=
      Accrues.aside rfl rfl rfl rfl
    obtain ⟨hd', hx⟩ := h hd
    exact ⟨hd', Accrues.trans (outer s r) (Accrues.trans hx (outer s' s.room))⟩
  pushNamed s name shape := program (.pushNamed s.program name shape)

end Over

/-! ## Single steps -/

section

variable [accrues : Accrues X may]

include accrues

theorem edit_accrues {e : Edit α} (he : MovesWithin Program.Retypes e) :
    Preserves (Over d X) (edit e) := by
  intro s
  rw [runs_edit]
  exact Runs.mono (he s.program) (fun _ _ h => Over.program h) fun _ _ h => Over.program h

theorem prepare_accrues : Preserves (Over d X) prepare := by
  intro s
  have same : Over d X s s := Stepwise.refl s
  rw [prepare, Runs.bind_iff, Runs.get_iff]
  split
  · exact same
  · dsimp only
    split
    · exact same
    · exact Over.aside rfl rfl rfl rfl rfl

theorem isCancelled_accrues : Preserves (Over d X) isCancelled :=
  Preserves.get fun _ => (Preserves.modify fun _ => .aside rfl rfl rfl rfl rfl).bind fun _ => .pure _

theorem builtIn_accrues (c : BuiltInClass) : Preserves (Over d X) (builtIn c) := by
  refine (Preserves.need 3).bind fun _ => Preserves.get fun s => ?_
  have made : Preserves (Over d X) (edit (Program.newType (builtInType c))) := by
    cases c <;> exact .newNamed _ _
  split
  · exact .pure _
  · exact made.bind fun _ => (Preserves.modify fun _ => .aside rfl rfl rfl rfl rfl).bind fun _ =>
      .pure _

theorem pointerTo_accrues (target : TypeId) : Preserves (Over d X) (pointerTo target) := by
  refine (Preserves.need 3).bind fun _ => Preserves.pointerSize.bind fun size s => ?_
  have same : Over d X s s := Stepwise.refl s
  rw [Runs.bind_iff, Runs.get_iff]
  split
  · exact same
  · next hunset => exact Over.of rfl (Accrues.pointer hunset)

theorem arrayOf_accrues (element : TypeId) (count : Int) :
    Preserves (Over d X) (arrayOf element count) := by
  refine (Preserves.need 3).bind fun _ => (Preserves.sizedType element).bind fun sized s => ?_
  have same : Over d X s s := Stepwise.refl s
  rw [Runs.bind_iff, Runs.get_iff]
  split
  · exact same
  · next hunset =>
      rw [Runs.bind_iff, runs_edit, Program.newArray, Runs.bind_iff]
      show Runs (if s.program.arena.length sized ≤ 0 then _ else _ : Edit TypeId) s.program _ _
      split
      · rw [Runs.bind_iff, Program.typeName, Program.runs_view]
        split <;> exact same
      · split
        · exact same
        · next hcount => exact Over.of rfl (Accrues.array (Int.not_lt.mp hcount) hunset)

theorem lookUp_accrues (r : TypeReference) : Preserves (Over d X) (lookUp r) := by
  refine prepare_accrues.bind fun _ => Preserves.get fun s => ?_
  dsimp only
  split
  · exact (Preserves.throw _).bind fun _ => .pure _
  · exact .pure _

/-! ## Placing members -/

theorem placeBase_accrues (shell : TypeId) (index : Nat) (offset : Int) (type : TypeId) :
    Preserves (Over d X) (placeBase shell index offset type) := by
  have length : Preserves (Over d X) (typeLength type) :=
    fun s => (Stepwise.refl s : Over d X s s)
  exact length.bind fun _ => edit_accrues (Program.editComposite_retypes _ _ _)

theorem placeBitField_accrues (shell : TypeId) (field : Node) (offsetBits : Int) (name : Json)
    (underlying : TypeId) :
    Preserves (Over d X) (placeBitField shell field offsetBits name underlying) := by
  have length (id : TypeId) : Preserves (Over d X) (typeLength id) :=
    fun s => (Stepwise.refl s : Over d X s s)
  have kind : Preserves (Over d X) (edit (Program.kindOf? shell)) :=
    fun s => (Stepwise.refl s : Over d X s s)
  refine (Preserves.sizedType underlying).bind fun sized => (length sized).bind fun _ =>
    kind.bind fun _ => ?_
  split
  · exact edit_accrues (Program.editComposite_retypes _ _ _)
  · exact edit_accrues (Program.editComposite_retypes _ _ _)

theorem placeField_accrues (shell : TypeId) (field : Node) (name : Json) (type : TypeId) :
    Preserves (Over d X) (placeField shell field name type) := by
  have void : Preserves (Over d X) (isVoid type) :=
    fun s => (Stepwise.refl s : Over d X s s)
  have kind : Preserves (Over d X) (edit (Program.kindOf? shell)) :=
    fun s => (Stepwise.refl s : Over d X s s)
  have place (type : TypeId) : Preserves (Over d X) (placeSolid shell field name type) := by
    refine Preserves.get fun s => ?_
    dsimp only
    split
    · refine (Preserves.typeName type).bind fun _ => (Preserves.throw _).bind fun _ => ?_
      refine kind.bind fun _ => ?_
      split <;> exact edit_accrues (Program.editComposite_retypes _ _ _)
    · refine kind.bind fun _ => ?_
      split <;> exact edit_accrues (Program.editComposite_retypes _ _ _)
  rw [placeField_eq]
  refine Preserves.bind (void.bind fun isVoid => ?_) place
  split
  · exact .undefined1
  · exact .pure _

/-! ## The walk over a node -/

variable {enter : Int → ImportM TypeId}

theorem resolveReference_accrues (he : ∀ index, Preserves (Over d X) (enter index))
    (r : TypeReference) : Preserves (Over d X) (resolveReference enter r) := by
  unfold resolveReference
  split
  · exact builtIn_accrues _
  · refine (Preserves.need 2).bind fun _ => (lookUp_accrues r).bind fun found => ?_
    split
    · exact he _
    · exact (Preserves.diagnose _ _).bind fun _ => .undefined1

theorem variableType_accrues {type : ImportM TypeId} (h : Preserves (Over d X) type) :
    Preserves (Over d X) (variableType type) :=
  .onTypeFault (h.bind fun id => .sizedType id) fun _ =>
    (Preserves.diagnose _ _).bind fun _ => .undefined1

theorem parameterTypes_accrues {vs : List Variable}
    (h : ∀ v ∈ vs, Preserves (Over d X) (createType enter v.type .null)) :
    Preserves (Over d X) (parameterTypes enter vs) := by
  induction vs with
  | nil =>
      rw [parameterTypes_nil]
      exact .pure _
  | cons v rest ih =>
      have hrest := ih fun w hw => h w (List.mem_cons_of_mem _ hw)
      rw [parameterTypes]
      exact (variableType_accrues (h v List.mem_cons_self)).bind fun _ =>
        hrest.bind fun _ => .pure _

theorem fill_accrues (shell : TypeId) {isRecord : Bool} {bases : List Base} {fields : List Node}
    (hb : isRecord = true → ∀ b ∈ bases, Preserves (Over d X) (createType enter b.type .null))
    (hf : ∀ f ∈ fields, ∀ hint, Preserves (Over d X) (createType enter f hint))
    (hbits : ∀ c offsetBits underlying, .bitField c offsetBits underlying ∈ fields → ∀ hint,
      Preserves (Over d X) (createType enter underlying hint)) :
    Preserves (Over d X) (fill enter shell isRecord bases fields) :=
  .fill (fun h b hm _ => (hb h b hm).bind fun id => placeBase_accrues _ _ _ id)
    (fun f hm _ _ => (hf f hm _).bind fun id => placeField_accrues _ f _ id)
    fun c o u hm _ => (hbits c o u hm _).bind fun id => placeBitField_accrues _ _ _ _ id

/-- What makes a type with a name of its own and a size, and holds to the relation. -/
def MakesSized (d : Document) (X : Session → Session → Prop) (m : ImportM TypeId) : Prop :=
  ∀ s, Runs m s
    (fun id s' => Over d X s s' ∧ ∃ t, s'.program.arena.get? id = some t ∧ t.mold = .named true)
    fun _ s' => Over d X s s'

theorem MakesSized.newNamed (name : Json) {shape : Shape} (h : shape.isSized = true) :
    MakesSized d X (edit (Program.newType (.named name shape))) := by
  intro s
  have hpush : Over d X s (s.push (.named name shape)) := Naming.pushNamed s name shape
  exact ⟨hpush, _, get?_push s _, congrArg _ h⟩

theorem MakesSized.bind {m : ImportM α} {f : α → ImportM TypeId} (hm : Preserves (Over d X) m)
    (hf : ∀ a, MakesSized d X (f a)) : MakesSized d X (m >>= f) := by
  intro s
  rw [Runs.bind_iff]
  refine Runs.mono (hm s) (fun a t ht => ?_) fun _ _ h => h
  exact Runs.mono (hf a t) (fun _ _ h => ⟨Stepwise.trans ht h.1, h.2⟩)
    fun _ _ h => Stepwise.trans ht h

theorem newShell_makesSized (isRecord : Bool) (sizeBits : Int) (name : Json) :
    MakesSized d X (newShell isRecord sizeBits name) :=
  .bind (.need 3) fun _ => .newNamed name rfl

theorem newEnumeration_makesSized (name : Json) (constants : List (Int × Json)) :
    MakesSized d X (newEnumeration name constants) :=
  .bind (.need 3) fun _ => .bind (.addConstants _ _ _) fun _ => .newNamed name rfl

theorem newSignature_makesSized (name : Json) (returns : TypeId) (parameters : List TypeId) :
    MakesSized d X (newSignature name returns parameters) :=
  .bind (.need 2) fun _ => .newNamed name rfl

/-- What was made for a node is kept under its number, if nothing was when that began. -/
theorem MakesSized.cacheNode {m : ImportM TypeId} {f : TypeId → ImportM TypeId} {serial : Nat}
    (h : MakesSized d X m)
    (hmay : ∀ s, s.document = d → Runs m s (fun _ _ => may serial ∨ ∀ u, X s u) fun _ _ => True)
    (hf : ∀ id, Preserves (Over d X) (f id)) :
    Preserves (Over d X) (orCached serial do
      let id ← m
      cacheNode serial id
      f id) := by
  intro s
  have same : Over d X s s := Stepwise.refl s
  rw [runs_orCached]
  cases hunset : s.cache.nodes.get? serial with
  | some id => exact same
  | none =>
      by_cases hd : s.document = d
      swap
      · exact Runs.of_all (fun _ _ => .of_ne hd) fun _ _ => .of_ne hd
      refine (Runs.bind_iff _ _).mpr ?_
      refine Runs.mono ((h s).and (hmay s hd)) (fun id t ht => ?_) fun _ _ h => h.1
      obtain ⟨⟨ht, object, hobject, hsized⟩, hmay⟩ := ht
      rw [Runs.bind_iff, Import.cacheNode, Runs.modify_iff]
      have hcached : Over d X s { t with cache.nodes := t.cache.nodes.put serial id } := by
        intro hd
        obtain ⟨hd', hx⟩ := ht hd
        refine ⟨hd', ?_⟩
        rcases hmay with hmay | hvoid
        · exact Accrues.node hx hmay hunset hobject hsized
        · exact hvoid _
      exact Runs.mono (hf id _) (fun _ _ h => Stepwise.trans hcached h)
        fun _ _ h => Stepwise.trans hcached h

/-- Making the type of a node holds to what entering the table holds to. -/
theorem createType_accrues (he : ∀ index, Preserves (Over d X) (enter index)) (node : Node)
    (hmay : Admits X may node) (hint : Json) :
    Preserves (Over d X) (createType enter node hint) := by
  -- on the height, since the lists of a node's parts are not parts themselves
  induction hh : node.height using Nat.strongRecOn generalizing node hint with
  | ind height ih =>
  subst hh
  have part {m : Node} (hm : m ∈ node.parts) (hint : Json) :
      Preserves (Over d X) (createType enter m hint) :=
    ih m.height (Node.height_lt_of_mem_parts hm) m (hmay.part hm) hint rfl
  have underlying {c : Document.Common} {offsetBits : Int} {m : Node}
      (hm : .bitField c offsetBits m ∈ node.parts) (hint : Json) :
      Preserves (Over d X) (createType enter m hint) := by
    have hlt : m.height < (Node.bitField c offsetBits m).height :=
      Node.height_lt_of_mem_parts (List.mem_singleton_self m)
    exact ih m.height (Nat.lt_trans hlt (Node.height_lt_of_mem_parts hm)) m
      ((hmay.part hm).part (List.mem_singleton_self m)) hint rfl
  cases node with
  | typeName c r =>
      rw [createType_typeName]
      exact .inside 2 (resolveReference_accrues he r)
  | builtIn c b =>
      rw [createType]
      exact .inside 1 (builtIn_accrues b)
  | pointer c p target =>
      rw [createType]
      exact .inside 1 ((part (List.mem_singleton_self target) _).bind fun _ => pointerTo_accrues _)
  | array c element count =>
      rw [createType]
      exact .inside 1 ((part (List.mem_singleton_self element) _).bind fun _ => arrayOf_accrues _ _)
  | bitField c o u =>
      rw [createType]
      exact .inside 1 (part (List.mem_singleton_self u) _)
  | memberPointer c k m =>
      rw [createType]
      refine .inside 1 ((Preserves.need 2).bind fun _ => Preserves.pointerSize.bind fun _ => ?_)
      exact .newUndefined _
  | functionType f =>
      have returns : Preserves (Over d X) (returnTypeOf enter f.returnType) := by
        cases hr : f.returnType with
        | none => exact builtIn_accrues _
        | some n => exact part (List.mem_append_left _ (by simp [hr])) _
      have formals : Preserves (Over d X) (formalTypesOf enter f.parameters) := by
        cases hp : f.parameters with
        | none => exact .pure _
        | some vs =>
            refine .inside 2 (parameterTypes_accrues fun v hv => part ?_ _)
            exact List.mem_append_right _ (List.mem_map_of_mem (by simpa [hp] using hv))
      have made : MakesSized d X (do
          let returns ← returnTypeOf enter f.returnType
          let parameters ← formalTypesOf enter f.parameters
          newSignature (nameOr f.common.name hint "__anon_function") returns parameters) :=
        .bind returns fun _ => .bind formals fun _ => newSignature_makesSized _ _ _
      have hserial (s : Session) (hd : s.document = d) : Runs (do
          let returns ← returnTypeOf enter f.returnType
          let parameters ← formalTypesOf enter f.parameters
          newSignature (nameOr f.common.name hint "__anon_function") returns parameters) s
          (fun _ _ => may f.common.serial ∨ ∀ u, X s u) fun _ _ => True := by
        rcases hmay .self rfl with h | ⟨n, hn, h⟩
        · exact Runs.of_all (fun _ _ => .inl h) fun _ _ => trivial
        · have hopeless : Runs (returnTypeOf enter f.returnType) s (fun _ t => ∀ u, X t u)
              fun _ _ => True := by
            rw [hn]
            exact h enter s
          rw [Runs.bind_iff]
          refine Runs.mono ((returns s).and hopeless) (fun _ t ht => ?_) fun _ _ _ => trivial
          refine Runs.of_all (fun _ _ => .inr fun u => ?_) fun _ _ => trivial
          exact Accrues.trans (ht.1 hd).2 (ht.2 u)
      have cached := made.cacheNode hserial fun id => .pure id
      simp only [bind_assoc] at cached
      rw [createType_functionType]
      exact .inside 2 cached
  | enumeration c constants =>
      rw [createType]
      have hserial := (hmay .self rfl).resolve_right id
      exact .inside 1 ((newEnumeration_makesSized _ _).cacheNode
        (fun _ _ => Runs.of_all (fun _ _ => .inl hserial) fun _ _ => trivial) fun id => .pure id)
  | composite c isRecord bases fields members =>
      have filling (shell : TypeId) :
          Preserves (Over d X) (fill enter shell isRecord bases fields) := by
        refine fill_accrues shell ?_ ?_ ?_
        · rintro rfl b hb
          exact part (Node.mem_parts_of_mem_bases hb) _
        · exact fun f hf hint => part (Node.mem_parts_of_mem_fields hf) hint
        · exact fun _ _ _ hu hint => underlying (Node.mem_parts_of_mem_fields hu) hint
      rw [createType]
      have hserial := (hmay .self rfl).resolve_right id
      exact .inside 1 ((newShell_makesSized _ _ _).cacheNode
        (fun _ _ => Runs.of_all (fun _ _ => .inl hserial) fun _ _ => trivial)
        fun shell => (filling shell).bind fun _ => .pure _)
  | variable_ | functionDefinition | sourceFile =>
      rw [createType]
      exact .throw _

/-! ## Entries of the table -/

theorem setEntry_accrues (k : Nat) (id : TypeId) : Preserves (Over d X) (setEntry k id) :=
  Preserves.modify fun _ => .aside rfl rfl rfl rfl rfl

theorem addType_accrues (id : TypeId) : Preserves (Over d X) (edit (Program.addType id)) :=
  edit_accrues (Program.addType_retypes id)

/-- Filling holds to what entering the table holds to. -/
theorem fillNode_accrues (he : ∀ index, Preserves (Over d X) (enter index)) (shell : TypeId)
    {c : Document.Common} {isRecord : Bool} {bases : List Base} {fields members : List Node}
    (hmay : Admits X may (.composite c isRecord bases fields members)) :
    Preserves (Over d X) (fill enter shell isRecord bases fields) := by
  have part {m : Node} (hm : m ∈ (Node.composite c isRecord bases fields members).parts)
      (hint : Json) : Preserves (Over d X) (createType enter m hint) :=
    createType_accrues he m (hmay.part hm) hint
  refine fill_accrues shell ?_ ?_ ?_
  · rintro rfl b hb
    exact part (Node.mem_parts_of_mem_bases hb) _
  · exact fun f hf => part (Node.mem_parts_of_mem_fields hf)
  · intro c o u hu hint
    have hu := hmay.part (Node.mem_parts_of_mem_fields hu)
    exact createType_accrues he u (hu.part (List.mem_singleton_self u)) hint

/-- An entry takes what is made for it, or what stands in for that. -/
theorem takeEntry_accrues {type : ImportM TypeId} (h : Preserves (Over d X) type) (k : Nat)
    (report : Fault → String) :
    Preserves (Over d X) (do
      let id ← onTypeFault type fun e => do
        diagnose typesSource (report e)
        undefined1
      setEntry k id
      return id) := by
  refine Preserves.bind (.onTypeFault h fun _ => ?_) fun id =>
    (setEntry_accrues k id).bind fun _ => .pure _
  exact (Preserves.diagnose _ _).bind fun _ => .undefined1

theorem resolveEntry_accrues (he : ∀ index, Preserves (Over d X) (enter index)) (k : Nat)
    {node : Node} (hmay : Admits X may node) :
    Preserves (Over d X) (resolveEntry enter k node) := by
  cases node with
  | composite c isRecord bases fields members =>
      simp only [resolveEntry]
      exact (Preserves.newShell _ _ _).bind fun made => (addType_accrues made).bind fun shell =>
        (setEntry_accrues k shell).bind fun _ => (fillNode_accrues he shell hmay).bind fun _ =>
          .pure _
  | enumeration c constants =>
      exact takeEntry_accrues ((Preserves.newEnumeration _ _).bind addType_accrues) k _
  | _ => exact takeEntry_accrues (createType_accrues he _ hmay _) k _

theorem knownEntry_accrues (opened : List Nat) (index : Int) :
    Preserves (Over d X) ( knownEntry? opened index) := by
  have placeholder (text : String) : Preserves (Over d X)
      (do diagnose typesSource text; return some (← undefined1)) :=
    (Preserves.diagnose _ _).bind fun _ => Preserves.undefined1.bind fun _ => .pure _
  refine prepare_accrues.bind fun _ => Preserves.get fun s => ?_
  dsimp only
  split
  · exact placeholder _
  · split
    · exact .pure _
    · split
      · exact placeholder _
      · exact .pure _

variable (hmay : ∀ n ∈ d.types, Admits X may n)

include hmay

theorem typeAtWithin_accrues (budget : Nat) (opened : List Nat) (index : Int) :
    Preserves (Over d X) (typeAtWithin budget opened index) := by
  induction budget generalizing opened index with
  | zero =>
      rw [typeAtWithin]
      refine .inside 1 ((knownEntry_accrues opened index).bind fun known => ?_)
      cases known with
      | some id => exact .pure _
      | none => exact .throw _
  | succ budget ih =>
      rw [typeAtWithin]
      refine .inside 1 ((knownEntry_accrues opened index).bind fun known => ?_)
      cases known with
      | some id => exact .pure _
      | none =>
          intro s
          have refused : Preserves (Over d X) (throw .tooDeep : ImportM TypeId) := .throw _
          by_cases hd : s.document = d
          · rw [Runs.bind_iff, Runs.get_iff]
            split
            · next node hnode =>
                exact resolveEntry_accrues (ih _) _ (hmay node (hd ▸ List.mem_of_getElem? hnode)) s
            · exact refused s
          · exact Runs.of_all (fun _ _ => .of_ne hd) fun _ _ => .of_ne hd

theorem typeAt_accrues (index : Int) : Preserves (Over d X) (typeAt index) :=
  Preserves.get fun _ => typeAtWithin_accrues hmay _ _ index

theorem typeOf_accrues {node : Node} (hn : Admits X may node) (hint : Json) :
    Preserves (Over d X) (typeOf node hint) :=
  createType_accrues (typeAt_accrues hmay) node hn hint

theorem variableTypeOf_accrues {node : Node} (hn : Admits X may node) :
    Preserves (Over d X) (variableTypeOf (some node)) :=
  variableType_accrues (typeOf_accrues hmay hn .null)

end

/-! ## The stages -/

/-- What holds over all resolution, under whatever numbers types are recorded, holds over the later
stages. -/
theorem accrues_staged [Accrues X fun _ => True] : Staged SameTypes (Over d X) where
  edited h := .program (.of_arena h.arena h.pointerSize)
  counted _ _ := .aside rfl rfl rfl rfl rfl
  prepared := prepare_accrues
  checked := isCancelled_accrues
  typed _ hint := typeOf_accrues (fun _ _ => .all) .all hint
  varied _ := variableTypeOf_accrues (fun _ _ => .all) .all
  pointed := pointerTo_accrues

section

variable [accrues : Accrues X may]

include accrues

theorem registerEntry_accrues (index : Nat) (node : Node) :
    Preserves (Over d X) (registerEntry index node) := by
  have register {type : ImportM TypeId} (h : Preserves (Over d X) type) (report : Fault → String) :
      Preserves (Over d X)
        (onTypeFault (do setEntry index (← edit (Program.addType (← type)))) fun e =>
          diagnose typesSource (report e)) :=
    .onTypeFault (h.bind fun made => (addType_accrues made).bind fun id =>
      setEntry_accrues index id) fun _ => .diagnose _ _
  cases node with
  | enumeration c constants => exact register (.newEnumeration _ _) _
  | composite c isRecord bases fields members => exact register (.newShell _ _ _) _
  | _ => exact .pure _

variable (hmay : ∀ n ∈ d.types, Admits X may n)

include hmay

theorem fillEntry_accrues (index : Nat) {node : Node} (hn : Admits X may node) :
    Preserves (Over d X) (fillEntry index node) := by
  refine Preserves.get fun s => ?_
  split
  · next c isRecord bases fields members shell _ =>
      split
      · exact fillNode_accrues (typeAt_accrues hmay) shell hn
      · exact .pure _
  · exact .pure _

theorem importTypes_accrues : Preserves (Over d X) importTypes := by
  refine prepare_accrues.bind fun _ s => ?_
  by_cases hd : s.document = d
  · have registered : Preserves (Over d X) (registerFrom 0 s.document.types) :=
      .registerFrom isCancelled_accrues (fun k n _ => registerEntry_accrues k n) 0
    have filled : Preserves (Over d X) (fillFrom 0 s.document.types) :=
      .fillFrom isCancelled_accrues (fun k n hn => fillEntry_accrues hmay k (hmay n (hd ▸ hn))) 0
    refine Preserves.bind registered (fun done => ?_) s
    split
    · exact filled
    · exact .pure _
  · exact Runs.of_all (fun _ _ => .of_ne hd) fun _ _ => .of_ne hd

end

end Import

end StabsImport

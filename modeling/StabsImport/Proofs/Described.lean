import Mathlib.Data.List.Forall2
import StabsImport.Proofs.Members

/-!
# What nodes describe

A type is what a node describes if it is made of what the parts of the node describe. A structure,
union or enumeration of the table stands for itself wherever it is referred to, so the description
of a type is finite however its members lead back to it.
-/

namespace StabsImport

namespace Document

/-- A reference to void by name leads to no entry. -/
def TypeReference.isVoid (r : TypeReference) : Bool :=
  r.typeName = .text "void" && r.number.isNone

end Document

namespace Import

open Document (Node Variable TypeReference)

/-- The reference leads to no entry that has a type of its own. -/
def Misses (d : Document) (pointerSize : Int) (r : TypeReference) : Prop :=
  ∀ (k : Nat) (node : Node), entryOf? d r = some (k : Int) → d.types[k]? = some node →
    node.isBuildable pointerSize = false

/-- What is made for a built-in class has no members and is not made of another type. -/
def builtInShape (c : Document.BuiltInClass) : Shape :=
  match builtInType c with
  | .named _ shape => shape
  | _ => .void

theorem builtInType_named (c : Document.BuiltInClass) :
    ∃ name, builtInType c = .named name (builtInShape c) := by
  cases c <;> exact ⟨_, rfl⟩

/-- The size a composite of one size comes to when members of these extents are placed in it. -/
inductive HasSize (pointerSize : Int) (extent : Node → Extent → Prop) (kind : CompositeKind) :
    Int → List Member → Int → Prop where
  | nil {size : Int} : HasSize pointerSize extent kind size [] size
  | placed {size size' : Int} {m : Member} {ms : List Member} {e : Extent}
      (buildable : m.node.isBuildable pointerSize = true) (has : extent m.node e)
      (rest : HasSize pointerSize extent kind (max size (m.needs kind (m.placed e))) ms size') :
      HasSize pointerSize extent kind size (m :: ms) size'
  | leftOut {size size' : Int} {m : Member} {ms : List Member}
      (buildable : m.node.isBuildable pointerSize = false)
      (rest : HasSize pointerSize extent kind size ms size') :
      HasSize pointerSize extent kind size (m :: ms) size'

/-- The extent of the type a node describes, if the structures and unions of the table have the
sizes they declare. -/
inductive HasExtent (d : Document) (pointerSize : Int) : Node → Extent → Prop where
  | builtIn {c b} : HasExtent d pointerSize (.builtIn c b) (builtInShape b).extent
  | void {c r} (void : r.isVoid = true) : HasExtent d pointerSize (.typeName c r) .void
  | missing {c r} (solid : r.isVoid = false) (misses : Misses d pointerSize r) :
      HasExtent d pointerSize (.typeName c r) (.plain 1)
  | nominal {c r} {k : Nat} {node : Node} (solid : r.isVoid = false)
      (leads : entryOf? d r = some (k : Int)) (entry : d.types[k]? = some node)
      (nominal : node.isNominal = true) :
      HasExtent d pointerSize (.typeName c r) node.declaredExtent
  | entry {c r} {k : Nat} {node : Node} {e : Extent} (solid : r.isVoid = false)
      (leads : entryOf? d r = some (k : Int)) (entry : d.types[k]? = some node)
      (plain : node.isNominal = false) (buildable : node.isBuildable pointerSize = true)
      (has : HasExtent d pointerSize node e) : HasExtent d pointerSize (.typeName c r) e
  | pointer {c p target} : HasExtent d pointerSize (.pointer c p target) (.plain pointerSize)
  | array {c element count} {e : Extent} (has : HasExtent d pointerSize element e) :
      HasExtent d pointerSize (.array c element count) (.plain (e.sized.length * count))
  | bitField {c o underlying} {e : Extent} (has : HasExtent d pointerSize underlying e) :
      HasExtent d pointerSize (.bitField c o underlying) e
  | memberPointer {c k m} : HasExtent d pointerSize (.memberPointer c k m) (.plain pointerSize)
  | functionType {f} : HasExtent d pointerSize (.functionType f) (.plain 1)
  | enumeration {c constants} :
      HasExtent d pointerSize (.enumeration c constants) (.plain enumerationSize)
  | composite {c isRecord bases fields members} {size : Int} {extent : Node → Extent → Prop}
      (has : ∀ n e, extent n e → HasExtent d pointerSize n e)
      (holds : HasSize pointerSize extent (kindOf isRecord) (declaredBytes c.sizeBits)
        (membersOf isRecord bases fields) size) :
      HasExtent d pointerSize (.composite c isRecord bases fields members) (.composite size)

variable {d : Document} {pointerSize : Int}

theorem isBuildable_of_isNominal {n : Node} (h : n.isNominal = true) (pointerSize : Int) :
    n.isBuildable pointerSize = true := by
  cases n <;> first | rfl | cases h

theorem Misses.not_leads {r : TypeReference} (h : Misses d pointerSize r) {k : Nat} {node : Node}
    (leads : entryOf? d r = some (k : Int)) (entry : d.types[k]? = some node)
    (buildable : node.isBuildable pointerSize = true) : False := by
  rw [h k node leads entry] at buildable
  cases buildable

theorem leads_unique {r : TypeReference} {k k' : Nat} {node node' : Node}
    (leads : entryOf? d r = some (k : Int)) (entry : d.types[k]? = some node)
    (leads' : entryOf? d r = some (k' : Int)) (entry' : d.types[k']? = some node') :
    k = k' ∧ node = node' := by
  rw [leads, Option.some.injEq, Int.natCast_inj] at leads'
  subst leads'
  rw [entry, Option.some.injEq] at entry'
  exact ⟨rfl, entry'⟩

theorem HasSize.imp {extent extent' : Node → Extent → Prop} {kind : CompositeKind}
    {ms : List Member} {size n : Int} (h : HasSize pointerSize extent kind size ms n)
    (sub : ∀ m ∈ ms, ∀ e, extent m.node e → extent' m.node e) :
    HasSize pointerSize extent' kind size ms n := by
  induction h with
  | nil => exact .nil
  | placed hb hx _ ih =>
      exact .placed hb (sub _ List.mem_cons_self _ hx)
        (ih fun m hm => sub m (List.mem_cons_of_mem _ hm))
  | leftOut hb _ ih => exact .leftOut hb (ih fun m hm => sub m (List.mem_cons_of_mem _ hm))

theorem HasSize.mono {extent extent' : Node → Extent → Prop} {kind : CompositeKind}
    {ms : List Member} {size n : Int} (h : HasSize pointerSize extent kind size ms n)
    (sub : ∀ n e, extent n e → extent' n e) : HasSize pointerSize extent' kind size ms n :=
  h.imp fun m _ => sub m.node

theorem HasSize.unique {extent : Node → Extent → Prop} {kind : CompositeKind} {ms : List Member}
    {size n n' : Int}
    (h : HasSize pointerSize (fun n e => ∀ e', extent n e' → e' = e) kind size ms n)
    (h' : HasSize pointerSize extent kind size ms n') : n' = n := by
  induction h with
  | nil => cases h'; rfl
  | placed hb hx _ ih =>
      cases h' with
      | placed _ hx' hr' =>
          rw [hx _ hx'] at hr'
          exact ih hr'
      | leftOut hb' => rw [hb] at hb'; cases hb'
  | leftOut hb _ ih =>
      cases h' with
      | placed hb' => rw [hb] at hb'; cases hb'
      | leftOut _ hr' => exact ih hr'

/-- A node describes a type of one extent. -/
theorem HasExtent.unique {n : Node} {e e' : Extent} (h : HasExtent d pointerSize n e)
    (h' : HasExtent d pointerSize n e') : e' = e := by
  induction h generalizing e' with
  | builtIn => cases h'; rfl
  | void hv =>
      cases h' with
      | void => rfl
      | missing hs | nominal hs | entry hs => rw [hv] at hs; cases hs
  | missing hs hm =>
      cases h' with
      | void hv => rw [hv] at hs; cases hs
      | missing => rfl
      | nominal _ hl he hn => exact (hm.not_leads hl he (isBuildable_of_isNominal hn _)).elim
      | entry _ hl he _ hb => exact (hm.not_leads hl he hb).elim
  | nominal hs hl he hn =>
      cases h' with
      | void hv => rw [hv] at hs; cases hs
      | missing _ hm => exact (hm.not_leads hl he (isBuildable_of_isNominal hn _)).elim
      | nominal _ hl' he' =>
          obtain ⟨rfl, rfl⟩ := leads_unique hl he hl' he'
          rfl
      | entry _ hl' he' hp =>
          obtain ⟨rfl, rfl⟩ := leads_unique hl he hl' he'
          rw [hn] at hp
          cases hp
  | entry hs hl he hp hb _ ih =>
      cases h' with
      | void hv => rw [hv] at hs; cases hs
      | missing _ hm => exact (hm.not_leads hl he hb).elim
      | nominal _ hl' he' hn =>
          obtain ⟨rfl, rfl⟩ := leads_unique hl he hl' he'
          rw [hn] at hp
          cases hp
      | entry _ hl' he' _ _ hx' =>
          obtain ⟨rfl, rfl⟩ := leads_unique hl he hl' he'
          exact ih hx'
  | pointer => cases h'; rfl
  | array _ ih =>
      cases h' with
      | array hx' => rw [ih hx']
  | bitField _ ih =>
      cases h' with
      | bitField hx' => exact ih hx'
  | memberPointer => cases h'; rfl
  | functionType => cases h'; rfl
  | enumeration => cases h'; rfl
  | composite _ hz ih =>
      cases h' with
      | composite hx' hz' =>
          have hz : HasSize _ (fun n e => ∀ e', HasExtent d pointerSize n e' → e' = e) _ _ _ _ :=
            hz.mono fun n e hx e' => ih n e hx
          rw [hz.unique (hz'.mono hx')]

/-- Every structure and union of the table declares a size that holds its members. -/
def MembersFit (d : Document) (pointerSize : Int) : Prop :=
  ∀ c isRecord bases fields members, .composite c isRecord bases fields members ∈ d.types →
    ∀ m ∈ membersOf isRecord bases fields, ∀ e, HasExtent d pointerSize m.node e →
      m.needs (kindOf isRecord) (m.placed e) ≤ declaredBytes c.sizeBits

/-! ## What is settled of the types -/

/-- What is settled of the types made for a document: types that do not change any more, and the
types of entries of the table. -/
structure View where
  holds : TypeId → TypeObject → Prop
  entry : Nat → TypeId → Prop

/-- What is settled in one view is settled in the other. -/
structure View.Within (v w : View) : Prop where
  holds : ∀ {id t}, v.holds id t → w.holds id t
  entry : ∀ {k id}, v.entry k id → w.entry k id

/-- A type stands for one of some extent: it is that type if it is to have that extent, and a
placeholder if not. -/
def View.StandsFor (v : View) (e e' : Extent) (own id : TypeId) : Prop :=
  if e' = e then id = own else v.holds id (.undefinedOf 1)

/-- What a description of types says of each node, the name for one without a name, its type and
the type's extent. -/
abbrev Description := Node → Json → TypeId → Extent → Prop

/-- The constants of an enumeration. The first of each name counts. -/
def constantsOf (constants : List (Int × Json)) : Ledger Json Int :=
  constants.foldl (fun l k => if l.contains k.2 then l else l.put k.2 k.1) {}

/-- The composite comes out of another by placing what is described for the members. -/
inductive Places (pointerSize : Int) (v : View) (describes : Description) (owner : Json) :
    Composite → List Member → Composite → Prop where
  | nil {c : Composite} : Places pointerSize v describes owner c [] c
  | placed {c c' : Composite} {m : Member} {ms : List Member} {own id : TypeId} {e : Extent}
      (buildable : m.node.isBuildable pointerSize = true)
      (described : describes m.node (m.hint owner) own e)
      (stands : v.StandsFor e (m.placed e) own id)
      (rest : Places pointerSize v describes owner (m.place c id (m.placed e)) ms c') :
      Places pointerSize v describes owner c (m :: ms) c'
  | leftOut {c c' : Composite} {m : Member} {ms : List Member}
      (buildable : m.node.isBuildable pointerSize = false)
      (rest : Places pointerSize v describes owner c ms c') :
      Places pointerSize v describes owner c (m :: ms) c'

/-- A function without a return type returns void. -/
def ReturnIs (v : View) (describes : Description) : Option Node → TypeId → Prop
  | some node, id => ∃ e, describes node .null id e
  | none, id => v.holds id .voidType

/-- A parameter whose type cannot be made, or has no length, gets a placeholder. -/
def ParameterIs (pointerSize : Int) (v : View) (describes : Description) (p : Variable)
    (id : TypeId) : Prop :=
  if p.type.isBuildable pointerSize then
    ∃ own e, describes p.type .null own e ∧ v.StandsFor e e.sized own id
  else v.holds id (.undefinedOf 1)

/-- The type is what the node describes, and of this extent. -/
inductive Describes (d : Document) (pointerSize : Int) (v : View) : Description where
  | builtIn {c b hint id} (holds : v.holds id (builtInType b)) :
      Describes d pointerSize v (.builtIn c b) hint id (builtInShape b).extent
  | void {c r hint id} (void : r.isVoid = true) (holds : v.holds id .voidType) :
      Describes d pointerSize v (.typeName c r) hint id .void
  | missing {c r hint id} (solid : r.isVoid = false) (misses : Misses d pointerSize r)
      (holds : v.holds id (.undefinedOf 1)) :
      Describes d pointerSize v (.typeName c r) hint id (.plain 1)
  | nominal {c r hint id} {k : Nat} {node : Node} (solid : r.isVoid = false)
      (leads : entryOf? d r = some (k : Int)) (entry : d.types[k]? = some node)
      (nominal : node.isNominal = true) (is : v.entry k id) :
      Describes d pointerSize v (.typeName c r) hint id node.declaredExtent
  | entry {c r hint id} {k : Nat} {node : Node} {e : Extent} (solid : r.isVoid = false)
      (leads : entryOf? d r = some (k : Int)) (entry : d.types[k]? = some node)
      (plain : node.isNominal = false) (buildable : node.isBuildable pointerSize = true)
      (described : Describes d pointerSize v node (entryName node k) id e) :
      Describes d pointerSize v (.typeName c r) hint id e
  | pointer {c p target hint own id} {e : Extent}
      (described : Describes d pointerSize v target .null own e)
      (holds : v.holds id (.pointer own pointerSize)) :
      Describes d pointerSize v (.pointer c p target) hint id (.plain pointerSize)
  | array {c element count hint own el id} {e : Extent}
      (described : Describes d pointerSize v element .null own e)
      (stands : v.StandsFor e e.sized own el) (nonneg : 0 ≤ count)
      (holds : v.holds id (.array el count)) :
      Describes d pointerSize v (.array c element count) hint id (.plain (e.sized.length * count))
  | bitField {c o underlying hint id} {e : Extent}
      (described : Describes d pointerSize v underlying .null id e) :
      Describes d pointerSize v (.bitField c o underlying) hint id e
  | memberPointer {c k m hint id} (pos : 1 ≤ pointerSize)
      (holds : v.holds id (.undefinedOf pointerSize)) :
      Describes d pointerSize v (.memberPointer c k m) hint id (.plain pointerSize)
  | functionType {f : Document.FunctionType} {hint returns ids id} {describes : Description}
      (sub : ∀ n h t e, describes n h t e → Describes d pointerSize v n h t e)
      (returned : ReturnIs v describes f.returnType returns)
      (formals : List.Forall₂ (ParameterIs pointerSize v describes) (f.parameters.getD []) ids)
      (holds : v.holds id
        (.named (nameOr f.common.name hint "__anon_function") (.signature returns ids))) :
      Describes d pointerSize v (.functionType f) hint id (.plain 1)
  | enumeration {c constants hint id}
      (holds : v.holds id (.named (nameOr c.name hint "__anon_enum")
        (.enumeration enumerationSize (constantsOf constants)))) :
      Describes d pointerSize v (.enumeration c constants) hint id (.plain enumerationSize)
  | composite {c isRecord bases fields members hint id} {filled : Composite}
      {describes : Description}
      (sub : ∀ n h t e, describes n h t e → Describes d pointerSize v n h t e)
      (places : Places pointerSize v describes (nameOr c.name hint "__anon_struct")
        (.empty (kindOf isRecord) (declaredBytes c.sizeBits)) (membersOf isRecord bases fields)
        filled)
      (holds : v.holds id (.named (nameOr c.name hint "__anon_struct") (.composite filled))) :
      Describes d pointerSize v (.composite c isRecord bases fields members) hint id
        (.composite filled.size)

section

variable {v w : View} {describes describes' : Description}

theorem View.StandsFor.refl (v : View) (e : Extent) (own : TypeId) : v.StandsFor e e own own := by
  rw [StandsFor, if_pos rfl]

theorem View.StandsFor.imp (h : ∀ {id t}, v.holds id t → w.holds id t) {e e' : Extent}
    {own id : TypeId} (hs : v.StandsFor e e' own id) : w.StandsFor e e' own id := by
  unfold StandsFor at hs ⊢
  split
  · next he => rwa [if_pos he] at hs
  · next he =>
      rw [if_neg he] at hs
      exact h hs

theorem View.StandsFor.mono (h : v.Within w) {e e' : Extent} {own id : TypeId}
    (hs : v.StandsFor e e' own id) : w.StandsFor e e' own id := hs.imp h.holds

theorem Places.imp (h : ∀ {id t}, v.holds id t → w.holds id t) {owner : Json} {c c' : Composite}
    {ms : List Member} (hp : Places pointerSize v describes owner c ms c')
    (sub : ∀ m ∈ ms, ∀ hint id e, describes m.node hint id e → describes' m.node hint id e) :
    Places pointerSize w describes' owner c ms c' := by
  induction hp with
  | nil => exact .nil
  | placed hb hd hs _ ih =>
      exact .placed hb (sub _ List.mem_cons_self _ _ _ hd) (hs.imp h)
        (ih fun m hm => sub m (List.mem_cons_of_mem _ hm))
  | leftOut hb _ ih => exact .leftOut hb (ih fun m hm => sub m (List.mem_cons_of_mem _ hm))

theorem Places.mono (h : v.Within w) (sub : ∀ n hint id e, describes n hint id e → describes' n hint id e)
    {owner : Json} {c c' : Composite} {ms : List Member}
    (hp : Places pointerSize v describes owner c ms c') :
    Places pointerSize w describes' owner c ms c' := hp.imp h.holds fun m _ => sub m.node

theorem Places.append {owner : Json} {c c' c'' : Composite} {ms ns : List Member}
    (h : Places pointerSize v describes owner c ms c')
    (h' : Places pointerSize v describes owner c' ns c'') :
    Places pointerSize v describes owner c (ms ++ ns) c'' := by
  induction h with
  | nil => exact h'
  | placed hb hd hs _ ih => exact .placed hb hd hs (ih h')
  | leftOut hb _ ih => exact .leftOut hb (ih h')

theorem Places.kind {owner : Json} {c c' : Composite} {ms : List Member}
    (h : Places pointerSize v describes owner c ms c') : c'.kind = c.kind := by
  induction h with
  | nil => rfl
  | placed _ _ _ _ ih => rw [ih, Member.place_kind]
  | leftOut _ _ ih => exact ih

theorem ReturnIs.imp (h : ∀ {id t}, v.holds id t → w.holds id t) {returnType : Option Node}
    (sub : ∀ n ∈ returnType, ∀ hint id e, describes n hint id e → describes' n hint id e)
    {id : TypeId} (hr : ReturnIs v describes returnType id) : ReturnIs w describes' returnType id := by
  cases returnType with
  | none => exact h hr
  | some node =>
      obtain ⟨e, hd⟩ := hr
      exact ⟨e, sub node rfl _ _ _ hd⟩

theorem ReturnIs.mono (h : v.Within w)
    (sub : ∀ n hint id e, describes n hint id e → describes' n hint id e) {returnType : Option Node}
    {id : TypeId} (hr : ReturnIs v describes returnType id) : ReturnIs w describes' returnType id :=
  hr.imp h.holds fun n _ => sub n

theorem ParameterIs.imp (h : ∀ {id t}, v.holds id t → w.holds id t) {p : Variable}
    (sub : ∀ hint id e, describes p.type hint id e → describes' p.type hint id e) {id : TypeId}
    (hp : ParameterIs pointerSize v describes p id) : ParameterIs pointerSize w describes' p id := by
  unfold ParameterIs at hp ⊢
  split
  · next hb =>
      rw [if_pos hb] at hp
      obtain ⟨own, e, hd, hs⟩ := hp
      exact ⟨own, e, sub _ _ _ hd, hs.imp h⟩
  · next hb =>
      rw [if_neg hb] at hp
      exact h hp

theorem ParameterIs.mono (h : v.Within w)
    (sub : ∀ n hint id e, describes n hint id e → describes' n hint id e) {p : Variable} {id : TypeId}
    (hp : ParameterIs pointerSize v describes p id) : ParameterIs pointerSize w describes' p id :=
  hp.imp h.holds (sub p.type)

theorem ParameterIs.forall_imp (h : ∀ {id t}, v.holds id t → w.holds id t) {ps : List Variable}
    {ids : List TypeId} (hp : List.Forall₂ (ParameterIs pointerSize v describes) ps ids)
    (sub : ∀ p ∈ ps, ∀ hint id e, describes p.type hint id e → describes' p.type hint id e) :
    List.Forall₂ (ParameterIs pointerSize w describes') ps ids := by
  induction hp with
  | nil => exact .nil
  | cons hp _ ih =>
      exact .cons (hp.imp h (sub _ List.mem_cons_self))
        (ih fun p hm => sub p (List.mem_cons_of_mem _ hm))

/-- What is described stays described as more is settled. -/
theorem Describes.mono (h : v.Within w) {n : Node} {hint : Json} {id : TypeId} {e : Extent}
    (hd : Describes d pointerSize v n hint id e) : Describes d pointerSize w n hint id e := by
  induction hd with
  | builtIn holds => exact .builtIn (h.holds holds)
  | void hv holds => exact .void hv (h.holds holds)
  | missing hs hm holds => exact .missing hs hm (h.holds holds)
  | nominal hs hl he hn is => exact .nominal hs hl he hn (h.entry is)
  | entry hs hl he hp hb _ ih => exact .entry hs hl he hp hb ih
  | pointer _ holds ih => exact .pointer ih (h.holds holds)
  | array _ stands nonneg holds ih => exact .array ih (stands.mono h) nonneg (h.holds holds)
  | bitField _ ih => exact .bitField ih
  | memberPointer pos holds => exact .memberPointer pos (h.holds holds)
  | functionType _ returned formals holds ih =>
      exact .functionType (fun _ _ _ _ hd => hd) (returned.mono h ih)
        (formals.imp fun _ _ hp => hp.mono h ih) (h.holds holds)
  | enumeration holds => exact .enumeration (h.holds holds)
  | composite _ places holds ih =>
      exact .composite (fun _ _ _ _ hd => hd) (places.mono h ih) (h.holds holds)

theorem Describes.isBuildable {n : Node} {hint : Json} {id : TypeId} {e : Extent}
    (hd : Describes d pointerSize v n hint id e) : n.isBuildable pointerSize = true := by
  induction hd with
  | pointer _ _ ih => exact ih
  | array _ _ nonneg _ ih =>
      simp only [Node.isBuildable, ih, Bool.true_and, decide_eq_true_eq]
      exact nonneg
  | bitField _ ih => exact ih
  | memberPointer pos _ => exact decide_eq_true pos
  | @functionType f _ _ _ _ _ _ returned _ _ ih =>
      obtain ⟨c, returnType, parameters, _, _, _⟩ := f
      cases returnType with
      | none => rfl
      | some node =>
          obtain ⟨e, hd⟩ := returned
          have hb : node.isBuildable pointerSize = true := ih _ _ _ _ hd
          exact hb
  | _ => rfl

theorem Places.hasSize {extent : Node → Extent → Prop}
    (sub : ∀ n hint id e, describes n hint id e → extent n e) {owner : Json} {c c' : Composite}
    {ms : List Member} (h : Places pointerSize v describes owner c ms c') (hc : 0 ≤ c.size) :
    HasSize pointerSize extent c.kind c.size ms c'.size := by
  induction h with
  | nil => exact .nil
  | placed hb hd _ _ ih =>
      refine .placed hb (sub _ _ _ _ hd) ?_
      rw [Member.place_kind, Member.place_size hc] at ih
      exact ih (Int.le_trans hc (Int.le_max_left _ _))
  | leftOut hb _ ih => exact .leftOut hb (ih hc)

theorem declaredBytes_nonneg (bits : Int) : 0 ≤ declaredBytes bits := by
  unfold declaredBytes
  split <;> omega

/-- The extent described is the one that can be told from the document. -/
theorem Describes.hasExtent {n : Node} {hint : Json} {id : TypeId} {e : Extent}
    (hd : Describes d pointerSize v n hint id e) : HasExtent d pointerSize n e := by
  induction hd with
  | builtIn => exact .builtIn
  | void hv => exact .void hv
  | missing hs hm => exact .missing hs hm
  | nominal hs hl he hn => exact .nominal hs hl he hn
  | entry hs hl he hp hb _ ih => exact .entry hs hl he hp hb ih
  | pointer => exact .pointer
  | array _ _ _ _ ih => exact .array ih
  | bitField _ ih => exact .bitField ih
  | memberPointer => exact .memberPointer
  | functionType => exact .functionType
  | enumeration => exact .enumeration
  | composite _ places _ ih =>
      exact .composite (fun _ _ hx => hx) (places.hasSize ih (declaredBytes_nonneg _))

end

end Import

end StabsImport

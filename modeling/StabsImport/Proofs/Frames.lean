import StabsImport.Proofs.Ledgers
import StabsImport.Proofs.Resolution

/-!
# What resolution leaves alone

Resolution makes types and puts members into composites, and leaves all else of a program as it is.
Once every structure, union and enumeration of the table has its type, it changes no type that was
there before either, except for the composite it was told to fill.
-/

namespace StabsImport.Import

open Document (Node Base Variable TypeReference)

variable {may wide : TypeId → Prop} {s s' s'' : Session} {α β : Type}

/-- The document and the settings are the same. Nothing of the program but its types was changed, and
of the types that were there only such as may be. -/
structure Frame (may : TypeId → Prop) (s s' : Session) : Prop where
  document : s'.document = s.document
  outputLines : s'.outputLines = s.outputLines
  markInlined : s'.markInlined = s.markInlined
  program : s'.program =
    { s.program with arena := s'.program.arena, registry := s'.program.registry }
  distinct : s.program.registry.Distinct → s'.program.registry.Distinct
  size_le : s.program.arena.size ≤ s'.program.arena.size
  kept : ∀ {id}, id < s.program.arena.size → ¬ may id →
    s'.program.arena.get? id = s.program.arena.get? id
  prepared : s.isPrepared = true → s'.isPrepared = true
  entry : s.isPrepared = true → ∀ k, s.typeAt? k ≠ none → s'.typeAt? k ≠ none

namespace Frame

theorem refl (s : Session) : Frame may s s where
  document := rfl
  outputLines := rfl
  markInlined := rfl
  program := rfl
  distinct h := h
  size_le := Nat.le_refl _
  kept _ _ := rfl
  prepared h := h
  entry _ _ h := h

theorem mono (h : Frame may s s') (sub : ∀ id, may id → wide id) : Frame wide s s' :=
  { h with kept := fun hid hw => h.kept hid fun hm => hw (sub _ hm) }

theorem convention (h : Frame may s s') : s'.program.convention = s.program.convention := by
  rw [h.program]

/-- What is made on the way may be changed on the way. -/
theorem fresh {id : TypeId} (h : Frame may s s') (hid : s.program.arena.size ≤ id)
    (h' : Frame (fun k => may k ∨ k = id) s' s'') : Frame may s s'' where
  document := h'.document.trans h.document
  outputLines := h'.outputLines.trans h.outputLines
  markInlined := h'.markInlined.trans h.markInlined
  program := by
    have hp := h'.program
    rw [h.program] at hp
    exact hp
  distinct hd := h'.distinct (h.distinct hd)
  size_le := Nat.le_trans h.size_le h'.size_le
  kept {k} hk hm := by
    have hne : ¬ (may k ∨ k = id) := by
      intro hor
      rcases hor with hm' | rfl
      · exact hm hm'
      · omega
    have hk' : k < s'.program.arena.size := Nat.lt_of_lt_of_le hk h.size_le
    exact (h'.kept hk' hne).trans (h.kept hk hm)
  prepared hp := h'.prepared (h.prepared hp)
  entry hp k hk := h'.entry (h.prepared hp) k (h.entry hp k hk)

theorem trans (h : Frame may s s') (h' : Frame may s' s'') : Frame may s s'' :=
  h.fresh (Nat.le_refl _) (h'.mono fun _ => .inl)

theorem push (s : Session) (t : TypeObject) : Frame may s (s.push t) where
  document := rfl
  outputLines := rfl
  markInlined := rfl
  program := rfl
  distinct h := h
  size_le := by
    simp only [Session.push, Arena.size_push]
    omega
  kept {id} hid _ := Arena.get?_push_of_lt _ _ hid
  prepared h := h
  entry _ _ h := h

theorem setType {id : TypeId} (hid : may id) (s : Session) (t : TypeObject) :
    Frame may s { s with program := { s.program with arena := s.program.arena.set id t } } where
  document := rfl
  outputLines := rfl
  markInlined := rfl
  program := rfl
  distinct h := h
  size_le := Nat.le_of_eq (Arena.size_set _ _ _).symm
  kept {k} _ hk := by
    have hne : k ≠ id := fun h => hk (h ▸ hid)
    exact Arena.get?_set_of_ne _ _ hne
  prepared h := h
  entry _ _ h := h

theorem setEntry (s : Session) (k : Nat) (id : TypeId) :
    Frame may s { s with table := s.table.setIfInBounds k (some id) } where
  document := rfl
  outputLines := rfl
  markInlined := rfl
  program := rfl
  distinct h := h
  size_le := Nat.le_refl _
  kept _ _ := rfl
  prepared h := h
  entry _ j hj := by
    rw [Session.typeAt?_set]
    split
    · nofun
    · exact hj

instance : Additive (Frame may) where
  refl := .refl
  trans := .trans
  push := .push
  report s _ := { Frame.refl s with }
  share s _ _ := { Frame.refl s with }
  inside _ h := { h with }

end Frame

/-- Any type may change, or every structure, union and enumeration of the table has its type. -/
def Guarded (may : TypeId → Prop) (s : Session) : Prop :=
  (∀ id, may id) ∨
    s.isPrepared = true ∧ ∀ k, IsNominalEntry s.document k → s.typeAt? k ≠ none

/-- Only such types change as may, if the session is guarded. -/
def GuardedFrame (may : TypeId → Prop) (s s' : Session) : Prop := Guarded may s → Frame may s s'

namespace Guarded

theorem mono (h : Guarded may s) (sub : ∀ id, may id → wide id) : Guarded wide s :=
  h.imp_left fun hall id => sub id (hall id)

theorem after (h : Guarded may s) (hf : Frame wide s s') : Guarded may s' := by
  refine h.imp_right fun ⟨hp, hset⟩ => ⟨hf.prepared hp, fun k hk => ?_⟩
  rw [hf.document] at hk
  exact hf.entry hp k (hset k hk)

end Guarded

theorem GuardedFrame.trans (h : GuardedFrame may s s') (h' : GuardedFrame may s' s'') :
    GuardedFrame may s s'' :=
  fun hg => (h hg).trans (h' (hg.after (h hg)))

instance : Additive (GuardedFrame may) where
  refl s _ := .refl s
  trans := .trans
  push s t _ := .push s t
  report s _ _ := { Frame.refl s with }
  share s _ _ _ := { Frame.refl s with }
  inside _ h hg := Stepwise.inside _ (h hg)

theorem Preserves.guarded {m : ImportM α} (h : Preserves (Frame may) m) :
    Preserves (GuardedFrame may) m :=
  fun s => Runs.mono (h s) (fun _ _ h _ => h) fun _ _ h _ => h

/-- A frame in which no type was registered either. -/
structure Quiet (may : TypeId → Prop) (s s' : Session) : Prop extends Frame may s s' where
  registry : s'.program.registry = s.program.registry

namespace Quiet

theorem refl (s : Session) : Quiet may s s := ⟨.refl s, rfl⟩

theorem trans (h : Quiet may s s') (h' : Quiet may s' s'') : Quiet may s s'' :=
  ⟨h.toFrame.trans h'.toFrame, h'.registry.trans h.registry⟩

instance : Additive (Quiet may) where
  refl := .refl
  trans := .trans
  push s t := ⟨.push s t, rfl⟩
  report s _ := ⟨{ Frame.refl s with }, rfl⟩
  share s _ _ := ⟨{ Frame.refl s with }, rfl⟩
  inside _ h := ⟨Stepwise.inside _ h.toFrame, h.registry⟩

end Quiet

theorem Preserves.frame {m : ImportM α} (h : Preserves (Quiet may) m) : Preserves (Frame may) m :=
  fun s => Runs.mono (h s) (fun _ _ h => h.toFrame) fun _ _ h => h.toFrame

/-- What the walk over a node keeps to if entering the table does, told by the types that may
change. -/
class Framing (R : (TypeId → Prop) → Session → Session → Prop) : Prop where
  additive (may : TypeId → Prop) : Additive (R may)
  quiet {may : TypeId → Prop} {s s' : Session} : Quiet may s s' → R may s s'
  /-- What is made on the way may be changed on the way. -/
  fresh {may : TypeId → Prop} {s u : Session} (t : TypeObject) :
    R (fun k => may k ∨ k = s.program.arena.size) (s.push t) u → R may s u

attribute [instance] Framing.additive

instance : Framing GuardedFrame where
  additive _ := inferInstance
  quiet h _ := h.toFrame
  fresh {_ s _} t hu hg :=
    have hpush := Frame.push s t
    hpush.fresh (Nat.le_refl _) (hu ((hg.after hpush).mono fun _ => .inl))

theorem Preserves.framing {R : (TypeId → Prop) → Session → Session → Prop} [Framing R]
    {m : ImportM α} (h : Preserves (Quiet may) m) : Preserves (R may) m :=
  fun s => Runs.mono (h s) (fun _ _ => Framing.quiet) fun _ _ => Framing.quiet

/-! ## Composites -/

theorem editComposite_quiet {id : TypeId} (hid : may id) (kind : CompositeKind)
    (f : Composite → Except Rejection Composite) :
    Preserves (Quiet may) (edit (Program.editComposite kind id f)) := by
  intro s
  rw [runs_edit, Program.editComposite, Runs.bind_iff, Runs.get_iff]
  split
  · next name c _ =>
      split
      · exact Quiet.refl s
      · rw [Runs.bind_iff, Program.runs_ofExcept]
        cases f c with
        | ok c' => exact ⟨Frame.setType hid s _, rfl⟩
        | error cause => exact Quiet.refl s
  · exact Quiet.refl s

theorem kindOf_quiet (shell : TypeId) : Preserves (Quiet may) (edit (Program.kindOf? shell)) :=
  fun s => Quiet.refl s

theorem typeLength_quiet (id : TypeId) : Preserves (Quiet may) (typeLength id) :=
  fun s => Quiet.refl s

theorem isVoid_quiet (id : TypeId) : Preserves (Quiet may) (isVoid id) := fun s => Quiet.refl s

theorem placeBase_quiet {shell : TypeId} (h : may shell) (index : Nat) (offset : Int)
    (type : TypeId) : Preserves (Quiet may) (placeBase shell index offset type) :=
  (typeLength_quiet type).bind fun _ => editComposite_quiet h _ _

theorem placeBitField_quiet {shell : TypeId} (h : may shell) (field : Node) (offsetBits : Int)
    (name : Json) (underlying : TypeId) :
    Preserves (Quiet may) (placeBitField shell field offsetBits name underlying) := by
  refine (Preserves.sizedType underlying).bind fun sized => ?_
  refine (typeLength_quiet sized).bind fun length => (kindOf_quiet shell).bind fun kind => ?_
  split
  · exact editComposite_quiet h _ _
  · exact editComposite_quiet h _ _

theorem placeSolid_quiet {shell : TypeId} (h : may shell) (field : Node) (name : Json)
    (type : TypeId) : Preserves (Quiet may) (placeSolid shell field name type) := by
  refine Preserves.get fun s => ?_
  dsimp only
  split
  · refine (Preserves.typeName type).bind fun _ => (Preserves.throw _).bind fun _ => ?_
    refine (kindOf_quiet shell).bind fun kind => ?_
    split <;> exact editComposite_quiet h _ _
  · refine (kindOf_quiet shell).bind fun kind => ?_
    split <;> exact editComposite_quiet h _ _

theorem placeField_quiet {shell : TypeId} (h : may shell) (field : Node) (name : Json)
    (type : TypeId) : Preserves (Quiet may) (placeField shell field name type) := by
  have solid : Preserves (Quiet may)
      (do if ← isVoid type then undefined1 else pure type) := by
    refine (isVoid_quiet type).bind fun void => ?_
    split
    · exact .undefined1
    · exact .pure _
  rw [placeField_eq]
  exact solid.bind fun type => placeSolid_quiet h field name type

theorem cached_quiet (serial : Nat) : Preserves (Quiet may) ( cached? serial) :=
  fun s => Quiet.refl s

theorem cacheNode_quiet (serial : Nat) (id : TypeId) :
    Preserves (Quiet may) (cacheNode serial id) :=
  Preserves.modify fun s => ⟨{ Frame.refl s with }, rfl⟩

/-! ## One member after another -/

namespace Preserves

variable {R : Session → Session → Prop} [Stepwise R] {enter : Int → ImportM TypeId}
  {shell : TypeId} {fields : List Node}

theorem fillBases {bases : List Base}
    (h : ∀ b ∈ bases, ∀ index, Preserves R do
      placeBase shell index b.offset (← createType enter b.type .null)) (index : Nat) :
    Preserves R (fillBases enter shell index bases) := by
  induction bases generalizing index with
  | nil =>
      rw [fillBases_nil]
      exact .pure _
  | cons b rest ih =>
      rw [Import.fillBases]
      refine Preserves.bind (.onTypeFault (h b List.mem_cons_self index) fun _ => ?_) fun _ => ?_
      · exact .reportBase _ _ _
      · exact ih (fun w hw => h w (List.mem_cons_of_mem _ hw)) _

/-- The type of a bit field is that of the node below it; every other one is made with a hint. -/
theorem fillFields
    (h : ∀ f ∈ fields, ∀ name (hint : String), Preserves R do
      placeField shell f name (← createType enter f (.text hint)))
    (hbits : ∀ c offsetBits underlying, .bitField c offsetBits underlying ∈ fields → ∀ name,
      Preserves R do
        placeBitField shell (.bitField c offsetBits underlying) offsetBits name
          (← createType enter underlying .null)) (index : Nat) :
    Preserves R (fillFields enter shell index fields) := by
  induction fields generalizing index with
  | nil =>
      rw [fillFields_nil]
      exact .pure _
  | cons f rest ih =>
      have hrest := ih (fun g hg => h g (List.mem_cons_of_mem _ hg))
        fun c o u hg => hbits c o u (List.mem_cons_of_mem _ hg)
      rcases f.isBitField_or with ⟨c, offsetBits, underlying, rfl⟩ | hb
      · simp only [Import.fillFields]
        refine Preserves.bind (.onTypeFault (.inside 2 ?_) fun _ => .reportField _ _ _)
          fun _ => hrest _
        exact hbits c offsetBits underlying List.mem_cons_self _
      · rw [fillFields.eq_3 _ _ _ _ _ hb]
        refine Preserves.bind (.onTypeFault (.inside 1 ?_) fun _ => .reportField _ _ _)
          fun _ => hrest _
        exact (Preserves.typeName shell).bind fun _ => h f List.mem_cons_self _ _

theorem fill {isRecord : Bool} {bases : List Base}
    (hb : isRecord = true → ∀ b ∈ bases, ∀ index, Preserves R do
      placeBase shell index b.offset (← createType enter b.type .null))
    (hf : ∀ f ∈ fields, ∀ name (hint : String), Preserves R do
      placeField shell f name (← createType enter f (.text hint)))
    (hbits : ∀ c offsetBits underlying, .bitField c offsetBits underlying ∈ fields → ∀ name,
      Preserves R do
        placeBitField shell (.bitField c offsetBits underlying) offsetBits name
          (← createType enter underlying .null)) :
    Preserves R (fill enter shell isRecord bases fields) := by
  refine .inside 1 ?_
  cases isRecord with
  | false => exact fillFields hf hbits 0
  | true => exact (fillBases (hb rfl) 0).bind fun _ => fillFields hf hbits 0

end Preserves

/-! ## The walk over a node -/

theorem prepare_quiet : Preserves (Quiet may) prepare := by
  intro s
  rw [prepare, Runs.bind_iff, Runs.get_iff]
  split
  · exact Quiet.refl s
  · next hp =>
      split
      · exact Quiet.refl s
      · refine ⟨{ Frame.refl s with prepared := ?_, entry := ?_ }, rfl⟩
        · exact fun h => absurd h hp
        · exact fun h => absurd h hp

theorem lookUp_quiet (r : TypeReference) : Preserves (Quiet may) (lookUp r) := by
  refine prepare_quiet.bind fun _ => Preserves.get fun s => ?_
  dsimp only
  split
  · exact (Preserves.throw _).bind fun _ => .pure _
  · exact .pure _

section

variable {enter : Int → ImportM TypeId} {R : (TypeId → Prop) → Session → Session → Prop}
  [Framing R]

/-- A composite is made, and what is done to it in the course of that changes nothing else. -/
theorem newShell_frame {isRecord : Bool} {sizeBits : Int} {name : Json} {m : TypeId → ImportM α}
    (h : ∀ id, Preserves (R fun k => may k ∨ k = id) (m id)) :
    Preserves (R may) (newShell isRecord sizeBits name >>= m) := by
  intro s
  rw [Runs.bind_iff, newShell, Runs.bind_iff, runs_need]
  split
  · show Runs (m s.program.arena.size) (s.push _) _ _
    exact Runs.mono (h _ _) (fun _ _ hu => Framing.fresh _ hu) fun _ _ hu => Framing.fresh _ hu
  · exact Stepwise.refl s

theorem resolveReference_frame (he : ∀ index, Preserves (R may) (enter index))
    (r : TypeReference) : Preserves (R may) (resolveReference enter r) := by
  unfold resolveReference
  split
  · exact .builtIn _
  · refine (Preserves.need 2).bind fun _ => (lookUp_quiet r).framing.bind fun found => ?_
    split
    · exact he _
    · exact (Preserves.diagnose _ _).bind fun _ => .undefined1

theorem variableType_frame {type : ImportM TypeId} (h : Preserves (R may) type) :
    Preserves (R may) (variableType type) :=
  .onTypeFault (h.bind fun id => .sizedType id) fun _ =>
    (Preserves.diagnose _ _).bind fun _ => .undefined1

theorem parameterTypes_frame {vs : List Variable}
    (h : ∀ v ∈ vs, Preserves (R may) (createType enter v.type .null)) :
    Preserves (R may) (parameterTypes enter vs) := by
  induction vs with
  | nil =>
      rw [parameterTypes_nil]
      exact .pure _
  | cons v rest ih =>
      have hrest := ih fun w hw => h w (List.mem_cons_of_mem _ hw)
      rw [parameterTypes]
      exact (variableType_frame (h v List.mem_cons_self)).bind fun _ => hrest.bind fun _ => .pure _

theorem fillFields_frame {shell : TypeId} (hshell : may shell) {fields : List Node}
    (h : ∀ f ∈ fields, ∀ hint, Preserves (R may) (createType enter f hint))
    (hbits : ∀ c offsetBits underlying, .bitField c offsetBits underlying ∈ fields → ∀ hint,
      Preserves (R may) (createType enter underlying hint)) (index : Nat) :
    Preserves (R may) (fillFields enter shell index fields) :=
  .fillFields (fun f hf _ _ => (h f hf _).bind fun id =>
      (placeField_quiet hshell f _ id).framing)
    (fun c o u hu _ => (hbits c o u hu _).bind fun id =>
      (placeBitField_quiet hshell _ _ _ id).framing) index

theorem fill_frame {shell : TypeId} (hshell : may shell) {isRecord : Bool} {bases : List Base}
    {fields : List Node}
    (hb : isRecord = true → ∀ b ∈ bases,
      Preserves (R may) (createType enter b.type .null))
    (hf : ∀ f ∈ fields, ∀ hint, Preserves (R may) (createType enter f hint))
    (hbits : ∀ c offsetBits underlying, .bitField c offsetBits underlying ∈ fields → ∀ hint,
      Preserves (R may) (createType enter underlying hint)) :
    Preserves (R may) (fill enter shell isRecord bases fields) :=
  .fill (fun h b hm _ => (hb h b hm).bind fun id => (placeBase_quiet hshell _ _ id).framing)
    (fun f hm _ _ => (hf f hm _).bind fun id => (placeField_quiet hshell f _ id).framing)
    fun c o u hm _ => (hbits c o u hm _).bind fun id =>
      (placeBitField_quiet hshell _ _ _ id).framing

/-- Making the type of a node changes no type but those that entering the table changes. -/
theorem createType_frame (he : ∀ may index, Preserves (R may) (enter index))
    (node : Node) (hint : Json) : Preserves (R may) (createType enter node hint) := by
  -- on the height, since the lists of a node's parts are not parts themselves
  induction hh : node.height using Nat.strongRecOn generalizing node may hint with
  | ind height ih =>
  subst hh
  have part {m : Node} (hm : m ∈ node.parts) (may : TypeId → Prop) (hint : Json) :
      Preserves (R may) (createType enter m hint) :=
    ih m.height (Node.height_lt_of_mem_parts hm) m hint rfl
  have underlying {c : Document.Common} {offsetBits : Int} {m : Node}
      (hm : .bitField c offsetBits m ∈ node.parts) (may : TypeId → Prop) (hint : Json) :
      Preserves (R may) (createType enter m hint) := by
    have hlt : m.height < (Node.bitField c offsetBits m).height :=
      Node.height_lt_of_mem_parts (List.mem_singleton_self m)
    exact ih m.height (Nat.lt_trans hlt (Node.height_lt_of_mem_parts hm)) m hint rfl
  cases node with
  | typeName c r =>
      rw [createType_typeName]
      exact .inside 2 (resolveReference_frame (he may) r)
  | builtIn c b =>
      rw [createType]
      exact .inside 1 (.builtIn b)
  | pointer c p target =>
      rw [createType]
      exact .inside 1 ((part (List.mem_singleton_self target) may _).bind fun _ => .pointerTo _)
  | array c element count =>
      rw [createType]
      exact .inside 1 ((part (List.mem_singleton_self element) may _).bind fun _ => .arrayOf _ _)
  | bitField c o u =>
      rw [createType]
      exact .inside 1 (part (List.mem_singleton_self u) may _)
  | memberPointer c k m =>
      rw [createType]
      refine .inside 1 ((Preserves.need 2).bind fun _ => Preserves.pointerSize.bind fun _ => ?_)
      exact .newUndefined _
  | functionType f =>
      have returns : Preserves (R may) (returnTypeOf enter f.returnType) := by
        cases hr : f.returnType with
        | none => exact .builtIn _
        | some n => exact part (List.mem_append_left _ (by simp [hr])) may _
      have formals : Preserves (R may) (formalTypesOf enter f.parameters) := by
        cases hp : f.parameters with
        | none => exact .pure _
        | some vs =>
            refine .inside 2 (parameterTypes_frame fun v hv => part ?_ may _)
            exact List.mem_append_right _ (List.mem_map_of_mem (by simpa [hp] using hv))
      rw [createType_functionType]
      refine .inside 2 ((cached_quiet f.common.serial).framing.bind fun known => ?_)
      split
      · exact .pure _
      · refine returns.bind fun _ => formals.bind fun _ => (Preserves.newSignature _ _ _).bind ?_
        exact fun _ => (cacheNode_quiet _ _).framing.bind fun _ => .pure _
  | enumeration c constants =>
      rw [createType]
      refine .inside 1 ((cached_quiet c.serial).framing.bind fun known => ?_)
      split
      · exact .pure _
      · refine (Preserves.newEnumeration _ _).bind fun _ => ?_
        exact (cacheNode_quiet _ _).framing.bind fun _ => .pure _
  | composite c isRecord bases fields members =>
      have filling (shell : TypeId) :
          Preserves (R fun k => may k ∨ k = shell)
            (fill enter shell isRecord bases fields) := by
        refine fill_frame (.inr rfl) ?_ ?_ ?_
        · rintro rfl b hb
          exact part (Node.mem_parts_of_mem_bases hb) _ _
        · exact fun f hf hint => part (Node.mem_parts_of_mem_fields hf) _ hint
        · exact fun _ _ _ hu hint => underlying (Node.mem_parts_of_mem_fields hu) _ hint
      rw [createType]
      refine .inside 1 ((cached_quiet c.serial).framing.bind fun known => ?_)
      split
      · exact .pure _
      · refine newShell_frame fun shell => (cacheNode_quiet _ _).framing.bind fun _ => ?_
        exact (filling shell).bind fun _ => .pure _
  | variable_ | functionDefinition | sourceFile =>
      rw [createType]
      exact .throw _

/-! ## Entries of the table -/

theorem setEntry_quiet (index : Nat) (id : TypeId) : Preserves (Quiet may) (setEntry index id) :=
  Preserves.modify fun s => ⟨.setEntry s index id, rfl⟩

theorem addType_frame {id : TypeId} (h : may id) :
    Preserves (Frame may) (edit (Program.addType id)) := by
  have registered (s : Session) (name : Json) : Frame may s
      { s with program := { s.program with registry := s.program.registry.put name id } } :=
    { Frame.refl s with program := rfl, distinct := fun h => h.put name id }
  intro s
  rw [runs_edit, Program.addType, Runs.bind_iff, Program.runs_view]
  split
  · rw [Runs.bind_iff, Program.runs_view]
    split
    · split
      · exact Frame.refl s
      · next free _ =>
          dsimp only
          split
          · rw [Runs.bind_iff, Program.rename, Runs.bind_iff, Runs.get_iff]
            split
            · exact (Frame.setType h s _).trans (registered _ _)
            · exact Frame.refl s
          · exact registered s _
    · exact Frame.refl s
  · exact Frame.refl s

/-- A type is made, and it is a new one. -/
def MakesNew (may : TypeId → Prop) (m : ImportM TypeId) : Prop :=
  ∀ s, Runs m s (fun id s' => s.program.arena.size ≤ id ∧ Frame may s s') fun _ s' => Frame may s s'

theorem MakesNew.bind {m : ImportM α} {f : α → ImportM TypeId} (hm : Preserves (Frame may) m)
    (hf : ∀ a, MakesNew may (f a)) : MakesNew may (m >>= f) := by
  intro s
  rw [Runs.bind_iff]
  refine Runs.mono (hm s) (fun a t ht => ?_) fun _ _ h => h
  refine Runs.mono (hf a t) (fun id u hu => ?_) fun _ _ hu => ht.trans hu
  exact ⟨Nat.le_trans ht.size_le hu.1, ht.trans hu.2⟩

theorem newType_makesNew (t : TypeObject) : MakesNew may (edit (Program.newType t)) :=
  fun s => ⟨Nat.le_refl _, .push s t⟩

theorem newShell_makesNew (isRecord : Bool) (sizeBits : Int) (name : Json) :
    MakesNew may (newShell isRecord sizeBits name) :=
  .bind (.need 3) fun _ => newType_makesNew _

theorem newEnumeration_makesNew (name : Json) (constants : List (Int × Json)) :
    MakesNew may (newEnumeration name constants) :=
  .bind (.need 3) fun _ => .bind (.addConstants _ _ _) fun _ => newType_makesNew _

/-- Registering a type changes none that was there before. -/
theorem MakesNew.addType {type : ImportM TypeId} (h : MakesNew may type) :
    Preserves (Frame may) (do edit (Program.addType (← type))) := by
  intro s
  rw [Runs.bind_iff]
  refine Runs.mono (h s) (fun id t ht => ?_) fun _ _ h => h
  have hadd : Preserves (Frame fun k => may k ∨ k = id) (edit (Program.addType id)) :=
    addType_frame (.inr rfl)
  exact Runs.mono (hadd t) (fun _ _ hu => ht.2.fresh ht.1 hu) fun _ _ hu => ht.2.fresh ht.1 hu

/-- An entry takes what is made for it, or what stands in for that. -/
theorem takeEntry_frame (index : Nat) {type : ImportM TypeId} (h : Preserves (R may) type)
    (report : Fault → String) :
    Preserves (R may) (do
      let id ← onTypeFault type fun e => do
        diagnose typesSource (report e)
        undefined1
      setEntry index id
      return id) := by
  refine Preserves.bind (.onTypeFault h fun e => ?_) fun id => ?_
  · exact (Preserves.diagnose _ _).bind fun _ => .undefined1
  · exact (setEntry_quiet index id).framing.bind fun _ => .pure _

/-- What is no structure, union or enumeration is not registered. -/
theorem resolvePlain_frame (he : ∀ may index, Preserves (R may) (enter index)) (index : Nat)
    {node : Node} (h : node.isNominal = false) :
    Preserves (R may) (resolveEntry enter index node) := by
  cases node with
  | composite | enumeration => cases h
  | _ => exact takeEntry_frame index (createType_frame he _ _) _

/-- Structures and unions may be resolved only where any type may change. -/
theorem resolveEntry_frame (he : ∀ may index, Preserves (GuardedFrame may) (enter index))
    (index : Nat) {node : Node} (h : (∀ id, may id) ∨ node.isNominal = false) :
    Preserves (GuardedFrame may) (resolveEntry enter index node) := by
  rcases h with hall | h
  · cases node with
    | composite c isRecord bases fields members =>
        refine (Preserves.newShell _ _ _).bind fun made => ?_
        refine (addType_frame (hall made)).guarded.bind fun shell => ?_
        refine (setEntry_quiet index shell).framing.bind fun _ => ?_
        refine Preserves.bind (fill_frame (hall shell) ?_ ?_ ?_) fun _ => .pure _
        · exact fun _ b _ => createType_frame he b.type _
        · exact fun f _ => createType_frame he f
        · exact fun _ _ underlying _ => createType_frame he underlying
    | enumeration c constants =>
        exact takeEntry_frame index (newEnumeration_makesNew _ constants).addType.guarded _
    | _ => exact resolvePlain_frame he index rfl
  · exact resolvePlain_frame he index h

end

theorem runs_knownEntry (opened : List Nat) (index : Int) (s : Session) :
    Runs ( knownEntry? opened index) s
      (fun known s' => Quiet may s s' ∧ (known = none → s'.typeAt? index.toNat = none))
      fun _ s' => Quiet may s s' := by
  have placeholder (text : String) {t : Session} (ht : Quiet may s t) :
      Runs (do diagnose typesSource text; return some (← undefined1)) t
        (fun known s' => Quiet may s s' ∧ (known = none → s'.typeAt? index.toNat = none))
        fun _ s' => Quiet may s s' := by
    rw [Runs.bind_iff]
    have hd : Preserves (Quiet may) (diagnose typesSource text) := .diagnose _ _
    refine Runs.mono (hd t) (fun _ u hu => ?_) fun _ _ hu => ht.trans hu
    exact ⟨(ht.trans hu).trans (Additive.push u _), nofun⟩
  rw [ knownEntry?, Runs.bind_iff]
  refine Runs.mono (prepare_quiet s) (fun _ t ht => ?_) fun _ _ h => h
  rw [Runs.bind_iff, Runs.get_iff]
  dsimp only
  split
  · exact placeholder _ ht
  · split
    · exact ⟨ht, nofun⟩
    · next hnone =>
        split
        · exact placeholder _ ht
        · refine ⟨ht, fun _ => ?_⟩
          cases he : t.typeAt? index.toNat with
          | none => rfl
          | some id => exact absurd (Session.typeAt?_eq_some.mp he) (hnone id)

/-- What resolving an entry that has no type yet keeps to if what that enters does. -/
class FramesEntries (R : (TypeId → Prop) → Session → Session → Prop) : Prop extends Framing R where
  entries ⦃may : TypeId → Prop⦄ ⦃s : Session⦄ ⦃index : Nat⦄ ⦃node : Node⦄
    ⦃enter : Int → ImportM TypeId⦄ : s.document.types[index]? = some node →
    s.typeAt? index = none → (∀ may j, Preserves (R may) (enter j)) →
    Runs (resolveEntry enter index node) s (fun _ s' => R may s s') fun _ s' => R may s s'

instance : FramesEntries GuardedFrame where
  entries {may s index node _} hnode hunset he := by
    by_cases hg : Guarded may s
    · refine resolveEntry_frame he index (hg.imp_right fun h => ?_) s
      cases hn : node.isNominal with
      | false => rfl
      | true => exact absurd hunset (h.2 _ ⟨node, hnode, hn⟩)
    · exact Runs.of_all (fun _ _ h => absurd h hg) fun _ _ h => absurd h hg

section

variable {R : (TypeId → Prop) → Session → Session → Prop} [FramesEntries R]

theorem typeAtWithin_frame (budget : Nat) (may : TypeId → Prop) (opened : List Nat)
    (index : Int) : Preserves (R may) (typeAtWithin budget opened index) := by
  induction budget generalizing may opened index with
  | zero =>
      rw [typeAtWithin]
      refine .inside 1 fun s => ?_
      rw [Runs.bind_iff]
      refine Runs.mono (runs_knownEntry opened index s) ?_ fun _ _ h => Framing.quiet h
      intro known t ht
      cases known with
      | some id => exact Framing.quiet ht.1
      | none => exact Framing.quiet ht.1
  | succ budget ih =>
      rw [typeAtWithin]
      refine .inside 1 fun s => ?_
      rw [Runs.bind_iff]
      refine Runs.mono (runs_knownEntry opened index s) ?_ fun _ _ h => Framing.quiet h
      rintro known t ⟨ht, hunset⟩
      have onward {u : Session} (hu : R may t u) : R may s u :=
        Stepwise.trans (Framing.quiet ht) hu
      cases known with
      | some id => exact Framing.quiet ht
      | none =>
          rw [Runs.bind_iff, Runs.get_iff]
          split
          · next node hnode =>
              exact Runs.mono (FramesEntries.entries hnode (hunset rfl) fun may j => ih may _ j)
                (fun _ _ => onward) fun _ _ => onward
          · exact Framing.quiet ht

theorem typeAt_frame (may : TypeId → Prop) (index : Int) : Preserves (R may) (typeAt index) :=
  Preserves.get fun _ => typeAtWithin_frame _ may [] index

/-- Making the type of a node leaves alone all else of a program. -/
theorem typeOf_frame (node : Node) (hint : Json) : Preserves (R may) (typeOf node hint) :=
  createType_frame typeAt_frame node hint

theorem variableTypeOf_frame (node : Node) : Preserves (R may) (variableTypeOf (some node)) :=
  variableType_frame (typeOf_frame node .null)

end

/-! ## The type stage -/

/-- Registration changes no type that was there before. -/
theorem registerEntry_frame (index : Nat) (node : Node) :
    Preserves (Frame may) (registerEntry index node) := by
  have register {type : ImportM TypeId} (h : MakesNew may type) (report : Fault → String) :
      Preserves (Frame may)
        (onTypeFault (do setEntry index (← edit (Program.addType (← type)))) fun e =>
          diagnose typesSource (report e)) := by
    have hadd : Preserves (Frame may)
        ((do edit (Program.addType (← type))) >>= fun id => setEntry index id) :=
      h.addType.bind fun id => (setEntry_quiet index id).frame
    rw [bind_assoc] at hadd
    exact .onTypeFault hadd fun _ => .diagnose _ _
  cases node with
  | enumeration c constants => exact register (newEnumeration_makesNew _ constants) _
  | composite c isRecord bases fields members =>
      exact register (newShell_makesNew isRecord c.sizeBits _) _
  | _ => exact .pure _

theorem isCancelled_quiet : Preserves (Quiet may) isCancelled :=
  Preserves.get fun _ =>
    (Preserves.modify fun s => ⟨{ Frame.refl s with }, rfl⟩).bind fun _ => .pure _

namespace Preserves

variable {R : Session → Session → Prop} [Stepwise R] {nodes : List Node}

theorem registerFrom (checked : Preserves R isCancelled)
    (h : ∀ index, ∀ node ∈ nodes, Preserves R (registerEntry index node)) (index : Nat) :
    Preserves R (registerFrom index nodes) := by
  induction nodes generalizing index with
  | nil => exact .pure _
  | cons node rest ih =>
      refine checked.bind fun cancelled => ?_
      split
      · exact .pure _
      · exact (h index node List.mem_cons_self).bind fun _ =>
          ih (fun k n hn => h k n (List.mem_cons_of_mem _ hn)) _

theorem fillFrom (checked : Preserves R isCancelled)
    (h : ∀ index, ∀ node ∈ nodes, Preserves R (fillEntry index node)) (index : Nat) :
    Preserves R (fillFrom index nodes) := by
  induction nodes generalizing index with
  | nil => exact .pure _
  | cons node rest ih =>
      refine checked.bind fun cancelled => ?_
      split
      · exact .pure _
      · exact (h index node List.mem_cons_self).bind fun _ =>
          ih (fun k n hn => h k n (List.mem_cons_of_mem _ hn)) _

end Preserves

theorem registerFrom_frame (index : Nat) (nodes : List Node) :
    Preserves (Frame may) (registerFrom index nodes) :=
  .registerFrom isCancelled_quiet.frame (fun k n _ => registerEntry_frame k n) index

section

variable {R : (TypeId → Prop) → Session → Session → Prop} [FramesEntries R]

/-- Filling the composite of an entry changes that composite only. -/
theorem fillEntry_frame {index : Nat} {node : Node}
    (h : node.isNominal = true → ∀ id, s.typeAt? index = some id → may id) :
    Runs (fillEntry index node) s (fun _ s' => R may s s') fun _ s' => R may s s' := by
  have none : Runs (pure () : ImportM Unit) s (fun _ s' => R may s s')
      fun _ s' => R may s s' := Stepwise.refl s
  rw [fillEntry, Runs.bind_iff, Runs.get_iff]
  split
  · next c isRecord bases fields members shell hshell =>
      have hmay : may shell := h rfl shell (Session.typeAt?_eq_some.mpr hshell)
      split
      · refine fill_frame hmay ?_ ?_ ?_ s
        · exact fun _ b _ => createType_frame typeAt_frame b.type _
        · exact fun f _ => createType_frame typeAt_frame f
        · exact fun _ _ underlying _ => createType_frame typeAt_frame underlying
      · exact none
  · exact none

theorem fillFrom_frame (hall : ∀ id, may id) (index : Nat) (nodes : List Node) :
    Preserves (R may) (fillFrom index nodes) :=
  .fillFrom isCancelled_quiet.framing (fun _ _ _ _ => fillEntry_frame fun _ id _ => hall id) index

end

/-- The stage of types leaves alone all of a program but its types. -/
theorem importTypes_frame (hall : ∀ id, may id) : Preserves (Frame may) importTypes := by
  refine prepare_quiet.frame.bind fun _ => Preserves.get fun s => ?_
  refine (registerFrom_frame 0 _).bind fun registered => ?_
  split
  · have hfill : Preserves (GuardedFrame may) (fillFrom 0 s.document.types) :=
      fillFrom_frame hall 0 _
    exact fun t => Runs.mono (hfill t) (fun _ _ h => h (.inl hall)) fun _ _ h => h (.inl hall)
  · exact .pure _

end StabsImport.Import

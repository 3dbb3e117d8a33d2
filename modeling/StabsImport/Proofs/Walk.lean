import StabsImport.Proofs.Entries

/-!
# The walk over a node

The type a node describes is made by a walk over the node, which enters the table where it meets a
reference. Given the room for the height of the node, it ends with what the node describes, or with
a fault of building a type if the node describes nothing.
-/

namespace StabsImport.Import

open Document (Node Base Variable TypeReference)

variable {L : Scope} {s s' t : Session} {d : Document} {pointerSize : Int}
  {bad : Fault → Session → Prop}

/-- The entries that references in a node lead to. -/
def LeadsTo (d : Document) (node : Node) (index : Int) : Prop :=
  ∃ r, node.RefersTo r ∧ r.isVoid = false ∧ entryOf? d r = some index

theorem LeadsTo.of_part {node part : Node} {index : Int} (h : part ∈ node.parts) :
    LeadsTo d part index → LeadsTo d node index
  | ⟨r, hr, hv, he⟩ => ⟨r, hr.of_part h, hv, he⟩

/-- A sound session over a document in which some entries have their types. -/
structure Ready (d : Document) (isSet : Nat → Prop) (s : Session) : Prop where
  sound : s.Sound
  document : s.document = d
  set : ∀ k, isSet k → s.typeAt? k ≠ none

variable {isSet : Nat → Prop}

theorem Ready.after (h : Ready d isSet s) (ha : After L s s') : Ready d isSet s' where
  sound := ha.sound
  document := ha.document.trans h.document
  set k hk hn := h.set k hk (ha.unset hn)

theorem Ready.inside (h : Ready d isSet s) (r : Room) : Ready d isSet { s with room := r } where
  sound := { h.sound with }
  document := h.document
  set := h.set

/-- The room to make the type of a node, where entering an entry takes so much. -/
def nodeNeed (entering height : Nat) : Nat := entering + 4 * height + 2

/-! ## What is made -/

/-- The type is one of those there, and is what the node describes if order was kept. -/
def Creation (d : Document) (pointerSize : Int) (L : Scope) (node : Node) (hint : Json)
    (s : Session) (id : TypeId) (s' : Session) : Prop :=
  id < s'.program.arena.size ∧ Orders d pointerSize L node.serials s s' fun w =>
    ∃ e, Describes d pointerSize (s'.settled w) node hint id e

/-- The fault is one of building a type, and the node describes nothing if order was kept. -/
def Failure (d : Document) (pointerSize : Int) (L : Scope) (node : Node) (s : Session) (e : Fault)
    (s' : Session) : Prop :=
  e.isTypeFault = true ∧ Orders d pointerSize L node.serials s s' fun _ =>
    node.isBuildable pointerSize = false

/-- The type is one of those there, and is that of the entry if order was kept. -/
def Entrance (d : Document) (pointerSize : Int) (L : Scope) (index : Int) (s : Session)
    (id : TypeId) (s' : Session) : Prop :=
  id < s'.program.arena.size ∧ Orders d pointerSize L [] s s' fun w => Resolved d s' w index id

/-- Entering an entry that may be entered leads to a type. -/
def Enters (d : Document) (pointerSize : Int) (L : Scope) (isSet : Nat → Prop) (may : Int → Prop)
    (entering : Nat) (enter : Int → ImportM TypeId) : Prop :=
  ∀ ⦃s index⦄, Ready d isSet s → s.room.allows entering = true → may index →
    Yields L (enter index) s (Entrance d pointerSize L index s) NoFault

/-- The node's type can be made. -/
def Creates (d : Document) (pointerSize : Int) (L : Scope) (isSet : Nat → Prop) (entering : Nat)
    (enter : Int → ImportM TypeId) (node : Node) : Prop :=
  ∀ ⦃s hint⦄, Ready d isSet s → hint.IsName →
    s.room.allows (nodeNeed entering node.height) = true →
    Yields L (createType enter node hint) s (Creation d pointerSize L node hint s)
      (Failure d pointerSize L node s)

theorem Yields.creation_inside {calls : Nat} {m : ImportM TypeId} {node : Node} {hint : Json}
    (hr : s.room.allows calls = true)
    (h : Yields L m { s with room := s.room.inside calls }
      (Creation d pointerSize L node hint { s with room := s.room.inside calls })
      (Failure d pointerSize L node { s with room := s.room.inside calls })) :
    Yields L (Import.inside calls m) s (Creation d pointerSize L node hint s)
      (Failure d pointerSize L node s) :=
  .inside hr (h.mono (fun _ _ _ h => ⟨h.1, h.2.inside⟩) fun _ _ _ h => ⟨h.1, h.2.inside⟩)

theorem nameOr_text {name hint : Json} (hn : name.IsName) (hh : hint.IsName) (otherwise : String) :
    ∃ t, nameOr name hint otherwise = .text t := by
  unfold nameOr
  rcases hn with rfl | ⟨n, rfl⟩
  · rcases hh with rfl | ⟨h, rfl⟩
    · exact ⟨otherwise, rfl⟩
    · split
      · next h => cases h
      · split
        · exact ⟨h, rfl⟩
        · exact ⟨otherwise, rfl⟩
  · split
    · exact ⟨n, rfl⟩
    · rcases hh with rfl | ⟨h, rfl⟩
      · exact ⟨otherwise, rfl⟩
      · split
        · exact ⟨h, rfl⟩
        · exact ⟨otherwise, rfl⟩

theorem entryName_text {node : Node} (h : node.name.IsName) (index : Nat) :
    ∃ t, entryName node index = .text t :=
  nameOr_text h (.inl rfl) _

/-- What cannot be made is reported and replaced. -/
theorem undefinedFor_yields (hs : s.Sound) (hr : s.room.allows reportingCalls = true)
    {source message : String} (h : IsLoopNotice (.diagnostic source message) → L.cuts) :
    Yields L (do diagnose source message; undefined1) s
      (fun id s' => Gains s s' ∧ s'.program.arena.get? id = some (.undefinedOf 1) ∧
        .diagnostic source message ∈ s'.journal.toList) bad := by
  refine Yields.gains_ok ?_ ((Preserves.diagnose _ _).bind fun _ => .undefined1)
  refine (Yields.diagnose hs hr h).bind ?_
  rintro _ t ht rfl
  refine ht.sound.undefined1.mono ?_ fun _ _ _ h => h
  rintro _ _ - ⟨rfl, rfl⟩
  refine ⟨get?_push _ _, ?_⟩
  show Notice.diagnostic source message ∈ (s.journal.push (.diagnostic source message)).toList
  simp

section

variable {may : Int → Prop} {entering : Nat} {enter : Int → ImportM TypeId}

theorem resolveReference_yields (he : Enters d pointerSize L isSet may entering enter)
    (hn : reportingCalls ≤ entering) (hs : Ready d isSet s) (hr : s.room.allows entering = true)
    {r : TypeReference} (hname : r.typeName.IsName)
    (hmay : r.isVoid = false → ∀ index, entryOf? d r = some index → may index)
    (c : Document.Common) (hint : Json) :
    Yields L (resolveReference enter r) s (Creation d pointerSize L (.typeName c r) hint s)
      NoFault := by
  unfold resolveReference
  by_cases hv : r.isVoid = true
  · have hv' : (decide (r.typeName = .text "void") && r.number.isNone) = true := hv
    rw [if_pos hv']
    have hr : s.room.allows 3 = true := Room.allows_of_le hr (Nat.le_trans (by decide) hn)
    refine ((hs.sound.builtIn hr _).gains_ok (.builtIn _)).mono ?_ fun _ _ _ h => h
    rintro id t - ⟨hg, hid⟩
    refine ⟨Arena.lt_size_of_get? hid, .of_gains hg fun w ho => ⟨_, .void hv (ho.holds hid rfl)⟩⟩
  · have hv' : ¬ (decide (r.typeName = .text "void") && r.number.isNone) = true := hv
    have hsolid : r.isVoid = false := by simpa using hv
    rw [if_neg hv']
    refine (Yields.need hs.sound (Room.allows_of_le hr (Nat.le_trans (by decide) hn))).bind ?_
    rintro _ t - rfl
    refine (hs.sound.lookUp hname).bind ?_
    rintro _ u hu ⟨rfl, hg⟩
    have hs' := hs.after hu
    rw [hs.document]
    split
    · next index hi =>
        refine (he hs' (by rw [hu.room]; exact hr) (hmay hsolid index hi)).mono ?_ fun _ _ _ h => h
        rintro id v - ⟨hid, ho⟩
        exact ⟨hid, (Orders.after_gains hg ho).mono fun w ho hres =>
          ho.describes_reference hsolid hi hres c hint⟩
    · next hi =>
        refine (undefinedFor_yields hs'.sound ?_ fun h => absurd h ?_).mono ?_ fun _ _ _ h => h
        · rw [hu.room]
          exact Room.allows_of_le hr hn
        · refine not_isLoopNotice_of_head ?_
          simp [String.toList_append]
        · rintro id v - ⟨hg', hid, -⟩
          exact ⟨Arena.lt_size_of_get? hid, .of_gains (hg.trans hg') fun w ho =>
            ho.describes_missing hsolid hi hid c hint⟩

/-- A variable gets what stands for its type, or a placeholder if there is none. -/
theorem variableType_yields {action : ImportM TypeId} {P : TypeId → Session → Prop}
    {N : Fault → Session → Prop} (hr : s.room.allows reportingCalls = true)
    (h : Yields L action s P N) (hN : ∀ e t, N e t → e.isTypeFault = true) :
    Yields L (variableType action) s
      (fun id s' => id < s'.program.arena.size ∧
        ((∃ own t, t.Sound ∧ P own t ∧ Gains t s' ∧ s'.all.StandsFor (t.program.arena.extent own)
          (t.program.arena.extent own).sized own id) ∨
        ∃ e t, N e t ∧ Gains t s' ∧ s'.program.arena.get? id = some (.undefinedOf 1))) bad := by
  refine Yields.onTypeFault (P := N) (h.bind ?_) hN ?_
  · intro own t ht hown
    refine (ht.sound.sizedType own).mono ?_ fun _ _ _ h => h
    rintro id u - ⟨hg, hstands, hext⟩
    refine ⟨?_, .inl ⟨own, t, ht.sound, hown, hg, hstands⟩⟩
    refine Arena.lt_size_of_length_pos ?_
    rw [← Arena.length_extent, hext]
    exact Extent.length_sized_pos _
  · intro e t ht he
    refine (undefinedFor_yields ht.sound ?_ fun h => absurd h ?_).mono ?_ fun _ _ _ h => h
    · rw [ht.room]
      exact hr
    · refine not_isLoopNotice_of_head ?_
      simp [String.toList_append]
    · rintro id u - ⟨hg, hid, -⟩
      exact ⟨Arena.lt_size_of_get? hid, .inr ⟨e, t, he, hg, hid⟩⟩

/-- So does a parameter, for which its node is to be looked at. -/
theorem parameter_yields {v : Variable} (hs : Ready d isSet s) (hn : reportingCalls ≤ entering)
    (hr : s.room.allows (nodeNeed entering v.type.height) = true)
    (hv : Creates d pointerSize L isSet entering enter v.type) :
    Yields L (variableType (createType enter v.type .null)) s
      (fun id s' => id < s'.program.arena.size ∧
        Orders d pointerSize L v.type.serials s s' fun w => ParameterIs pointerSize (s'.settled w)
          (Describes d pointerSize (s'.settled w)) v id) bad := by
  refine (variableType_yields (Room.allows_of_le hr (by unfold nodeNeed; omega))
    (hv hs (.inl rfl) hr) fun _ _ h => h.1).mono ?_ fun _ _ _ h => h
  rintro id u - ⟨hid, ⟨own, t, ht, hown, hg, hstands⟩ | ⟨e, t, he, hg, hph⟩⟩
  · refine ⟨hid, hown.2.gains hg fun w ho ho' => ?_⟩
    rintro ⟨e, hd⟩
    rw [ho.extent_eq ht hd] at hstands
    rw [ParameterIs, if_pos hd.isBuildable]
    exact ⟨own, e, hd.mono (hg.settled w), ho'.stands hstands⟩
  · refine ⟨hid, he.2.gains hg fun w _ ho' hb => ?_⟩
    rw [ParameterIs, if_neg (by rw [hb]; nofun)]
    exact ho'.holds hph rfl

theorem parameterTypes_yields {vs : List Variable} {height : Nat} (hs : Ready d isSet s)
    (hn : reportingCalls ≤ entering) (hr : s.room.allows (nodeNeed entering height) = true)
    (hc : ∀ v ∈ vs, v.type.height ≤ height ∧ Creates d pointerSize L isSet entering enter v.type) :
    Yields L (parameterTypes enter vs) s
      (fun ids s' => (∀ id ∈ ids, id < s'.program.arena.size) ∧
        Orders d pointerSize L (Node.serialsOfVariables vs) s s' fun w =>
          List.Forall₂ (ParameterIs pointerSize (s'.settled w)
            (Describes d pointerSize (s'.settled w))) vs ids) bad := by
  induction vs generalizing s with
  | nil => exact .pure hs.sound ⟨nofun, .of_gains (.refl s) fun _ _ => .nil⟩
  | cons v rest ih =>
      obtain ⟨hh, hv⟩ := hc v List.mem_cons_self
      have hrest := fun w hw => hc w (List.mem_cons_of_mem _ hw)
      simp only [parameterTypes]
      refine Yields.bind (parameter_yields hs hn ?_ hv) ?_
      · exact Room.allows_of_le hr (by unfold nodeNeed; omega)
      · rintro id t ht ⟨hid, ho⟩
        refine (ih (hs.after ht) (by rw [ht.room]; exact hr) hrest).bind ?_
        rintro ids u hu ⟨hids, ho'⟩
        refine .pure hu.sound ⟨fun k hk => ?_, ?_⟩
        · rcases List.mem_cons.mp hk with rfl | hk
          · exact hu.lt_size hid
          · exact hids k hk
        · exact ho.trans ho' hu.journal_prefix fun w within hp hps =>
            .cons (hp.mono within fun _ _ _ _ hd => hd.mono within) hps

/-! ## Members -/

/-- The members were placed, or refused with a fault of building a type. -/
def FillFault (d : Document) (pointerSize : Int) (L : Scope) (shell : TypeId) (own : List Nat)
    (ms : List Member) (s : Session) (e : Fault) (s' : Session) : Prop :=
  e.isTypeFault = true ∧ Fills d pointerSize L shell own ms s s'

theorem Yields.fills_inside {calls : Nat} {m : ImportM Unit} {shell : TypeId} {own : List Nat}
    {ms : List Member} (hr : s.room.allows calls = true)
    (h : Yields L m { s with room := s.room.inside calls }
      (fun _ s' => Fills d pointerSize L shell own ms { s with room := s.room.inside calls } s')
      (FillFault d pointerSize L shell own ms { s with room := s.room.inside calls })) :
    Yields L (Import.inside calls m) s (fun _ s' => Fills d pointerSize L shell own ms s s')
      (FillFault d pointerSize L shell own ms s) :=
  .inside hr (h.mono (fun _ _ _ h => h.inside) fun _ _ _ h => ⟨h.1, h.2.inside⟩)

/-- A member is placed once its type was made, or it is left out. -/
theorem placing_yields (shell : TypeId) {m : Member} {type : ImportM TypeId}
    {place : TypeId → ImportM Unit} {hint : Json}
    (htype : Yields L type s (Creation d pointerSize L m.node hint s)
      (Failure d pointerSize L m.node s))
    (hhint : ∀ {name c}, s.program.arena.get? shell = some (.named name (.composite c)) →
      hint = m.hint name)
    (hplace : ∀ id t, After L s t → id < t.program.arena.size →
      Yields L (place id) t (fun _ u => Puts m shell id t u)
        fun e u => e.isTypeFault = true ∧ Puts m shell id t u) :
    Yields L (type >>= place) s (fun _ s' => Fills d pointerSize L shell m.node.serials [m] s s')
      (FillFault d pointerSize L shell m.node.serials [m] s) := by
  refine Yields.bind (htype.mono (fun _ _ _ h => h) fun e t _ h => ⟨h.1, .leftOut h.2 shell⟩) ?_
  rintro id t ht ⟨hid, ho⟩
  have fills {u : Session} (hu : After L t u) (hp : Puts m shell id t u) :
      Fills d pointerSize L shell m.node.serials [m] s u :=
    .placed ho ht.sound hhint hp hu.journal_prefix
  exact (hplace id t ht hid).mono (fun _ _ hu h => fills hu h) fun _ _ hu h => ⟨h.1, fills hu h.2⟩

/-- What is refused is reported, and no more comes of it. -/
theorem reporting_yields {shell : TypeId} {own : List Nat} {ms : List Member} {m : ImportM Unit}
    {report : Fault → ImportM Unit}
    (h : Yields L m s (fun _ s' => Fills d pointerSize L shell own ms s s')
      (FillFault d pointerSize L shell own ms s))
    (hreport : ∀ e t, After L s t → Yields L (report e) t (fun _ _ => True) bad)
    (hgains : ∀ e, Preserves Gains (report e)) :
    Yields L (onTypeFault m report) s (fun _ s' => Fills d pointerSize L shell own ms s s') bad := by
  refine Yields.onTypeFault h (fun _ _ h => h.1) ?_
  rintro e t ht ⟨_, hf⟩
  refine ((hreport e t ht).gains_ok (hgains e)).mono ?_ fun _ _ _ h => h
  rintro _ u - ⟨hg, -⟩
  exact hf.gains hg

/-- Base classes are placed in a structure. -/
theorem fillBases_yields {bases : List Base} {height index : Nat} {shell : TypeId}
    (hs : Ready d isSet s) (hn : reportingCalls ≤ entering) (hshell : s.IsComposite shell .record)
    (hr : s.room.allows (nodeNeed entering height) = true)
    (hc : ∀ b ∈ bases, b.type.height ≤ height ∧
      Creates d pointerSize L isSet entering enter b.type) :
    Yields L (fillBases enter shell index bases) s (fun _ s' => Fills d pointerSize L shell
      (Node.serialsOfBases bases) (baseMembers index bases) s s') bad := by
  induction bases generalizing s index with
  | nil => exact .pure hs.sound (.nil shell)
  | cons b rest ih =>
      obtain ⟨hh, hb⟩ := hc b List.mem_cons_self
      have hrest := fun w hw => hc w (List.mem_cons_of_mem _ hw)
      have room : s.room.allows (nodeNeed entering b.type.height) = true :=
        Room.allows_of_le hr (by unfold nodeNeed; omega)
      simp only [fillBases]
      refine Yields.bind (reporting_yields (placing_yields shell (m := .base index b.offset b.type)
        (hb hs (.inl rfl) room) (fun _ => rfl) ?_) ?_ fun _ => .reportBase _ _ _) ?_
      · intro id t ht hid
        exact ht.sound.placeBase (ht.isComposite hshell) hid index b.offset b.type
      · intro e t ht
        refine ht.sound.reportBase ?_ shell index e
        rw [ht.room]
        exact Room.allows_of_le hr (by unfold nodeNeed; omega)
      · intro _ t ht hf
        refine (ih (hs.after ht) (ht.isComposite hshell) (by rw [ht.room]; exact hr) hrest).mono ?_
          fun _ _ _ h => h
        intro _ u hu hf'
        exact hf.append hf' hu.journal_prefix

/-- What it takes to place a field: its type, and for a bit field the underlying one. -/
def CreatesField (d : Document) (pointerSize : Int) (L : Scope) (isSet : Nat → Prop)
    (entering : Nat) (enter : Int → ImportM TypeId) (field : Node) : Prop :=
  match field with
  | .bitField _ _ underlying => Creates d pointerSize L isSet entering enter underlying
  | field => Creates d pointerSize L isSet entering enter field

theorem CreatesField.creates {field : Node}
    (h : CreatesField d pointerSize L isSet entering enter field)
    (hb : ∀ c o u, field ≠ .bitField c o u) :
    Creates d pointerSize L isSet entering enter field := by
  cases field with
  | bitField c o u => exact absurd rfl (hb c o u)
  | _ => exact h

theorem Creates.field {field : Node} (h : Creates d pointerSize L isSet entering enter field)
    (hp : ∀ part ∈ field.parts, Creates d pointerSize L isSet entering enter part) :
    CreatesField d pointerSize L isSet entering enter field := by
  cases field with
  | bitField c o u => exact hp u (List.mem_singleton_self u)
  | _ => exact h

theorem fieldMember_of_ne {f : Node} (index : Nat) (hb : ∀ c o u, f ≠ .bitField c o u) :
    fieldMember index f = .field index f := by
  cases f with
  | bitField c o u => exact absurd rfl (hb c o u)
  | _ => rfl

theorem fillFields_yields {fields : List Node} {height index : Nat} {shell : TypeId}
    {kind : CompositeKind} (hs : Ready d isSet s) (hn : reportingCalls ≤ entering)
    (hshell : s.IsComposite shell kind)
    (hr : s.room.allows (2 + nodeNeed entering height) = true)
    (hc : ∀ f ∈ fields, f.height ≤ height ∧ CreatesField d pointerSize L isSet entering enter f) :
    Yields L (fillFields enter shell index fields) s (fun _ s' => Fills d pointerSize L shell
      (Node.serialsOfNodes fields) (fieldMembers index fields) s s') bad := by
  induction fields generalizing s index with
  | nil =>
      rw [fillFields]
      exact .pure hs.sound (.nil shell)
  | cons f rest ih =>
      obtain ⟨hh, hf⟩ := hc f List.mem_cons_self
      have hrest := fun w hw => hc w (List.mem_cons_of_mem _ hw)
      have report (name : Json) (e : Fault) (t : Session) (ht : After L s t) :
          Yields L (reportField shell name e) t (fun _ _ => True) bad := by
        refine ht.sound.reportField ?_ shell name e
        rw [ht.room]
        exact Room.allows_of_le hr (by unfold nodeNeed; omega)
      have next (u : PUnit) (t : Session) (ht : After L s t)
          (hf : Fills d pointerSize L shell f.serials [fieldMember index f] s t) :
          Yields L (fillFields enter shell (index + 1) rest) t (fun _ s' => Fills d pointerSize L
            shell (Node.serialsOfNodes (f :: rest)) (fieldMembers index (f :: rest)) s s') bad := by
        refine (ih (hs.after ht) (ht.isComposite hshell) (by rw [ht.room]; exact hr) hrest).mono ?_
          fun _ _ _ h => h
        intro _ v hv hf'
        exact hf.append hf' hv.journal_prefix
      rcases f.isBitField_or with ⟨c, offsetBits, underlying, rfl⟩ | hb
      · have hu : underlying.height < height :=
          Nat.lt_of_lt_of_le (Node.height_lt_of_mem_parts (by simp [Node.parts])) hh
        have room : s.room.allows (2 + nodeNeed entering underlying.height) = true :=
          Room.allows_of_le hr (by unfold nodeNeed; omega)
        simp only [fillFields]
        refine Yields.bind (reporting_yields (Yields.fills_inside (Room.allows_of_le hr (by omega))
          (placing_yields shell (m := .bits index c offsetBits underlying)
            (hf (hs.inside _) (.inl rfl) (Room.allows_inside room)) (fun _ => rfl) ?_))
          (report _) fun _ => .reportField _ _ _) next
        intro id t ht hid
        exact ht.sound.placeBitField (ht.isComposite hshell) index c offsetBits underlying
      · have room : s.room.allows (1 + nodeNeed entering f.height) = true :=
          Room.allows_of_le hr (by unfold nodeNeed; omega)
        rw [fieldMember_of_ne index hb] at next
        rw [fillFields.eq_3 _ _ _ _ _ hb]
        refine Yields.bind (reporting_yields (Yields.fills_inside (Room.allows_of_le hr (by omega))
          ?_) (report _) fun _ => .reportField _ _ _) next
        refine Yields.bind ((hs.inside _).sound.typeName shell) ?_
        rintro shown t - ⟨rfl, hshown⟩
        refine placing_yields shell (m := .field index f)
          ((hf.creates hb) (hs.inside _) (.inr ⟨_, rfl⟩) (Room.allows_inside room)) ?_ ?_
        · intro name c hg
          rw [hshown hg]
          rfl
        · intro id t ht hid
          exact ht.sound.placeField (ht.isComposite hshell) hid index f

/-- The members of a node are put into a composite of the node's kind. -/
theorem fillMembers_yields {isRecord : Bool} {bases : List Base} {fields : List Node}
    {height : Nat} {shell : TypeId} (hs : Ready d isSet s) (hn : reportingCalls ≤ entering)
    (hshell : s.IsComposite shell (kindOf isRecord))
    (hr : s.room.allows (2 + nodeNeed entering height) = true)
    (hb : isRecord = true → ∀ b ∈ bases, b.type.height ≤ height ∧
      Creates d pointerSize L isSet entering enter b.type)
    (hf : ∀ f ∈ fields, f.height ≤ height ∧
      CreatesField d pointerSize L isSet entering enter f) :
    Yields L (do
      if isRecord then fillBases enter shell 0 bases
      fillFields enter shell 0 fields) s (fun _ s' => Fills d pointerSize L shell
        ((if isRecord then Node.serialsOfBases bases else []) ++ Node.serialsOfNodes fields)
        (membersOf isRecord bases fields) s s') bad := by
  cases isRecord with
  | false => exact fillFields_yields hs hn hshell hr hf
  | true =>
      refine Yields.bind (fillBases_yields hs hn hshell ?_ (hb rfl)) ?_
      · exact Room.allows_of_le hr (by omega)
      · intro _ t ht hfill
        refine (fillFields_yields (hs.after ht) hn (ht.isComposite hshell)
          (by rw [ht.room]; exact hr) hf).mono ?_ fun _ _ _ h => h
        intro _ u hu hfill'
        exact hfill.append hfill' hu.journal_prefix

/-- What it takes to fill a composite of a node's kind is its members. -/
theorem fill_of_creates {isRecord : Bool} {bases : List Base} {fields : List Node}
    {shell : TypeId} (hs : Ready d isSet s) (hn : reportingCalls ≤ entering)
    (hshell : s.IsComposite shell (kindOf isRecord))
    (hr : s.room.allows (1 + (2 + nodeNeed entering
      (max (Node.heightOfBases bases) (Node.heightOfNodes fields)))) = true)
    (hb : isRecord = true → ∀ b ∈ bases, Creates d pointerSize L isSet entering enter b.type)
    (hf : ∀ f ∈ fields, CreatesField d pointerSize L isSet entering enter f) :
    Yields L (fill enter shell isRecord bases fields) s
      (fun _ s' => Fills d pointerSize L shell
        ((if isRecord then Node.serialsOfBases bases else []) ++ Node.serialsOfNodes fields)
        (membersOf isRecord bases fields) s s') bad := by
  refine Yields.inside (Room.allows_of_le hr (by omega)) ?_
  refine (fillMembers_yields (hs.inside (s.room.inside 1)) hn hshell (Room.allows_inside hr)
    (fun h b hm => ⟨?_, hb h b hm⟩) (fun f hm => ⟨?_, hf f hm⟩)).mono ?_ fun _ _ _ h => h
  · exact Nat.le_trans (Node.height_le_heightOfBases hm) (Nat.le_max_left _ _)
  · exact Nat.le_trans (Node.height_le_heightOfNodes hm) (Nat.le_max_right _ _)
  · intro _ _ _ hfill
    exact hfill.inside

/-! ## Nodes, one kind at a time -/

def returnTypeOf (enter : Int → ImportM TypeId) : Option Node → ImportM TypeId
  | some node => createType enter node .null
  | none => builtIn .void

def formalTypesOf (enter : Int → ImportM TypeId) : Option (List Variable) → ImportM (List TypeId)
  | some formals => inside 2 (parameterTypes enter formals)
  | none => pure []

theorem createType_functionType (enter : Int → ImportM TypeId) (f : Document.FunctionType)
    (hint : Json) :
    createType enter (.functionType f) hint = inside 2 do
      match ← cached? f.common.serial with
      | some id => return id
      | none =>
          let returns ← returnTypeOf enter f.returnType
          let parameters ← formalTypesOf enter f.parameters
          let id ← newSignature (nameOr f.common.name hint "__anon_function") returns parameters
          cacheNode f.common.serial id
          return id := by
  obtain ⟨c, returnType, parameters, _, _, _⟩ := f
  rw [createType]
  congr
  funext known
  cases known with
  | some id => rfl
  | none => cases returnType <;> cases parameters <;> rfl

section

variable {c : Document.Common}

theorem creates_typeName (he : Enters d pointerSize L isSet may entering enter)
    (hn : reportingCalls ≤ entering) {r : TypeReference} (ht : (Node.typeName c r).WellTyped)
    (hmay : ∀ index, LeadsTo d (.typeName c r) index → may index) :
    Creates d pointerSize L isSet entering enter (.typeName c r) := by
  intro s hint hs _ hr
  have hr : s.room.allows (2 + entering) = true :=
    Room.allows_of_le hr (by simp only [nodeNeed, Node.height]; omega)
  rw [createType]
  refine Yields.creation_inside (Room.allows_of_le hr (by omega)) (Yields.weaken ?_)
  refine resolveReference_yields he hn (hs.inside _) (Room.allows_inside hr) ht.typed.2 ?_ c hint
  exact fun hv index hi => hmay index ⟨r, Node.refersTo_typeName c r, hv, hi⟩

theorem creates_builtIn (hn : reportingCalls ≤ entering) (b : Document.BuiltInClass) :
    Creates d pointerSize L isSet entering enter (.builtIn c b) := by
  intro s hint hs _ hr
  have hn : 11 ≤ entering := hn
  have hr : s.room.allows (1 + 3) = true :=
    Room.allows_of_le hr (by simp only [nodeNeed, Node.height]; omega)
  rw [createType]
  refine Yields.creation_inside (Room.allows_of_le hr (by omega)) ?_
  refine (((hs.inside _).sound.builtIn (Room.allows_inside hr) b).gains_ok (.builtIn b)).mono ?_
    fun _ _ _ h => h
  rintro id t - ⟨hg, hid⟩
  refine ⟨Arena.lt_size_of_get? hid, .of_gains hg fun w ho => ⟨_, .builtIn (ho.holds hid ?_)⟩⟩
  cases b <;> rfl

theorem creates_pointer {isPointer : Bool} {target : Node} (hn : reportingCalls ≤ entering)
    (part : Creates d pointerSize L isSet entering enter target) :
    Creates d pointerSize L isSet entering enter (.pointer c isPointer target) := by
  intro s hint hs _ hr
  have hn : 11 ≤ entering := hn
  have hr : s.room.allows (1 + nodeNeed entering target.height) = true :=
    Room.allows_of_le hr (by simp only [nodeNeed, Node.height]; omega)
  have hr' := Room.allows_inside hr
  rw [createType]
  refine Yields.creation_inside (Room.allows_of_le hr (by omega)) ?_
  refine Yields.bind (part (hs.inside _) (.inl rfl) hr') ?_
  rintro own t ha ⟨hown, ho⟩
  have ht : t.room.allows 3 = true := by
    rw [ha.room]
    exact Room.allows_of_le hr' (by unfold nodeNeed; omega)
  refine ((ha.sound.pointerTo ht hown).gains_ok (.pointerTo own)).mono ?_ fun _ _ _ h => h
  rintro id u - ⟨hg, hid⟩
  refine ⟨Arena.lt_size_of_get? hid, ho.gains hg fun w hot hou => ?_⟩
  rintro ⟨e, hd⟩
  rw [hot.pointers] at hid
  exact ⟨_, .pointer (hd.mono (hg.settled w)) (hou.holds hid rfl)⟩

theorem creates_array {element : Node} {count : Int} (hn : reportingCalls ≤ entering)
    (part : Creates d pointerSize L isSet entering enter element) :
    Creates d pointerSize L isSet entering enter (.array c element count) := by
  intro s hint hs _ hr
  have hn : 11 ≤ entering := hn
  have hr : s.room.allows (1 + nodeNeed entering element.height) = true :=
    Room.allows_of_le hr (by simp only [nodeNeed, Node.height]; omega)
  have hr' := Room.allows_inside hr
  rw [createType]
  refine Yields.creation_inside (Room.allows_of_le hr (by omega)) ?_
  refine Yields.bind ((part (hs.inside _) (.inl rfl) hr').mono (fun _ _ _ h => h) ?_) ?_
  · intro e t _ h
    refine ⟨h.1, h.2.mono fun w _ hb => ?_⟩
    simp only [Node.isBuildable, hb, Bool.false_and]
  rintro own t ha ⟨hown, ho⟩
  have ht : t.room.allows 3 = true := by
    rw [ha.room]
    exact Room.allows_of_le hr' (by unfold nodeNeed; omega)
  refine ((ha.sound.arrayOf ht own count).preserved (R := Gains) (.arrayOf own count)).mono ?_ ?_
  · rintro id u - ⟨hg, el, hid, hcount, hstands⟩
    refine ⟨Arena.lt_size_of_get? hid, ho.gains hg fun w hot hou => ?_⟩
    rintro ⟨e, hd⟩
    rw [hot.extent_eq ha.sound hd] at hstands
    exact ⟨_, .array (hd.mono (hg.settled w)) (hou.stands hstands) hcount (hou.holds hid rfl)⟩
  · rintro e u - ⟨hg, he, hcount⟩
    refine ⟨he, ho.gains hg fun _ _ _ _ => ?_⟩
    simp only [Node.isBuildable, Bool.and_eq_false_iff, decide_eq_false_iff_not]
    exact .inr (Int.not_le.mpr hcount)

theorem creates_bitField {offsetBits : Int} {underlying : Node}
    (part : Creates d pointerSize L isSet entering enter underlying) :
    Creates d pointerSize L isSet entering enter (.bitField c offsetBits underlying) := by
  intro s hint hs _ hr
  have hr : s.room.allows (1 + nodeNeed entering underlying.height) = true :=
    Room.allows_of_le hr (by simp only [nodeNeed, Node.height]; omega)
  rw [createType]
  refine Yields.creation_inside (Room.allows_of_le hr (by omega)) ?_
  refine (part (hs.inside _) (.inl rfl) (Room.allows_inside hr)).mono ?_ fun _ _ _ h => h
  rintro id t - ⟨hid, ho⟩
  refine ⟨hid, ho.mono fun w _ => ?_⟩
  rintro ⟨e, hd⟩
  exact ⟨e, .bitField hd⟩

theorem creates_memberPointer {classType memberType : Option Node}
    (hn : reportingCalls ≤ entering) :
    Creates d pointerSize L isSet entering enter (.memberPointer c classType memberType) := by
  intro s hint hs _ hr
  have hn : 11 ≤ entering := hn
  have hr : s.room.allows (1 + 2) = true :=
    Room.allows_of_le hr (by simp only [nodeNeed, Node.height]; omega)
  have hs' := hs.inside (s.room.inside 1)
  rw [createType]
  refine Yields.creation_inside (Room.allows_of_le hr (by omega)) ?_
  refine (Yields.need hs'.sound (Room.allows_inside hr)).bind ?_
  rintro _ t - rfl
  refine (Yields.pointerSize hs'.sound).bind ?_
  rintro _ t - ⟨rfl, rfl⟩
  refine ((hs'.sound.newUndefined _).preserved (R := Gains) (.newUndefined _)).mono ?_ ?_
  · rintro id t - ⟨hg, hpos, hid⟩
    refine ⟨Arena.lt_size_of_get? hid, .of_gains hg fun w ho => ?_⟩
    rw [hg.pointerSize.symm.trans ho.pointers] at hid hpos
    exact ⟨_, .memberPointer hpos (ho.holds hid rfl)⟩
  · rintro e t - ⟨hg, he, hneg⟩
    refine ⟨he, .of_gains hg fun w ho => ?_⟩
    rw [hg.pointerSize.symm.trans ho.pointers] at hneg
    simp only [Node.isBuildable, decide_eq_false_iff_not]
    exact Int.not_le.mpr hneg

theorem creates_enumeration {constants : List (Int × Json)} (hn : reportingCalls ≤ entering)
    (ht : (Node.enumeration c constants).WellTyped) :
    Creates d pointerSize L isSet entering enter (.enumeration c constants) := by
  intro s hint hs hhint hr
  have hr : s.room.allows (1 + reportingCalls) = true :=
    Room.allows_of_le hr (by simp only [nodeNeed, Node.height]; omega)
  have hs' := hs.inside (s.room.inside 1)
  rw [createType]
  refine Yields.creation_inside (Room.allows_of_le hr (by omega)) ?_
  refine (hs'.sound.cached? c.serial).bind ?_
  rintro _ t - ⟨rfl, rfl⟩
  split
  · next id hc =>
      exact .pure hs'.sound ⟨hs.sound.nodes hc, .of_cached hc (List.mem_singleton_self _)⟩
  · obtain ⟨name, hname⟩ := nameOr_text ht.typed.1 hhint "__anon_enum"
    rw [hname]
    refine ((hs'.sound.newEnumeration (Room.allows_inside hr) name ht.typed.2).gains_ok
      (.newEnumeration _ _)).bind ?_
    rintro id u hu ⟨hg, hid⟩
    have hlt := Arena.lt_size_of_get? hid
    refine (hu.sound.cacheNode hlt c.serial).bind ?_
    rintro _ v hv rfl
    refine .pure hv.sound ⟨hlt, Orders.after_gains hg ?_⟩
    refine (Orders.cacheNode (Q := fun _ => True) _ _ fun _ => trivial).mono fun w ho _ => ?_
    rw [← hname] at hid
    exact ⟨_, .enumeration (ho.holds hid rfl)⟩

/-- What a function returns is described by its node, or is void. -/
theorem returnType_yields {returnType : Option Node} (hs : Ready d isSet s)
    (hn : reportingCalls ≤ entering)
    (hr : s.room.allows (nodeNeed entering (Node.heightOfOptional returnType)) = true)
    (part : ∀ n ∈ returnType, Creates d pointerSize L isSet entering enter n) :
    Yields L (returnTypeOf enter returnType) s
      (fun id s' => id < s'.program.arena.size ∧
        Orders d pointerSize L (Node.serialsOfOption returnType) s s' fun w =>
          ReturnIs (s'.settled w) (Describes d pointerSize (s'.settled w)) returnType id)
      fun e s' => e.isTypeFault = true ∧
        Orders d pointerSize L (Node.serialsOfOption returnType) s s' fun _ =>
          returnType.all (·.isBuildable pointerSize) = false := by
  have hn : 11 ≤ entering := hn
  cases returnType with
  | none =>
      have hr : s.room.allows 3 = true :=
        Room.allows_of_le hr (by simp only [nodeNeed]; omega)
      refine ((hs.sound.builtIn hr _).gains_ok (.builtIn _)).mono ?_ fun _ _ _ h => h
      rintro id t - ⟨hg, hid⟩
      exact ⟨Arena.lt_size_of_get? hid, .of_gains hg fun w ho => ho.holds hid rfl⟩
  | some node => exact part node rfl hs (.inl rfl) hr

theorem formals_yields {parameters : Option (List Variable)} (hs : Ready d isSet s)
    (hn : reportingCalls ≤ entering)
    (hr : s.room.allows (2 + nodeNeed entering (Node.heightOfParameters parameters)) = true)
    (part : ∀ v ∈ parameters.getD [], Creates d pointerSize L isSet entering enter v.type) :
    Yields L (formalTypesOf enter parameters) s
      (fun ids s' => (∀ id ∈ ids, id < s'.program.arena.size) ∧
        Orders d pointerSize L (Node.serialsOfParameters parameters) s s' fun w =>
          List.Forall₂ (ParameterIs pointerSize (s'.settled w)
            (Describes d pointerSize (s'.settled w))) (parameters.getD []) ids) bad := by
  cases parameters with
  | none => exact .pure hs.sound ⟨nofun, .of_gains (.refl s) fun _ _ => .nil⟩
  | some vs =>
      refine Yields.inside (Room.allows_of_le hr (by omega)) ?_
      refine (parameterTypes_yields (hs.inside _) hn (Room.allows_inside hr) fun v hv =>
        ⟨Node.height_le_heightOfVariables hv, part v hv⟩).mono ?_ fun _ _ _ h => h
      rintro ids t - ⟨hids, ho⟩
      exact ⟨hids, ho.inside⟩

theorem creates_functionType {f : Document.FunctionType} (hn : reportingCalls ≤ entering)
    (hname : f.common.name.IsName)
    (hret : ∀ n ∈ f.returnType, Creates d pointerSize L isSet entering enter n)
    (hpar : ∀ v ∈ f.parameters.getD [], Creates d pointerSize L isSet entering enter v.type) :
    Creates d pointerSize L isSet entering enter (.functionType f) := by
  intro s hint hs hhint hr
  have hn' : 11 ≤ entering := hn
  rw [createType_functionType]
  obtain ⟨c, returnType, parameters, m, k, v⟩ := f
  have hr : s.room.allows (2 + (2 + nodeNeed entering (max (Node.heightOfOptional returnType)
      (Node.heightOfParameters parameters)))) = true :=
    Room.allows_of_le hr (by simp only [nodeNeed, Node.height]; omega)
  have room {k : Nat} (hk : k ≤ 2 + nodeNeed entering (max (Node.heightOfOptional returnType)
      (Node.heightOfParameters parameters))) : (s.room.inside 2).allows k = true :=
    Room.allows_of_le (Room.allows_inside hr) hk
  have hroom : (s.room.inside 2).allows
      (nodeNeed entering (Node.heightOfOptional returnType)) = true :=
    room (by unfold nodeNeed; omega)
  have hroom' : (s.room.inside 2).allows
      (2 + nodeNeed entering (Node.heightOfParameters parameters)) = true :=
    room (by unfold nodeNeed; omega)
  have hs' := hs.inside (s.room.inside 2)
  refine Yields.creation_inside (Room.allows_of_le hr (by omega)) ?_
  refine (hs'.sound.cached? c.serial).bind ?_
  rintro _ t - ⟨rfl, rfl⟩
  split
  · next id hc => exact .pure hs'.sound ⟨hs.sound.nodes hc, .of_cached hc List.mem_cons_self⟩
  -- the numbers of the parts and then that of the node itself
  have hperm : (Node.serialsOfOption returnType ++ Node.serialsOfParameters parameters ++
      [c.serial]).Perm (Node.functionType ⟨c, returnType, parameters, m, k, v⟩).serials :=
    List.perm_append_comm
  refine Yields.bind ((returnType_yields hs' hn hroom hret).mono
    (fun _ _ _ h => h) ?_) ?_
  · rintro e t - ⟨he, ho⟩
    refine ⟨he, (((ho.left _).left _).of_perm hperm).mono fun w _ hb => ?_⟩
    cases returnType with
    | none => cases hb
    | some n => exact hb
  rintro returns t ht ⟨hreturns, hot⟩
  refine Yields.bind (formals_yields (hs'.after ht) hn (by rw [ht.room]; exact hroom') hpar) ?_
  rintro ids u hu ⟨hids, hou⟩
  obtain ⟨name, hname⟩ := nameOr_text hname hhint "__anon_function"
  have hname : nameOr c.name hint "__anon_function" = .text name := hname
  rw [hname]
  refine Yields.bind ((hu.sound.newSignature ?_ name (hu.lt_size hreturns) hids).gains_ok
    (.newSignature _ _ _)) ?_
  · rw [hu.room, ht.room]
    exact room (by unfold nodeNeed; omega)
  rintro id x hx ⟨hg, hid⟩
  have hlt := Arena.lt_size_of_get? hid
  refine (hx.sound.cacheNode hlt c.serial).bind ?_
  rintro _ y hy rfl
  refine .pure hy.sound ⟨hlt, ?_⟩
  have hparts := (hot.trans hou hu.journal_prefix fun w within hp hq =>
    And.intro (hp.mono within fun _ _ _ _ hd => hd.mono within) hq).gains hg
    fun w _ _ h => h
  have hcache : Orders d pointerSize L [c.serial] x
      { x with cache.nodes := x.cache.nodes.put c.serial id } fun _ => True :=
    .cacheNode _ _ fun _ => trivial
  refine ((hparts.trans hcache hy.journal_prefix fun w _ h _ => h).of_perm hperm).mono ?_
  rintro w ho ⟨hret, hpars⟩
  rw [← hname] at hid
  have within : (u.settled w).Within
      (Session.settled { x with cache.nodes := x.cache.nodes.put c.serial id } w) :=
    hg.settled w
  refine ⟨_, .functionType (fun _ _ _ _ hd => hd) (hret.mono within fun _ _ _ _ hd =>
    hd.mono within) (hpars.imp fun _ _ hp => hp.mono within fun _ _ _ _ hd => hd.mono within)
    (ho.holds hid rfl)⟩

theorem creates_composite {isRecord : Bool} {bases : List Base} {fields members : List Node}
    (hn : reportingCalls ≤ entering)
    (ht : (Node.composite c isRecord bases fields members).WellTyped)
    (hb : isRecord = true → ∀ b ∈ bases, Creates d pointerSize L isSet entering enter b.type)
    (hf : ∀ f ∈ fields, CreatesField d pointerSize L isSet entering enter f) :
    Creates d pointerSize L isSet entering enter (.composite c isRecord bases fields members) := by
  intro s hint hs hhint hr
  have hn' : 11 ≤ entering := hn
  have hr : s.room.allows (1 + (1 + (2 + nodeNeed entering (max (Node.heightOfBases bases)
      (Node.heightOfNodes fields))))) = true :=
    Room.allows_of_le hr (by simp only [nodeNeed, Node.height]; omega)
  have hr' : ({ s with room := s.room.inside 1 } : Session).room.allows (1 + (2 + nodeNeed entering
      (max (Node.heightOfBases bases) (Node.heightOfNodes fields)))) = true :=
    Room.allows_inside hr
  have hs' := hs.inside (s.room.inside 1)
  rw [createType]
  refine Yields.creation_inside (Room.allows_of_le hr (by omega)) ?_
  generalize ({ s with room := s.room.inside 1 } : Session) = t at hs' hr' ⊢
  refine (hs'.sound.cached? c.serial).bind ?_
  rintro _ t - ⟨rfl, rfl⟩
  split
  · next id hc => exact .pure hs'.sound ⟨hs'.sound.nodes hc, .of_cached hc List.mem_cons_self⟩
  obtain ⟨name, hname⟩ := nameOr_text ht.typed.name hhint "__anon_struct"
  have hname : nameOr c.name hint "__anon_struct" = .text name := hname
  rw [hname]
  refine (hs'.sound.newShell (Room.allows_of_le hr' (by unfold nodeNeed; omega)) isRecord c.sizeBits
    name).bind ?_
  rintro _ u hu ⟨rfl, rfl⟩
  have hg := get?_push t (.named (.text name)
    (.composite (.empty (kindOf isRecord) (declaredBytes c.sizeBits))))
  have hid := Arena.lt_size_of_get? hg
  refine (hu.sound.cacheNode hid c.serial).bind ?_
  rintro _ v hv hv'
  have hshell := hv.isComposite ⟨_, _, hg, rfl⟩
  have hroom : v.room.allows (1 + (2 + nodeNeed entering
      (max (Node.heightOfBases bases) (Node.heightOfNodes fields)))) = true := by
    rw [hv.room, hu.room]
    exact hr'
  refine Yields.bind (fill_of_creates ((hs'.after hu).after hv) hn hshell hroom hb hf) ?_
  · intro _ x hx hfill
    rw [hv'] at hfill
    exact .pure hx.sound ⟨hx.lt_size (hv.lt_size hid), Orders.inline hs'.sound hname.symm hfill⟩

end

/-- Every node has a type or a fault of building one, given the room for its height. -/
theorem creates (he : Enters d pointerSize L isSet may entering enter)
    (hn : reportingCalls ≤ entering) {node : Node} (ht : node.WellTyped)
    (hmay : ∀ index, LeadsTo d node index → may index) :
    Creates d pointerSize L isSet entering enter node := by
  -- on the height, since the lists of a node's parts are not parts themselves
  induction hh : node.height using Nat.strongRecOn generalizing node with
  | ind height ih =>
  subst hh
  have part {m : Node} (hm : m ∈ node.parts) :
      Creates d pointerSize L isSet entering enter m :=
    ih m.height (Node.height_lt_of_mem_parts hm) (ht.part hm)
      (fun index hl => hmay index (hl.of_part hm)) rfl
  have field {m : Node} (hm : m ∈ node.parts) :
      CreatesField d pointerSize L isSet entering enter m := by
    refine (part hm).field fun u hu => ?_
    have hlt := Nat.lt_trans (Node.height_lt_of_mem_parts hu) (Node.height_lt_of_mem_parts hm)
    exact ih u.height hlt ((ht.part hm).part hu)
      (fun index hl => hmay index ((hl.of_part hu).of_part hm)) rfl
  cases node with
  | typeName c r => exact creates_typeName he hn ht hmay
  | builtIn c b => exact creates_builtIn hn b
  | pointer c p target => exact creates_pointer hn (part (List.mem_singleton_self target))
  | array c element count => exact creates_array hn (part (List.mem_singleton_self element))
  | bitField c o underlying => exact creates_bitField (part (List.mem_singleton_self underlying))
  | memberPointer c k m => exact creates_memberPointer hn
  | functionType f =>
      refine creates_functionType hn ht.typed.name (fun n hm => part ?_) fun v hv => part ?_
      · exact List.mem_append_left _ (Option.mem_toList.mpr hm)
      · exact List.mem_append_right _ (List.mem_map_of_mem hv)
  | enumeration c constants => exact creates_enumeration hn ht
  | composite c isRecord bases fields members =>
      refine creates_composite hn ht ?_ fun f hf => field (Node.mem_parts_of_mem_fields hf)
      rintro rfl b hb
      exact part (Node.mem_parts_of_mem_bases hb)
  | variable_ v =>
      intro s hint hs _ _
      rw [createType]
      exact .throw hs.sound ⟨rfl, .of_gains (.refl s) fun _ _ => rfl⟩
  | functionDefinition f =>
      intro s hint hs _ _
      rw [createType]
      exact .throw hs.sound ⟨rfl, .of_gains (.refl s) fun _ _ => rfl⟩
  | sourceFile f =>
      intro s hint hs _ _
      rw [createType]
      exact .throw hs.sound ⟨rfl, .of_gains (.refl s) fun _ _ => rfl⟩

/-- Filling a composite of the node's kind ends, whatever its members lead to. -/
theorem fill_yields (he : Enters d pointerSize L isSet may entering enter)
    (hn : reportingCalls ≤ entering) {c : Document.Common} {isRecord : Bool} {bases : List Base}
    {fields members : List Node} (ht : (Node.composite c isRecord bases fields members).WellTyped)
    (hmay : ∀ index, LeadsTo d (.composite c isRecord bases fields members) index → may index)
    {shell : TypeId} (hs : Ready d isSet s) (hshell : s.IsComposite shell (kindOf isRecord))
    (hr : s.room.allows
      (nodeNeed entering (Node.composite c isRecord bases fields members).height) = true) :
    Yields L (fill enter shell isRecord bases fields) s
      (fun _ s' => Fills d pointerSize L shell
        ((if isRecord then Node.serialsOfBases bases else []) ++ Node.serialsOfNodes fields)
        (membersOf isRecord bases fields) s s') bad := by
  have part {m : Node} (hm : m ∈ (Node.composite c isRecord bases fields members).parts) :
      Creates d pointerSize L isSet entering enter m :=
    creates he hn (ht.part hm) fun index hl => hmay index (hl.of_part hm)
  have hr : s.room.allows (1 + (2 + nodeNeed entering (max (Node.heightOfBases bases)
      (Node.heightOfNodes fields)))) = true := by
    simp only [nodeNeed, Node.height] at hr
    exact Room.allows_of_le hr (by unfold nodeNeed; omega)
  refine fill_of_creates hs hn hshell hr ?_ fun f hf => ?_
  · rintro rfl b hb
    exact part (Node.mem_parts_of_mem_bases hb)
  · have hm : f ∈ (Node.composite c isRecord bases fields members).parts :=
      Node.mem_parts_of_mem_fields hf
    refine (part hm).field fun u hu => ?_
    exact creates he hn ((ht.part hm).part hu)
      fun index hl => hmay index ((hl.of_part hu).of_part hm)

end

end StabsImport.Import

import StabsImport.Proofs.Chains
import StabsImport.Proofs.Supply

/-!
# Types made of types that are there

Whatever makes a type has the types it is made of in hand: it got them from the registry, the table
or a cache, or has just made them. So a new type links to smaller numbers, and the only links that
are given to a type later are its components. This is kept by each edit of the types, and so by all
of resolution (`grounded_supply`), however much room there is and wherever it stops.
-/

namespace StabsImport

/-! ## Programs -/

namespace Program

variable {p q : Program} {α β : Type} {id : TypeId}

/-- The types are sound, and the registered ones are among them. -/
structure Grounded (p : Program) : Prop where
  arena : p.arena.Sound
  registered : ∀ {name id}, p.registry.get? name = some id → id < p.arena.size

/-- The program is grounded, and types were added at most. -/
structure Builds (p q : Program) : Prop where
  grounded : q.Grounded
  size_le : p.arena.size ≤ q.arena.size

theorem Builds.refl (h : p.Grounded) : p.Builds p := ⟨h, Nat.le_refl _⟩

theorem Builds.lt (h : p.Builds q) (hid : id < p.arena.size) : id < q.arena.size :=
  Nat.lt_of_lt_of_le hid h.size_le

/-- From a grounded program the edit leads to another, and with a value to one whose types go with
it. -/
def Grounds (p : Program) (e : Edit α) (ok : α → Arena → Prop) : Prop :=
  p.Grounded → Runs e p (fun a q => p.Builds q ∧ ok a q.arena) fun _ q => p.Builds q

namespace Grounds

variable {ok : α → Arena → Prop}

theorem pure {a : α} (h : ok a p.arena) : p.Grounds (pure a) ok := fun hp => ⟨.refl hp, h⟩

theorem throw (e : Fault) : p.Grounds (throw e : Edit α) ok := .refl

theorem mono {e : Edit α} {wide : α → Arena → Prop} (h : p.Grounds e ok)
    (sub : ∀ a b, ok a b → wide a b) : p.Grounds e wide :=
  fun hp => Runs.mono (h hp) (fun _ _ h => ⟨h.1, sub _ _ h.2⟩) fun _ _ h => h

theorem get {f : Program → Edit α} (h : p.Grounds (f p) ok) : p.Grounds (get >>= f) ok := h

end Grounds

theorem newType_grounds {t : TypeObject} (ht : p.arena.IsPlain t) :
    p.Grounds (newType t) fun id a => id < a.size := by
  intro hp
  have size : (p.arena.push t).size = p.arena.size + 1 := Arena.size_push _ _
  have builds : p.Builds { p with arena := p.arena.push t } := by
    refine ⟨⟨hp.arena.push ht, fun hr => ?_⟩, ?_⟩
    · rw [size]
      exact Nat.lt_succ_of_lt (hp.registered hr)
    · rw [size]
      exact Nat.le_succ _
  exact ⟨builds, Nat.lt_of_lt_of_eq (Nat.lt_succ_self _) size.symm⟩

theorem newUndefined_grounds (size : Int) :
    p.Grounds (newUndefined size) fun id a => id < a.size := by
  unfold newUndefined
  split
  · exact .throw _
  · exact newType_grounds (.undefined size)

theorem newArray_grounds {element : TypeId} (h : element < p.arena.size) (count : Int) :
    p.Grounds (newArray element count) fun id a => id < a.size := by
  intro hp
  rw [newArray, Runs.bind_iff]
  show Runs (if p.arena.length element ≤ 0 then _ else _ : Edit TypeId) p _ _
  split
  · rw [Runs.bind_iff, typeName, runs_view]
    split <;> exact .refl hp
  · split
    · exact .refl hp
    · exact newType_grounds (.array h count) hp

/-- What stands in for a type is there if that type is. -/
theorem sizedType_grounds (h : id < p.arena.size) :
    p.Grounds (sizedType (some id)) fun id a => id < a.size := by
  intro hp
  show Runs (if p.arena.length id ≤ 0 then newUndefined 1 else pure id : Edit TypeId) p _ _
  split
  · exact newUndefined_grounds 1 hp
  · exact ⟨.refl hp, h⟩

theorem Grounded.set (hp : p.Grounded) {t : TypeObject} (h : (p.arena.set id t).Sound) :
    p.Builds { p with arena := p.arena.set id t } where
  grounded :=
    { arena := h
      registered := fun hr => by
        rw [Arena.size_set]
        exact hp.registered hr }
  size_le := Nat.le_of_eq (Arena.size_set _ _ _).symm

/-- Components are of types that are there, and may be of any of them. -/
theorem editComposite_grounds (kind : CompositeKind) (owner : TypeId) {type : TypeId}
    {f : Composite → Except Rejection Composite} (placement : IsPlacement type f)
    (h : type < p.arena.size) : p.Grounds (editComposite kind owner f) fun _ _ => True := by
  intro hp
  rw [editComposite, Runs.bind_iff, Runs.get_iff]
  split
  · next name c hc =>
      split
      · exact .refl hp
      · rw [Runs.bind_iff, runs_ofExcept]
        cases hf : f c with
        | error cause => exact .refl hp
        | ok c' =>
            refine ⟨hp.set (hp.arena.set (List.forall_mem_nil _) ?_ ?_), trivial⟩
            · intro name' d he m hm
              cases he
              rcases placement.components hf m hm with hm | hm
              · exact hp.arena.placed hc m hm
              · rw [hm]
                exact h
            · intro name' shape he
              cases he
              exact hp.arena.texts hc
  · exact .refl hp

/-- A type may take any text for its name. -/
theorem Grounded.rename (hp : p.Grounded) {name : Json} {shape : Shape} (own : String)
    (hid : p.arena.get? id = some (.named name shape)) :
    p.Builds { p with arena := p.arena.set id (.named (.text own) shape) } := by
  refine hp.set (hp.arena.set ?_ ?_ ?_)
  · intro l hl
    apply hp.arena.linked hid l
    cases shape <;> exact hl
  · intro name' c he
    cases he
    exact hp.arena.placed hid
  · intro name' shape' he
    cases he
    exact ⟨own, rfl⟩

theorem Builds.register {arena : Arena} (builds : p.Builds { p with arena })
    (h : id < p.arena.size) (name : Json) :
    p.Builds { p with arena, registry := p.registry.put name id } where
  grounded :=
    { arena := builds.grounded.arena
      registered := fun hr => Ledger.forall_get?_put (P := (· < arena.size)) (builds.lt h)
        builds.grounded.registered hr }
  size_le := builds.size_le

/-- A type is registered, perhaps under another name, or one that is registered stands for it. -/
theorem addType_grounds (h : id < p.arena.size) :
    p.Grounds (addType id) fun id a => id < a.size := by
  intro hp
  rw [addType, Runs.bind_iff, runs_view]
  split
  · next name hname =>
      rw [Runs.bind_iff, runs_view]
      split
      · next place hplace =>
          have isFor := place_isFor hplace
          split
          · obtain ⟨k, hk⟩ : ∃ k, _ := isFor
            exact ⟨.refl hp, hp.registered hk⟩
          · next free =>
              dsimp only
              split
              · next hne =>
                  obtain ⟨own, rfl⟩ := Or.resolve_left isFor hne
                  rw [Runs.bind_iff, rename, Runs.bind_iff, Runs.get_iff]
                  split
                  · next name' shape hid =>
                      have builds := hp.rename own hid
                      exact ⟨builds.register h _, builds.lt h⟩
                  · exact .refl hp
              · exact ⟨(Builds.refl hp).register h _, h⟩
      · exact .refl hp
  · exact .refl hp

end Program

/-! ## Sessions -/

namespace Import

open Document (Node Base Variable TypeReference BuiltInClass)

variable {s t : Session} {α : Type}

/-- The document is well typed, the program grounded, and all that resolution shares is among its
types. -/
structure Session.Grounded (s : Session) : Prop where
  typed : s.document.WellTyped
  program : s.program.Grounded
  builtIns : ∀ {c id}, s.cache.builtIns.get? c = some id → id < s.program.arena.size
  pointers : ∀ {k id}, s.cache.pointers.get? k = some id → id < s.program.arena.size
  arrays : ∀ {k id}, s.cache.arrays.get? k = some id → id < s.program.arena.size
  nodes : ∀ {k id}, s.cache.nodes.get? k = some id → id < s.program.arena.size
  entries : ∀ {k id}, s.typeAt? k = some id → id < s.program.arena.size

/-- The session is grounded, and types were added at most. -/
structure Builds (s t : Session) : Prop where
  grounded : t.Grounded
  size_le : s.program.arena.size ≤ t.program.arena.size

theorem Builds.refl (h : s.Grounded) : Builds s s := ⟨h, Nat.le_refl _⟩

theorem Builds.lt (h : Builds s t) {id : TypeId} (hid : id < s.program.arena.size) :
    id < t.program.arena.size :=
  Nat.lt_of_lt_of_le hid h.size_le

theorem Session.Grounded.withProgram (h : s.Grounded) {p : Program} (hp : s.program.Builds p) :
    Builds s { s with program := p } where
  grounded :=
    { typed := h.typed
      program := hp.grounded
      builtIns := fun hc => hp.lt (h.builtIns hc)
      pointers := fun hk => hp.lt (h.pointers hk)
      arrays := fun hk => hp.lt (h.arrays hk)
      nodes := fun hk => hp.lt (h.nodes hk)
      entries := fun hk => hp.lt (h.entries hk) }
  size_le := hp.size_le

instance : Upkeep Session.Grounded Builds where
  fits h := h.grounded
  refl := .refl
  trans _ h h' := ⟨h'.grounded, Nat.le_trans h.size_le h'.size_le⟩
  report hs _ := ⟨{ hs with }, Nat.le_refl _⟩
  inside hs _ := ⟨{ hs with }, fun h => ⟨{ h.grounded with }, h.size_le⟩⟩

/-- From a grounded session the action leads to another, and with a value to one whose types go with
it. -/
abbrev Hands (s : Session) (m : ImportM α) (ok : α → Arena → Prop) : Prop :=
  Secures Session.Grounded Builds s m ok

/-- From a grounded session the action leads to another. -/
abbrev StaysGrounded (m : ImportM α) : Prop := Preserves (KeptUp Session.Grounded Builds) m

theorem Hands.edit {e : Edit α} {ok : α → Arena → Prop} (h : s.program.Grounds e ok) :
    Hands s (edit e) ok :=
  Secures.edit fun hs => Runs.mono (h hs.program) (fun _ _ h => ⟨hs.withProgram h.1, h.2⟩)
    fun _ _ h => hs.withProgram h

/-! ## Single types -/

theorem undefined1_hands : Hands s undefined1 fun id a => id < a.size :=
  .edit (Program.newUndefined_grounds 1)

theorem builtIn_hands (c : BuiltInClass) : Hands s (builtIn c) fun id a => id < a.size := by
  refine .after (.need 3) fun _ t _ => .get ?_
  split
  · next id hid => exact fun ht => ⟨.refl ht, ht.builtIns hid⟩
  · refine (Hands.edit (Program.newType_grounds (isPlain_builtInType _ c))).bind
      fun id u _ hid => ?_
    refine Secures.bind (.record (P := (id < ·.size)) fun hu => ⟨⟨?_, Nat.le_refl _⟩, hid⟩)
      fun _ _ _ h => .pure h
    exact { hu with
      builtIns := Ledger.forall_get?_put (P := (· < u.program.arena.size)) hid hu.builtIns }

theorem pointerTo_hands {target : TypeId} (h : target < s.program.arena.size) :
    Hands s (pointerTo target) fun id a => id < a.size := by
  refine .after (.need 3) fun _ t ht => .after .pointerSize fun size u hu => .get ?_
  split
  · next id hid => exact fun hu => ⟨.refl hu, hu.pointers hid⟩
  · refine (Hands.edit (Program.newType_grounds (.pointer (hu.lt (ht.lt h)) size))).bind
      fun id v _ hid => ?_
    refine Secures.bind (.record (P := (id < ·.size)) fun hv => ⟨⟨?_, Nat.le_refl _⟩, hid⟩)
      fun _ _ _ h => .pure h
    exact { hv with
      pointers := Ledger.forall_get?_put (P := (· < v.program.arena.size)) hid hv.pointers }

theorem sizedType_hands {id : TypeId} (h : id < s.program.arena.size) :
    Hands s (edit (Program.sizedType (some id))) fun id a => id < a.size :=
  .edit (Program.sizedType_grounds h)

theorem arrayOf_hands {element : TypeId} (h : element < s.program.arena.size) (count : Int) :
    Hands s (arrayOf element count) fun id a => id < a.size := by
  refine .after (.need 3) fun _ t ht => (sizedType_hands (ht.lt h)).bind fun sized u _ hsized =>
    .get ?_
  split
  · next id hid => exact fun hu => ⟨.refl hu, hu.arrays hid⟩
  · refine (Hands.edit (Program.newArray_grounds hsized count)).bind fun id v _ hid => ?_
    refine Secures.bind (.record (P := (id < ·.size)) fun hv => ⟨⟨?_, Nat.le_refl _⟩, hid⟩)
      fun _ _ _ h => .pure h
    exact { hv with
      arrays := Ledger.forall_get?_put (P := (· < v.program.arena.size)) hid hv.arrays }

theorem newSignature_hands (name : String) {returns : TypeId} {parameters : List TypeId}
    (hreturns : returns < s.program.arena.size)
    (hparameters : ∀ id ∈ parameters, id < s.program.arena.size) :
    Hands s (newSignature (.text name) returns parameters) fun id a => id < a.size :=
  .after (.need 2) fun _ _ ht => Hands.edit (Program.newType_grounds
    (.signature (ht.lt hreturns) (fun id hid => ht.lt (hparameters id hid)) name))

theorem newEnumeration_hands (name : String) (constants : List (Int × Json)) :
    Hands s (newEnumeration (.text name) constants) fun id a => id < a.size :=
  .after (.need 3) fun _ _ _ => .after (.addConstants _ _ _) fun _ _ _ =>
    Hands.edit (Program.newType_grounds (.enumeration name _ _))

theorem newShell_hands (isRecord : Bool) (sizeBits : Int) (name : String) :
    Hands s (newShell isRecord sizeBits (.text name)) fun id a => id < a.size :=
  .after (.need 3) fun _ _ _ => Hands.edit (Program.newType_grounds (.shell name _ _))

/-! ## Members -/

theorem kindOf_staysGrounded (id : TypeId) : StaysGrounded (edit (Program.kindOf? id)) :=
  fun s => (Stepwise.refl s : KeptUp _ _ s s)

theorem typeLength_staysGrounded (id : TypeId) : StaysGrounded (typeLength id) :=
  fun s => (Stepwise.refl s : KeptUp _ _ s s)

theorem placing_hands {kind : CompositeKind} {shell type : TypeId}
    {f : Composite → Except Rejection Composite} (placement : IsPlacement type f)
    (h : type < s.program.arena.size) :
    Hands s (edit (Program.editComposite kind shell f)) fun _ _ => True :=
  .edit (Program.editComposite_grounds kind shell placement h)

theorem placeBase_hands (shell : TypeId) (index : Nat) (offset : Int) {type : TypeId}
    (h : type < s.program.arena.size) :
    Hands s (placeBase shell index offset type) fun _ _ => True :=
  .after (typeLength_staysGrounded type) fun _ _ ht =>
    placing_hands (isPlacement_placeMember _ _ _ _) (ht.lt h)

theorem placeBitField_hands (shell : TypeId) (field : Node) (offsetBits : Int) (name : Json)
    {underlying : TypeId} (h : underlying < s.program.arena.size) :
    Hands s (placeBitField shell field offsetBits name underlying) fun _ _ => True := by
  refine (sizedType_hands h).bind fun sized t _ hsized => ?_
  refine .after (typeLength_staysGrounded sized) fun width u hu => ?_
  refine .after (kindOf_staysGrounded shell) fun kind v hv => ?_
  split
  · exact placing_hands (isPlacement_placeBits _ _ _ _ _ _) (hv.lt (hu.lt hsized))
  · exact placing_hands (isPlacement_addAlternative _ _ _) (hv.lt (hu.lt hsized))

theorem placeSolid_hands (shell : TypeId) (field : Node) (name : Json) {type : TypeId}
    (h : type < s.program.arena.size) :
    Hands s (placeSolid shell field name type) fun _ _ => True := by
  have stop (t : Session) (e : Fault) : Hands t (throw e : ImportM PUnit) fun _ _ => False :=
    .throw e
  refine .get ?_
  dsimp only
  split
  · exact .after (.typeName type) fun _ t _ => (stop t _).bind fun _ _ _ h => h.elim
  · refine .after (kindOf_staysGrounded shell) fun kind t ht => ?_
    split
    · exact placing_hands (isPlacement_placeMember _ _ _ _) (ht.lt h)
    · exact placing_hands (isPlacement_addAlternative _ _ _) (ht.lt h)

theorem placeField_hands (shell : TypeId) (field : Node) (name : Json) {type : TypeId}
    (h : type < s.program.arena.size) :
    Hands s (placeField shell field name type) fun _ _ => True := by
  have solid : Hands s (do if ← isVoid type then undefined1 else pure type)
      fun id a => id < a.size := by
    refine .get ?_
    show Hands s (if _ then undefined1 else pure type) _
    split
    · exact undefined1_hands
    · exact .pure h
  rw [placeField_eq]
  exact solid.bind fun id _ _ hid => placeSolid_hands shell field name hid

/-! ## What resolution hands on -/

theorem grounded_supply : Supply Session.Grounded Builds True fun id a => id < a.size where
  wellTyped hs _ := hs.typed
  nodes hs := hs.nodes
  entries hs := hs.entries
  later := Builds.lt
  lt_size := id
  lasts := Builds.lt
  record hs document program builtIns pointers arrays nodes entries := by
    refine ⟨?_, by rw [program]⟩
    constructor
    · rw [document]
      exact hs.typed
    all_goals rw [program]
    · exact hs.program
    · rw [builtIns]
      exact hs.builtIns
    · rw [pointers]
      exact hs.pointers
    · rw [arrays]
      exact hs.arrays
    · exact nodes
    · exact entries
  undefined1 := undefined1_hands
  newUndefined size := Hands.edit (Program.newUndefined_grounds size)
  sizedType := sizedType_hands
  builtIn := builtIn_hands
  pointerTo := pointerTo_hands
  arrayOf := arrayOf_hands
  newSignature hname hreturns hparameters := by
    obtain ⟨own, rfl⟩ := hname trivial
    exact newSignature_hands own hreturns hparameters
  newEnumeration hname constants := by
    obtain ⟨own, rfl⟩ := hname trivial
    exact newEnumeration_hands own constants
  newShell hname isRecord sizeBits := by
    obtain ⟨own, rfl⟩ := hname trivial
    exact newShell_hands isRecord sizeBits own
  placeBase h shell index offset := placeBase_hands shell index offset h
  placeField h shell field name := placeField_hands shell field name h
  placeBitField h shell field offsetBits name := placeBitField_hands shell field offsetBits name h
  addType h := Hands.edit (Program.addType_grounds h)

end Import

end StabsImport

import StabsImport.Proofs.Frames
import StabsImport.Proofs.Upkeep

/-!
# The walk over a node and what it hands on

Resolution makes a type of types it has in hand: it got them from the table or a cache, or has just
made them. So a relation between sessions that is kept up where single types are made, members are
placed and types are recorded is kept up by all of resolution, and what is handed on is there. Where
a variable, an element or a parameter needs a type, it may be told to be `fine` besides.
-/

namespace StabsImport.Import

open Document (Node Base Variable TypeReference BuiltInClass)

variable {fit : Session → Prop} {R : Session → Session → Prop} {strict : Prop}
  {fine : TypeId → Arena → Prop} {s t : Session} {enter : Int → ImportM TypeId} {id : TypeId}

/-- What is handed on is there. -/
def HandsTypes (fit : Session → Prop) (R : Session → Session → Prop) (m : ImportM TypeId) : Prop :=
  ∀ s, Secures fit R s m fun id a => id < a.size

theorem HandsTypes.preserves {m : ImportM TypeId} (h : HandsTypes fit R m) :
    Preserves (KeptUp fit R) m :=
  Secures.preserves h

/-- The name is a text, where names are told to be. -/
def Named (strict : Prop) (name : Json) : Prop := strict → ∃ own, name = .text own

/-- What making single types, placing members and recording types come to, given types that are
there. Names of types are texts if sessions are told to be `strict`. -/
structure Supply (fit : Session → Prop) (R : Session → Session → Prop) (strict : Prop)
    (fine : TypeId → Arena → Prop) : Prop where
  wellTyped {s : Session} (hs : fit s) : strict → s.document.WellTyped
  nodes {s : Session} (hs : fit s) {k : Nat} {id : TypeId} (h : s.cache.nodes.get? k = some id) :
    id < s.program.arena.size
  entries {s : Session} (hs : fit s) {k : Nat} {id : TypeId} (h : s.typeAt? k = some id) :
    id < s.program.arena.size
  later {s t : Session} (h : R s t) {id : TypeId} (hid : id < s.program.arena.size) :
    id < t.program.arena.size
  lt_size {id : TypeId} {a : Arena} (h : fine id a) : id < a.size
  lasts {s t : Session} (h : R s t) {id : TypeId} (hid : fine id s.program.arena) :
    fine id t.program.arena
  record {s t : Session} (hs : fit s) (document : t.document = s.document)
    (program : t.program = s.program) (builtIns : t.cache.builtIns = s.cache.builtIns)
    (pointers : t.cache.pointers = s.cache.pointers) (arrays : t.cache.arrays = s.cache.arrays)
    (nodes : ∀ {k id}, t.cache.nodes.get? k = some id → id < s.program.arena.size)
    (entries : ∀ {k id}, t.typeAt? k = some id → id < s.program.arena.size) : R s t
  undefined1 {s : Session} : Secures fit R s undefined1 fine
  newUndefined {s : Session} (size : Int) :
    Secures fit R s (edit (Program.newUndefined size)) fun id a => id < a.size
  sizedType {s : Session} {id : TypeId} (h : id < s.program.arena.size) :
    Secures fit R s (edit (Program.sizedType (some id))) fine
  builtIn {s : Session} (c : BuiltInClass) : Secures fit R s (builtIn c) fun id a => id < a.size
  pointerTo {s : Session} {target : TypeId} (h : target < s.program.arena.size) :
    Secures fit R s (pointerTo target) fun id a => id < a.size
  arrayOf {s : Session} {element : TypeId} (h : element < s.program.arena.size) (count : Int) :
    Secures fit R s (arrayOf element count) fun id a => id < a.size
  newSignature {s : Session} {name : Json} {returns : TypeId} {parameters : List TypeId}
    (hname : Named strict name) (hreturns : returns < s.program.arena.size)
    (hparameters : ∀ id ∈ parameters, fine id s.program.arena) :
    Secures fit R s (newSignature name returns parameters) fun id a => id < a.size
  newEnumeration {s : Session} {name : Json} (hname : Named strict name)
    (constants : List (Int × Json)) :
    Secures fit R s (newEnumeration name constants) fun id a => id < a.size
  newShell {s : Session} {name : Json} (hname : Named strict name) (isRecord : Bool)
    (sizeBits : Int) : Secures fit R s (newShell isRecord sizeBits name) fun id a => id < a.size
  placeBase {s : Session} {type : TypeId} (h : type < s.program.arena.size) (shell : TypeId)
    (index : Nat) (offset : Int) :
    Secures fit R s (placeBase shell index offset type) fun _ _ => True
  placeField {s : Session} {type : TypeId} (h : type < s.program.arena.size) (shell : TypeId)
    (field : Node) (name : Json) :
    Secures fit R s (placeField shell field name type) fun _ _ => True
  placeBitField {s : Session} {underlying : TypeId} (h : underlying < s.program.arena.size)
    (shell : TypeId) (field : Node) (offsetBits : Int) (name : Json) :
    Secures fit R s (placeBitField shell field offsetBits name underlying) fun _ _ => True
  addType {s : Session} {id : TypeId} (h : id < s.program.arena.size) :
    Secures fit R s (edit (Program.addType id)) fun id a => id < a.size

namespace Named

theorem text (own : String) : Named strict (.text own) := fun _ => ⟨own, rfl⟩

theorem nameOr {name hint : Json} (hname : strict → name.IsName) (hhint : strict → hint.IsName)
    (otherwise : String) : Named strict (nameOr name hint otherwise) :=
  fun h => nameOr_text (hname h) (hhint h) otherwise

theorem isName {name : Json} (h : Named strict name) : strict → name.IsName :=
  fun hs => .inr (h hs)

end Named

namespace Supply

theorem there (supply : Supply fit R strict fine) {m : ImportM TypeId}
    (h : Secures fit R s m fine) : Secures fit R s m fun id a => id < a.size :=
  h.mono fun _ _ => supply.lt_size

/-! ## Records -/

theorem setEntry (supply : Supply fit R strict fine) (k : Nat) (h : id < s.program.arena.size) :
    Secures fit R s (setEntry k id) fun _ a => id < a.size := by
  refine .record fun hs => ⟨supply.record hs rfl rfl rfl rfl rfl (supply.nodes hs) ?_, h⟩
  intro j other he
  rw [Session.typeAt?_set] at he
  split at he
  · cases he
    exact h
  · exact supply.entries hs he

theorem cacheNode (supply : Supply fit R strict fine) (serial : Nat)
    (h : id < s.program.arena.size) :
    Secures fit R s (cacheNode serial id) fun _ a => id < a.size :=
  .record fun hs => ⟨supply.record hs rfl rfl rfl rfl rfl
    (Ledger.forall_get?_put (P := (· < s.program.arena.size)) h (supply.nodes hs))
    (supply.entries hs), h⟩

variable [Upkeep fit R] (supply : Supply fit R strict fine)

include supply

theorem prepare : Preserves (KeptUp fit R) prepare := by
  intro s
  have same : KeptUp fit R s s := Stepwise.refl s
  rw [Import.prepare, Runs.bind_iff, Runs.get_iff]
  split
  · exact same
  · dsimp only
    split
    · exact same
    · refine fun hs => supply.record hs rfl rfl rfl rfl rfl (supply.nodes hs) fun {k id} h => ?_
      rw [Session.typeAt?_replicate] at h
      cases h

theorem isCancelled : Preserves (KeptUp fit R) isCancelled := by
  refine Preserves.get fun _ => (Preserves.modify fun t ht => ?_).bind fun _ => .pure _
  exact supply.record ht rfl rfl rfl rfl rfl (supply.nodes ht) (supply.entries ht)

theorem lookUp (r : TypeReference) : Preserves (KeptUp fit R) (lookUp r) := by
  refine supply.prepare.bind fun _ => Preserves.get fun s => ?_
  dsimp only
  split
  · exact (Preserves.throw _).bind fun _ => .pure _
  · exact .pure _

/-- What is made for a node is recorded under its number before anything else is done to it. -/
theorem orCached {serial : Nat} {m : ImportM TypeId} {f : TypeId → ImportM TypeId}
    (hm : HandsTypes fit R m)
    (hf : ∀ id s, id < s.program.arena.size → Secures fit R s (f id) fun id a => id < a.size) :
    HandsTypes fit R (orCached serial do
      let id ← m
      Import.cacheNode serial id
      f id) := by
  intro s hs
  rw [runs_orCached]
  cases hrecorded : s.cache.nodes.get? serial with
  | some id => exact ⟨Upkeep.refl hs, supply.nodes hs hrecorded⟩
  | none =>
      exact (hm s).bind (fun id _ _ hid => (supply.cacheNode serial hid).bind fun _ u _ hu =>
        hf id u hu) hs

/-! ## The walk over a node -/

/-- What cannot be made is reported and replaced. -/
theorem undefinedFor (source message : String) :
    Secures fit R s (do diagnose source message; Import.undefined1) fine :=
  .after (.diagnose _ _) fun _ _ _ => supply.undefined1

theorem resolveReference (he : ∀ index, HandsTypes fit R (enter index)) (r : TypeReference) :
    HandsTypes fit R (resolveReference enter r) := by
  intro s
  unfold Import.resolveReference
  split
  · exact supply.builtIn _
  · refine .after (.need 2) fun _ _ _ => .after (supply.lookUp r) fun found t _ => ?_
    split
    · exact he _ t
    · exact supply.there (supply.undefinedFor _ _)

theorem variableType {type : ImportM TypeId} (h : HandsTypes fit R type) :
    Secures fit R s (variableType type) fine :=
  .onTypeFault ((h s).bind fun _ _ _ hid => supply.sizedType hid) fun _ _ => supply.undefinedFor _ _

theorem parameterTypes {vs : List Variable}
    (h : ∀ v ∈ vs, HandsTypes fit R (createType enter v.type .null)) :
    Secures fit R s (parameterTypes enter vs) fun ids a => ∀ id ∈ ids, fine id a := by
  induction vs generalizing s with
  | nil =>
      rw [parameterTypes_nil]
      exact .pure nofun
  | cons v rest ih =>
      rw [Import.parameterTypes]
      refine (supply.variableType (h v List.mem_cons_self)).bind fun id t _ hid => ?_
      refine (ih fun w hw => h w (List.mem_cons_of_mem _ hw)).bind fun ids u hu hids => .pure ?_
      exact List.forall_mem_cons.mpr ⟨supply.lasts hu hid, hids⟩

theorem fill (shell : TypeId) {isRecord : Bool} {bases : List Base} {fields : List Node}
    (hb : isRecord = true → ∀ b ∈ bases, HandsTypes fit R (createType enter b.type .null))
    (hf : ∀ f ∈ fields, ∀ hint, HandsTypes fit R (createType enter f (.text hint)))
    (hbits : ∀ c offsetBits underlying, .bitField c offsetBits underlying ∈ fields →
      HandsTypes fit R (createType enter underlying .null)) :
    Preserves (KeptUp fit R) (fill enter shell isRecord bases fields) := by
  apply Preserves.fill
  · intro h b hm index
    exact Secures.preserves fun s => (hb h b hm s).bind fun _ _ _ hid => supply.placeBase hid _ _ _
  · intro f hm name hint
    exact Secures.preserves fun s => (hf f hm hint s).bind fun _ _ _ hid => supply.placeField hid _ _ _
  · intro c offsetBits underlying hm name
    exact Secures.preserves fun s => (hbits c offsetBits underlying hm s).bind fun _ _ _ hid =>
      supply.placeBitField hid _ _ _ _

/-- Making the type of a node gives a type that is there if entering the table does. -/
theorem createType (he : ∀ index, HandsTypes fit R (enter index)) {node : Node}
    (typed : strict → node.WellTyped) {hint : Json} (hh : strict → hint.IsName) :
    HandsTypes fit R (createType enter node hint) := by
  -- on the height, since the lists of a node's parts are not parts themselves
  induction hheight : node.height using Nat.strongRecOn generalizing node hint with
  | ind height ih =>
  subst hheight
  have part {m : Node} (hm : m ∈ node.parts) {hint : Json} (hh : strict → hint.IsName) :
      HandsTypes fit R (Import.createType enter m hint) :=
    ih m.height (Node.height_lt_of_mem_parts hm) (fun h => (typed h).part hm) hh rfl
  have unnamed : strict → Json.null.IsName := fun _ => .inl rfl
  have underlying {c : Document.Common} {offsetBits : Int} {m : Node}
      (hm : .bitField c offsetBits m ∈ node.parts) :
      HandsTypes fit R (Import.createType enter m .null) := by
    have hlt : m.height < (Node.bitField c offsetBits m).height :=
      Node.height_lt_of_mem_parts (List.mem_singleton_self m)
    exact ih m.height (Nat.lt_trans hlt (Node.height_lt_of_mem_parts hm))
      (fun h => ((typed h).part hm).part (List.mem_singleton_self m)) unnamed rfl
  have named (otherwise : String) : Named strict (nameOr node.name hint otherwise) :=
    .nameOr (fun h => (typed h).typed.name) hh otherwise
  intro s
  cases node with
  | typeName c r =>
      rw [createType_typeName]
      exact .inside 2 (supply.resolveReference he r)
  | builtIn c b =>
      rw [Import.createType]
      exact .inside 1 fun _ => supply.builtIn b
  | pointer c p target =>
      rw [Import.createType]
      exact .inside 1 fun s => (part (List.mem_singleton_self target) unnamed s).bind
        fun _ _ _ hid => supply.pointerTo hid
  | array c element count =>
      rw [Import.createType]
      exact .inside 1 fun s => (part (List.mem_singleton_self element) unnamed s).bind
        fun _ _ _ hid => supply.arrayOf hid count
  | bitField c o u =>
      rw [Import.createType]
      exact .inside 1 (part (List.mem_singleton_self u) unnamed)
  | memberPointer c k m =>
      rw [Import.createType]
      exact .inside 1 fun s => .after (.need 2) fun _ _ _ => .after .pointerSize fun size _ _ =>
        supply.newUndefined size
  | functionType f =>
      have returns : HandsTypes fit R (returnTypeOf enter f.returnType) := by
        cases hr : f.returnType with
        | none => exact fun _ => supply.builtIn _
        | some n => exact part (List.mem_append_left _ (by simp [hr])) unnamed
      have formals (s : Session) : Secures fit R s (formalTypesOf enter f.parameters)
          fun ids a => ∀ id ∈ ids, fine id a := by
        cases hp : f.parameters with
        | none => exact .pure (List.forall_mem_nil _)
        | some vs =>
            refine .inside 2 fun s => supply.parameterTypes fun v hv => part ?_ unnamed
            exact List.mem_append_right _ (List.mem_map_of_mem (by simpa [hp] using hv))
      have made : HandsTypes fit R (do
          let returns ← returnTypeOf enter f.returnType
          let parameters ← formalTypesOf enter f.parameters
          Import.newSignature (nameOr f.common.name hint "__anon_function") returns parameters) :=
        fun s => (returns s).bind fun _ _ _ hreturns => (formals _).bind fun _ _ hu hparameters =>
          supply.newSignature (named _) (supply.later hu hreturns) hparameters
      have recorded : HandsTypes fit R (Import.orCached f.common.serial _) :=
        supply.orCached made fun _ _ h => .pure h
      simp only [bind_assoc] at recorded
      rw [createType_functionType]
      exact .inside 2 recorded
  | enumeration c constants =>
      rw [Import.createType]
      exact .inside 1 (supply.orCached (fun _ => supply.newEnumeration (named _) constants) fun _ _ h => .pure h)
  | composite c isRecord bases fields members =>
      have filled (shell : TypeId) :
          Preserves (KeptUp fit R) (Import.fill enter shell isRecord bases fields) := by
        apply supply.fill
        · rintro rfl b hb
          exact part (Node.mem_parts_of_mem_bases hb) unnamed
        · exact fun f hf hint => part (Node.mem_parts_of_mem_fields hf) (Named.text hint).isName
        · exact fun _ _ _ hu => underlying (Node.mem_parts_of_mem_fields hu)
      rw [Import.createType]
      exact .inside 1 (supply.orCached (fun _ => supply.newShell (named _) _ _) fun shell s hshell =>
        .after (filled shell) fun _ t ht => .pure (supply.later ht hshell))
  | variable_ | functionDefinition | sourceFile =>
      rw [Import.createType]
      exact .throw _

theorem fillNode (he : ∀ index, HandsTypes fit R (enter index)) (shell : TypeId)
    {c : Document.Common} {isRecord : Bool} {bases : List Base} {fields members : List Node}
    (typed : strict → (Node.composite c isRecord bases fields members).WellTyped) :
    Preserves (KeptUp fit R) (Import.fill enter shell isRecord bases fields) := by
  have field {f : Node} (hf : f ∈ fields) : strict → f.WellTyped := fun h =>
    (typed h).part (Node.mem_parts_of_mem_fields hf)
  apply supply.fill
  · rintro rfl b hb
    exact supply.createType he (fun h => (typed h).part (Node.mem_parts_of_mem_bases hb)) fun _ => .inl rfl
  · exact fun f hf hint => supply.createType he (field hf) (Named.text hint).isName
  · exact fun _ _ u hu =>
      supply.createType he (fun h => (field hu h).part (List.mem_singleton_self u)) fun _ => .inl rfl

/-! ## Entries of the table -/

/-- An entry takes what is made for it, or what stands in for that. -/
theorem takeEntry {type : ImportM TypeId} (h : HandsTypes fit R type) (k : Nat)
    (report : Fault → String) :
    HandsTypes fit R (do
      let id ← onTypeFault type fun e => do
        diagnose typesSource (report e)
        Import.undefined1
      Import.setEntry k id
      return id) := fun s =>
  Secures.bind (.onTypeFault (h s) fun _ _ => supply.there (supply.undefinedFor _ _)) fun _ _ _ hid =>
    (supply.setEntry k hid).bind fun _ _ _ h => .pure h

theorem resolveEntry (he : ∀ index, HandsTypes fit R (enter index)) (k : Nat) {node : Node}
    (typed : strict → node.WellTyped) : HandsTypes fit R (resolveEntry enter k node) := by
  have named : Named strict (entryName node k) :=
    .nameOr (fun h => (typed h).typed.name) (fun _ => .inl rfl) _
  cases node with
  | composite c isRecord bases fields members =>
      intro s
      simp only [Import.resolveEntry]
      refine (supply.newShell named _ _).bind fun made t _ hmade => ?_
      refine (supply.addType hmade).bind fun shell u _ hshell => ?_
      refine (supply.setEntry k hshell).bind fun _ v _ hv => ?_
      exact .after (supply.fillNode he shell typed) fun _ w hw => .pure (supply.later hw hv)
  | enumeration c constants =>
      exact supply.takeEntry (fun _ => (supply.newEnumeration named constants).bind fun _ _ _ hid =>
        supply.addType hid) k _
  | _ => exact supply.takeEntry (supply.createType he typed named.isName) k _

theorem knownEntry (opened : List Nat) (index : Int) :
    Secures fit R s ( knownEntry? opened index) fun known a => ∀ id ∈ known, id < a.size := by
  have placeholder (s : Session) (text : String) : Secures fit R s
      (do diagnose typesSource text; return some (← Import.undefined1))
      fun known a => ∀ id ∈ known, id < a.size :=
    .after (.diagnose _ _) fun _ _ _ => (supply.there supply.undefined1).bind fun id t _ hid =>
      .pure fun k hk => by
        cases hk
        exact hid
  refine .after supply.prepare fun _ t _ => .get ?_
  dsimp only
  split
  · exact placeholder t _
  · split
    · next id hid =>
        have entered : t.typeAt? index.toNat = some id := Session.typeAt?_eq_some.mpr hid
        refine fun ht => ⟨Upkeep.refl ht, fun k hk => ?_⟩
        cases hk
        exact supply.entries ht entered
    · split
      · exact placeholder t _
      · exact .pure nofun

theorem typeAtWithin (budget : Nat) (opened : List Nat) (index : Int) :
    HandsTypes fit R (typeAtWithin budget opened index) := by
  induction budget generalizing opened index with
  | zero =>
      intro s
      rw [Import.typeAtWithin]
      refine .inside 1 fun s => (supply.knownEntry opened index).bind fun known t _ hknown => ?_
      cases known with
      | some id => exact .pure (hknown id rfl)
      | none => exact .throw _
  | succ budget ih =>
      intro s
      rw [Import.typeAtWithin]
      refine .inside 1 fun s => (supply.knownEntry opened index).bind fun known t ht hknown => ?_
      cases known with
      | some id => exact .pure (hknown id rfl)
      | none =>
          refine .get ?_
          split
          · next node hnode =>
              have typed (h : strict) : node.WellTyped :=
                (supply.wellTyped (Upkeep.fits ht) h).types node (List.mem_of_getElem? hnode)
              exact supply.resolveEntry (ih _) _ typed t
          · exact .throw _

theorem typeAt (index : Int) : HandsTypes fit R (typeAt index) :=
  fun s => .get (supply.typeAtWithin _ _ index s)

theorem typeOf {node : Node} (typed : strict → node.WellTyped) {hint : Json}
    (hh : strict → hint.IsName) : HandsTypes fit R (typeOf node hint) :=
  supply.createType supply.typeAt typed hh

theorem variableTypeOf {node : Option Node} (typed : strict → ∀ n ∈ node, n.WellTyped) :
    Secures fit R s (variableTypeOf node) fine := by
  cases node with
  | none => exact supply.variableType fun _ => .throw _
  | some node => exact supply.variableType (supply.typeOf (fun h => typed h node rfl) fun _ => .inl rfl)

/-! ## The stage of types -/

theorem registerEntry (index : Nat) {node : Node} (typed : strict → node.WellTyped) :
    Preserves (KeptUp fit R) (registerEntry index node) := by
  have register {type : ImportM TypeId} (h : HandsTypes fit R type) (report : Fault → String) :
      Preserves (KeptUp fit R)
        (onTypeFault (do Import.setEntry index (← edit (Program.addType (← type)))) fun e =>
          diagnose typesSource (report e)) := by
    have entered (s : Session) : Secures fit R s
        (do Import.setEntry index (← edit (Program.addType (← type)))) fun _ _ => True :=
      (h s).bind fun made _ _ hmade => (supply.addType hmade).bind fun id _ _ hid =>
        (supply.setEntry index hid).mono fun _ _ _ => trivial
    exact .onTypeFault (Secures.preserves entered) fun _ => .diagnose _ _
  have named : Named strict (entryName node index) :=
    .nameOr (fun h => (typed h).typed.name) (fun _ => .inl rfl) _
  cases node with
  | enumeration c constants => exact register (fun _ => supply.newEnumeration named constants) _
  | composite c isRecord bases fields members => exact register (fun _ => supply.newShell named _ _) _
  | _ => exact .pure _

theorem fillEntry (index : Nat) {node : Node} (typed : strict → node.WellTyped) :
    Preserves (KeptUp fit R) (fillEntry index node) := by
  refine Preserves.get fun s => ?_
  split
  · split
    · exact supply.fillNode supply.typeAt _ typed
    · exact .pure _
  · exact .pure _

theorem importTypes : Preserves (KeptUp fit R) importTypes := by
  refine Secures.preserves (P := fun _ _ => True) fun s => .after supply.prepare fun _ t ht => .get ?_
  have types (k : Nat) (n : Node) (hn : n ∈ t.document.types) (h : strict) : n.WellTyped :=
    (supply.wellTyped (Upkeep.fits ht) h).types n hn
  have registered : Preserves (KeptUp fit R) (registerFrom 0 t.document.types) :=
    .registerFrom supply.isCancelled (fun k n hn => supply.registerEntry k (types k n hn)) 0
  refine .after registered fun complete u _ => ?_
  split
  · exact .of (.fillFrom supply.isCancelled (fun k n hn => supply.fillEntry k (types k n hn)) 0)
  · exact .pure trivial

end Supply

end StabsImport.Import

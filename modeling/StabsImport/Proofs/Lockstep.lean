import StabsImport.Proofs.Comments

/-!
# Two runs in step

An import goes by a part of its session: the table of types and the type numbers of the document,
what has been resolved, the room that is left and the program apart from its comments. Two sessions
that are the same in this part are changed in the same way, so a relation between them that bears
such changes holds for as long as the two go on.
-/

namespace StabsImport

namespace Import

open Document (Node Base Variable TypeReference BuiltInClass FunctionDefinition SourceFile)
open Program

/-- What an import goes by is the same in both sessions. -/
structure Session.Reads (s s' : Session) : Prop where
  types : s'.document.types = s.document.types
  numbers : s'.document.files.map (·.typeNumbers) = s.document.files.map (·.typeNumbers)
  program : s'.program = { s.program with comments := s'.program.comments }
  knowsPointerSize : s'.knowsPointerSize = s.knowsPointerSize
  table : s'.table = s.table
  isPrepared : s'.isPrepared = s.isPrepared
  cache : s'.cache = s.cache
  room : s'.room = s.room

/-- Counts that do not go by the number of comments. -/
def Stats.Overlooks (f : Stats → Stats) : Prop :=
  ∀ t lineComments inlineBoundaries,
    f { t with lineComments, inlineBoundaries } = { f t with lineComments, inlineBoundaries }

/-- A relation between sessions in which an import goes by the same, and which holds again after the
same was done to both. -/
class Lockstep (R : Session → Session → Prop) : Prop where
  reads {s s' : Session} : R s s' → s.Reads s'
  edits {α : Type} {s s' : Session} (h : R s s') {e : Edit α} (he : Program.Overlooks e) :
    R { s with program := (e s.program).2 } { s' with program := (e s'.program).2 }
  caches {s s' : Session} (h : R s s') (cache : TypeCache) :
    R { s with cache } { s' with cache }
  tables {s s' : Session} (h : R s s') (table : Array (Option TypeId)) :
    R { s with table } { s' with table }
  prepares {s s' : Session} (h : R s s') :
    R { s with isPrepared := true } { s' with isPrepared := true }
  rooms {s s' : Session} (h : R s s') (room : Room) : R { s with room } { s' with room }
  reports {s s' : Session} (h : R s s') (notice : Notice) :
    R { s with journal := s.journal.push notice } { s' with journal := s'.journal.push notice }
  counts {s s' : Session} (h : R s s') {f : Stats → Stats} (hf : Stats.Overlooks f) :
    R { s with stats := f s.stats } { s' with stats := f s'.stats }

/-- Two ends of a run with the same result, in sessions that are so related. -/
def KeepStep {α : Type} (R : Session → Session → Prop) (x x' : Except Fault α × Session) : Prop :=
  x'.1 = x.1 ∧ R x.2 x'.2

/-- Run in two sessions that are so related, the action keeps them so and ends in the same way. -/
def Tracks {α : Type} (R : Session → Session → Prop) (m : ImportM α) : Prop :=
  ∀ s s', R s s' → KeepStep R (m s) (m s')

variable {α β : Type} {R : Session → Session → Prop} {s s' : Session}

namespace Session.Reads

theorem arena (h : s.Reads s') : s'.program.arena = s.program.arena := by rw [h.program]

theorem functions (h : s.Reads s') : s'.program.functions = s.program.functions := by
  rw [h.program]

theorem pointerSize (h : s.Reads s') : s'.program.pointerSize = s.program.pointerSize := by
  rw [h.program]

end Session.Reads

namespace Tracks

theorem pure (a : α) : Tracks R (pure a : ImportM α) := fun _ _ h => ⟨rfl, h⟩

theorem throw (e : Fault) : Tracks R (throw e : ImportM α) := fun _ _ h => ⟨rfl, h⟩

theorem bind {m : ImportM α} {f : α → ImportM β} (hm : Tracks R m) (hf : ∀ a, Tracks R (f a)) :
    Tracks R (m >>= f) := by
  intro s s' h
  obtain ⟨result, kept⟩ := hm s s' h
  rw [Runs.bind_apply, Runs.bind_apply]
  rcases hs : m s with ⟨r, t⟩
  rcases hs' : m s' with ⟨r', t'⟩
  rw [hs, hs'] at result kept
  obtain rfl : r' = r := result
  cases r' with
  | ok a => exact hf a _ _ kept
  | error e => exact ⟨rfl, kept⟩

theorem modify {f : Session → Session} (hf : ∀ {s s' : Session}, R s s' → R (f s) (f s')) :
    Tracks R (modify f : ImportM PUnit) := fun _ _ h => ⟨rfl, hf h⟩

theorem tryCatch {m : ImportM α} {handle : Fault → ImportM α} (hm : Tracks R m)
    (hh : ∀ e, Tracks R (handle e)) : Tracks R (tryCatch m handle) := by
  intro s s' h
  obtain ⟨result, kept⟩ := hm s s' h
  rw [Runs.tryCatch_apply, Runs.tryCatch_apply]
  rcases hs : m s with ⟨r, t⟩
  rcases hs' : m s' with ⟨r', t'⟩
  rw [hs, hs'] at result kept
  obtain rfl : r' = r := result
  cases r' with
  | ok a => exact ⟨rfl, kept⟩
  | error e => exact hh e _ _ kept

theorem onTypeFault {m : ImportM α} {handle : Fault → ImportM α} (hm : Tracks R m)
    (hh : ∀ e, Tracks R (handle e)) : Tracks R (onTypeFault m handle) :=
  tryCatch hm fun e => by
    split
    · exact hh e
    · exact throw e

theorem onRejection {m : ImportM α} {handle : Fault → ImportM α} (hm : Tracks R m)
    (hh : ∀ e, Tracks R (handle e)) : Tracks R (onRejection m handle) :=
  tryCatch hm fun e => by
    split
    · exact hh e
    · exact throw e

theorem getting {f : Session → ImportM α} (same : ∀ {s s' : Session}, R s s' → f s' = f s)
    (hf : ∀ {s s'}, R s s' → Tracks R (f s)) : Tracks R (get >>= f) := fun s s' h => by
  show KeepStep R (f s s) (f s' s')
  rw [same h]
  exact hf h s s' h

variable [Lockstep R]

theorem get {f : Session → ImportM α} (same : ∀ {s s' : Session}, s.Reads s' → f s' = f s)
    (hf : ∀ s, Tracks R (f s)) : Tracks R (get >>= f) :=
  getting (fun h => same (Lockstep.reads h)) fun {s _} _ => hf s

theorem edit {e : Edit α} (he : Overlooks e) : Tracks R (edit e) := fun s s' h => by
  refine ⟨?_, Lockstep.edits h he⟩
  show (e s'.program).1 = (e s.program).1
  rw [(Lockstep.reads h).program, he]

theorem count {f : Stats → Stats} (hf : Stats.Overlooks f) : Tracks R (count f) :=
  modify fun h => Lockstep.counts h hf

theorem inside (calls : Nat) {m : ImportM α} (hm : Tracks R m) :
    Tracks R (inside calls m) := by
  intro s s' h
  unfold Import.inside
  rw [(Lockstep.reads h).room]
  split
  · obtain ⟨result, kept⟩ := hm _ _ (Lockstep.rooms h (s.room.inside calls))
    exact ⟨result, Lockstep.rooms kept s.room⟩
  · exact ⟨rfl, h⟩

theorem need (calls : Nat) : Tracks R (need calls) := inside calls (.pure _)

theorem diagnose (source message : String) : Tracks R (diagnose source message) :=
  (need _).bind fun _ => modify fun h => Lockstep.reports h _

theorem reportFault (source : String) (e : Fault) : Tracks R (reportFault source e) :=
  diagnose _ _

end Tracks

variable [Lockstep R]

/-! ## Single steps -/

theorem setEntry_tracks (k : Nat) (id : TypeId) : Tracks R (setEntry k id) :=
  .modify fun h => by
    rw [(Lockstep.reads h).table]
    exact Lockstep.tables h _

theorem prepare_tracks : Tracks R prepare := by
  intro s s' h
  have reads := Lockstep.reads h
  show KeepStep R ((if s.isPrepared = true then _ else _ : ImportM Unit) s)
    ((if s'.isPrepared = true then _ else _ : ImportM Unit) s')
  rw [reads.isPrepared, reads.types]
  split
  · exact ⟨rfl, h⟩
  · dsimp only
    split
    · exact ⟨rfl, h⟩
    · have table := Lockstep.tables h (Array.replicate s.document.types.length none)
      exact ⟨rfl, Lockstep.prepares table⟩

theorem pointerSize_tracks : Tracks R pointerSize :=
  .get (fun h => by rw [h.knowsPointerSize, h.pointerSize]) fun s => by
    split
    · exact .throw _
    · exact .pure _

theorem cacheNode_tracks (serial : Nat) (id : TypeId) : Tracks R (cacheNode serial id) :=
  .modify fun h => by
    rw [(Lockstep.reads h).cache]
    exact Lockstep.caches h _

theorem cached_tracks (serial : Nat) : Tracks R ( cached? serial) :=
  .get (fun h => by rw [h.cache]) fun _ => .pure _

theorem builtIn_tracks (c : BuiltInClass) : Tracks R (builtIn c) := by
  refine (Tracks.need 3).bind fun _ => .get (fun h => by rw [h.cache]) fun s => ?_
  split
  · exact .pure _
  · refine (Tracks.edit (overlooks_newType _)).bind fun id =>
      Tracks.bind (.modify fun h => ?_) fun _ => .pure _
    rw [(Lockstep.reads h).cache]
    exact Lockstep.caches h _

theorem pointerTo_tracks (target : TypeId) : Tracks R (pointerTo target) := by
  refine (Tracks.need 3).bind fun _ => pointerSize_tracks.bind fun size =>
    .get (fun h => by rw [h.cache]) fun s => ?_
  split
  · exact .pure _
  · refine (Tracks.edit (overlooks_newType _)).bind fun id =>
      Tracks.bind (.modify fun h => ?_) fun _ => .pure _
    rw [(Lockstep.reads h).cache]
    exact Lockstep.caches h _

theorem arrayOf_tracks (element : TypeId) (count : Int) : Tracks R (arrayOf element count) := by
  refine (Tracks.need 3).bind fun _ => (Tracks.edit (overlooks_sizedType _)).bind fun element =>
    .get (fun h => by rw [h.cache]) fun s => ?_
  split
  · exact .pure _
  · refine (Tracks.edit (overlooks_newArray _ _)).bind fun id =>
      Tracks.bind (.modify fun h => ?_) fun _ => .pure _
    rw [(Lockstep.reads h).cache]
    exact Lockstep.caches h _

theorem addConstants_tracks (type : Json) (values : Ledger Json Int)
    (constants : List (Int × Json)) : Tracks R (addConstants type values constants) := by
  induction constants generalizing values with
  | nil => exact .pure _
  | cons k rest ih =>
      simp only [addConstants]
      split
      · exact .throw _
      · split
        · exact (Tracks.diagnose _ _).bind fun _ => ih _
        · exact ih _

theorem newEnumeration_tracks (name : Json) (constants : List (Int × Json)) :
    Tracks R (newEnumeration name constants) :=
  (Tracks.need 3).bind fun _ => (addConstants_tracks _ _ _).bind fun _ =>
    .edit (overlooks_newType _)

theorem newShell_tracks (isRecord : Bool) (sizeBits : Int) (name : Json) :
    Tracks R (newShell isRecord sizeBits name) :=
  (Tracks.need 3).bind fun _ => .edit (overlooks_newComposite _ _ _)

theorem newSignature_tracks (name : Json) (returns : TypeId) (parameters : List TypeId) :
    Tracks R (newSignature name returns parameters) :=
  (Tracks.need 2).bind fun _ => .edit (overlooks_newType _)

/-! ## References -/

theorem entryNumbered_eq {d d' : Document}
    (h : d'.files.map (·.typeNumbers) = d.files.map (·.typeNumbers)) (r : TypeReference) :
    entryNumbered? d' r = entryNumbered? d r := by
  have files (k : Nat) : (d'.files[k]?).map (·.typeNumbers) = (d.files[k]?).map (·.typeNumbers) := by
    rw [← List.getElem?_map, ← List.getElem?_map, h]
  unfold entryNumbered?
  cases r.number with
  | none => rfl
  | some number =>
      have found (numbers : Document.SourceFile → Ledger (Int × Int) Int) (k : Nat) (d : Document) :
          (d.files[k]?).bind (fun file => (numbers file).get? (number.file, number.type.value)) =
            ((d.files[k]?).map numbers).bind (·.get? (number.file, number.type.value)) := by
        rw [Option.bind_map]
        rfl
      simp only [bind, Option.bind_some, found, files]

theorem entryNamed_eq {d d' : Document} (h : d'.types = d.types) (name : Json) :
    entryNamed? d' name = entryNamed? d name := by
  rw [entryNamed?, entryNamed?, h]

theorem lookUp_tracks (r : TypeReference) : Tracks R (lookUp r) := by
  refine prepare_tracks.bind fun _ => .get (fun h => ?_) fun s => ?_
  · simp only [entryOf?, entryNumbered_eq h.numbers, entryNamed_eq h.types]
  · dsimp only
    split
    · exact (Tracks.throw _).bind fun _ => .pure _
    · exact .pure _

/-! ## Placing members -/

theorem isVoid_tracks (id : TypeId) : Tracks R (isVoid id) :=
  .get (fun h => by rw [h.arena]) fun _ => .pure _

theorem placeBase_tracks (shell : TypeId) (index : Nat) (offset : Int) (type : TypeId) :
    Tracks R (placeBase shell index offset type) :=
  (Tracks.edit (overlooks_typeLength _)).bind fun _ => .edit (overlooks_editComposite _ _ _)

theorem placeBitField_tracks (shell : TypeId) (field : Node) (offsetBits : Int) (name : Json)
    (underlying : TypeId) : Tracks R (placeBitField shell field offsetBits name underlying) := by
  refine (Tracks.edit (overlooks_sizedType _)).bind fun sized =>
    (Tracks.edit (overlooks_typeLength sized)).bind fun _ =>
      (Tracks.edit (overlooks_kindOf shell)).bind fun _ => ?_
  split
  · exact .edit (overlooks_editComposite _ _ _)
  · exact .edit (overlooks_editComposite _ _ _)

theorem placeField_tracks (shell : TypeId) (field : Node) (name : Json) (type : TypeId) :
    Tracks R (placeField shell field name type) := by
  have place (type : TypeId) : Tracks R (placeSolid shell field name type) := by
    refine .get (fun h => by rw [h.arena]) fun s => ?_
    dsimp only
    split
    · refine (Tracks.edit (overlooks_typeName type)).bind fun _ => (Tracks.throw _).bind fun _ =>
        (Tracks.edit (overlooks_kindOf shell)).bind fun kind => ?_
      split <;> exact .edit (overlooks_editComposite _ _ _)
    · refine (Tracks.edit (overlooks_kindOf shell)).bind fun kind => ?_
      split <;> exact .edit (overlooks_editComposite _ _ _)
  rw [placeField_eq]
  refine Tracks.bind ((isVoid_tracks type).bind fun isVoid => ?_) place
  split
  · exact .edit (overlooks_newUndefined 1)
  · exact .pure _

theorem reportBase_tracks (shell : TypeId) (index : Nat) (e : Fault) :
    Tracks R (reportBase shell index e) :=
  (Tracks.edit (overlooks_typeName shell)).bind fun _ => .diagnose _ _

theorem reportField_tracks (shell : TypeId) (name : Json) (e : Fault) :
    Tracks R (reportField shell name e) :=
  (Tracks.edit (overlooks_typeName shell)).bind fun _ => .diagnose _ _

/-! ## The walk over a node -/

variable {enter : Int → ImportM TypeId}

theorem resolveReference_tracks (he : ∀ index, Tracks R (enter index)) (r : TypeReference) :
    Tracks R (resolveReference enter r) := by
  unfold resolveReference
  split
  · exact builtIn_tracks _
  · refine (Tracks.need 2).bind fun _ => (lookUp_tracks r).bind fun found => ?_
    split
    · exact he _
    · exact (Tracks.diagnose _ _).bind fun _ => .edit (overlooks_newUndefined 1)

theorem variableType_tracks {type : ImportM TypeId} (h : Tracks R type) :
    Tracks R (variableType type) :=
  .onTypeFault (h.bind fun _ => .edit (overlooks_sizedType _)) fun _ =>
    (Tracks.diagnose _ _).bind fun _ => .edit (overlooks_newUndefined 1)

theorem parameterTypes_tracks {vs : List Variable}
    (h : ∀ v ∈ vs, Tracks R (createType enter v.type .null)) : Tracks R (parameterTypes enter vs) := by
  induction vs with
  | nil =>
      rw [parameterTypes_nil]
      exact .pure _
  | cons v rest ih =>
      have hrest := ih fun w hw => h w (List.mem_cons_of_mem _ hw)
      rw [parameterTypes]
      exact (variableType_tracks (h v List.mem_cons_self)).bind fun _ =>
        hrest.bind fun _ => .pure _

theorem fillBases_tracks (shell : TypeId) {bases : List Base}
    (h : ∀ b ∈ bases, Tracks R (createType enter b.type .null)) (index : Nat) :
    Tracks R (fillBases enter shell index bases) := by
  induction bases generalizing index with
  | nil =>
      rw [fillBases_nil]
      exact .pure _
  | cons b rest ih =>
      have hrest := ih fun w hw => h w (List.mem_cons_of_mem _ hw)
      rw [fillBases]
      refine Tracks.bind (.onTypeFault ?_ fun _ => reportBase_tracks _ _ _) fun _ => hrest _
      exact (h b List.mem_cons_self).bind fun id => placeBase_tracks _ _ _ id

theorem fillFields_tracks (shell : TypeId) {fields : List Node}
    (h : ∀ f ∈ fields, ∀ hint, Tracks R (createType enter f hint))
    (hbits : ∀ c offsetBits underlying, .bitField c offsetBits underlying ∈ fields → ∀ hint,
      Tracks R (createType enter underlying hint)) (index : Nat) :
    Tracks R (fillFields enter shell index fields) := by
  induction fields generalizing index with
  | nil =>
      rw [fillFields_nil]
      exact .pure _
  | cons f rest ih =>
      have hrest := ih (fun g hg => h g (List.mem_cons_of_mem _ hg))
        fun c o u hg => hbits c o u (List.mem_cons_of_mem _ hg)
      rcases f.isBitField_or with ⟨c, offsetBits, underlying, rfl⟩ | hb
      · simp only [fillFields]
        refine Tracks.bind (.onTypeFault (.inside 2 ?_) fun _ => reportField_tracks _ _ _)
          fun _ => hrest _
        exact (hbits c offsetBits underlying List.mem_cons_self _).bind fun id =>
          placeBitField_tracks _ _ _ _ id
      · rw [fillFields.eq_3 _ _ _ _ _ hb]
        refine Tracks.bind (.onTypeFault (.inside 1 ?_) fun _ => reportField_tracks _ _ _)
          fun _ => hrest _
        exact (Tracks.edit (overlooks_typeName shell)).bind fun _ => (h f List.mem_cons_self _).bind fun id =>
          placeField_tracks _ f _ id

theorem fill_tracks (shell : TypeId) {isRecord : Bool} {bases : List Base} {fields : List Node}
    (hb : isRecord = true → ∀ b ∈ bases, Tracks R (createType enter b.type .null))
    (hf : ∀ f ∈ fields, ∀ hint, Tracks R (createType enter f hint))
    (hbits : ∀ c offsetBits underlying, .bitField c offsetBits underlying ∈ fields → ∀ hint,
      Tracks R (createType enter underlying hint)) :
    Tracks R (fill enter shell isRecord bases fields) := by
  refine .inside 1 ?_
  have hfields := fillFields_tracks shell hf hbits 0
  cases isRecord with
  | false => exact hfields
  | true => exact (fillBases_tracks shell (hb rfl) 0).bind fun _ => hfields

theorem Tracks.cached {make : ImportM TypeId} (h : Tracks R make) (serial : Nat) :
    Tracks R (orCached serial make) := by
  refine (cached_tracks serial).bind fun found => ?_
  split
  · exact .pure _
  · exact h

/-- Making the type of a node is blind if entering the table is. -/
theorem createType_tracks (he : ∀ index, Tracks R (enter index)) (node : Node) (hint : Json) :
    Tracks R (createType enter node hint) := by
  -- on the height, since the lists of a node's parts are not parts themselves
  induction hh : node.height using Nat.strongRecOn generalizing node hint with
  | ind height ih =>
  subst hh
  have part {m : Node} (hm : m ∈ node.parts) (hint : Json) : Tracks R (createType enter m hint) :=
    ih m.height (Node.height_lt_of_mem_parts hm) m hint rfl
  have underlying {c : Document.Common} {offsetBits : Int} {m : Node}
      (hm : .bitField c offsetBits m ∈ node.parts) (hint : Json) :
      Tracks R (createType enter m hint) := by
    have hlt : m.height < (Node.bitField c offsetBits m).height :=
      Node.height_lt_of_mem_parts (List.mem_singleton_self m)
    exact ih m.height (Nat.lt_trans hlt (Node.height_lt_of_mem_parts hm)) m hint rfl
  cases node with
  | typeName c r =>
      rw [createType_typeName]
      exact .inside 2 (resolveReference_tracks he r)
  | builtIn c b =>
      rw [createType]
      exact .inside 1 (builtIn_tracks b)
  | pointer c p target =>
      rw [createType]
      exact .inside 1 ((part (List.mem_singleton_self target) _).bind fun _ => pointerTo_tracks _)
  | array c element count =>
      rw [createType]
      exact .inside 1 ((part (List.mem_singleton_self element) _).bind fun _ => arrayOf_tracks _ _)
  | bitField c o u =>
      rw [createType]
      exact .inside 1 (part (List.mem_singleton_self u) _)
  | memberPointer c k m =>
      rw [createType]
      exact .inside 1 ((Tracks.need 2).bind fun _ => pointerSize_tracks.bind fun _ =>
        .edit (overlooks_newUndefined _))
  | functionType f =>
      have returns : Tracks R (returnTypeOf enter f.returnType) := by
        cases hr : f.returnType with
        | none => exact builtIn_tracks _
        | some n => exact part (List.mem_append_left _ (by simp [hr])) _
      have formals : Tracks R (formalTypesOf enter f.parameters) := by
        cases hp : f.parameters with
        | none => exact .pure _
        | some vs =>
            refine .inside 2 (parameterTypes_tracks fun v hv => part ?_ _)
            exact List.mem_append_right _ (List.mem_map_of_mem (by simpa [hp] using hv))
      rw [createType_functionType]
      refine .inside 2 (.cached (returns.bind fun _ => formals.bind fun _ => ?_) _)
      exact (newSignature_tracks _ _ _).bind fun _ => (cacheNode_tracks _ _).bind fun _ => .pure _
  | enumeration c constants =>
      rw [createType]
      exact .inside 1 (.cached ((newEnumeration_tracks _ _).bind fun _ =>
        (cacheNode_tracks _ _).bind fun _ => .pure _) _)
  | composite c isRecord bases fields members =>
      have filling (shell : TypeId) : Tracks R (fill enter shell isRecord bases fields) := by
        refine fill_tracks shell ?_ ?_ ?_
        · rintro rfl b hb
          exact part (Node.mem_parts_of_mem_bases hb) _
        · exact fun f hf hint => part (Node.mem_parts_of_mem_fields hf) hint
        · exact fun _ _ _ hu hint => underlying (Node.mem_parts_of_mem_fields hu) hint
      rw [createType]
      exact .inside 1 (.cached ((newShell_tracks _ _ _).bind fun shell =>
        (cacheNode_tracks _ _).bind fun _ => (filling shell).bind fun _ => .pure _) _)
  | variable_ | functionDefinition | sourceFile =>
      rw [createType]
      exact .throw _

/-! ## Entries of the table -/

/-- An entry takes what is made for it, or what stands in for that. -/
theorem takeEntry_tracks {type : ImportM TypeId} (h : Tracks R type) (k : Nat)
    (report : Fault → String) :
    Tracks R (do
      let id ← onTypeFault type fun e => do
        diagnose typesSource (report e)
        undefined1
      setEntry k id
      return id) := by
  refine Tracks.bind (.onTypeFault h fun _ => ?_) fun id =>
    (setEntry_tracks k id).bind fun _ => .pure _
  exact (Tracks.diagnose _ _).bind fun _ => .edit (overlooks_newUndefined 1)

theorem resolveEntry_tracks (he : ∀ index, Tracks R (enter index)) (k : Nat) (node : Node) :
    Tracks R (resolveEntry enter k node) := by
  cases node with
  | composite c isRecord bases fields members =>
      have filling (shell : TypeId) : Tracks R (fill enter shell isRecord bases fields) :=
        fill_tracks shell (fun _ b _ => createType_tracks he b.type _)
          (fun f _ => createType_tracks he f) fun _ _ u _ => createType_tracks he u
      simp only [resolveEntry]
      exact (newShell_tracks _ _ _).bind fun made => (Tracks.edit (overlooks_addType made)).bind fun shell =>
        (setEntry_tracks k shell).bind fun _ => (filling shell).bind fun _ => .pure _
  | enumeration c constants =>
      exact takeEntry_tracks ((newEnumeration_tracks _ _).bind fun _ =>
        .edit (overlooks_addType _)) k _
  | _ => exact takeEntry_tracks (createType_tracks he _ _) k _

theorem knownEntry_tracks (opened : List Nat) (index : Int) :
    Tracks R ( knownEntry? opened index) := by
  have placeholder (text : String) : Tracks R
      (do diagnose typesSource text; return some (← undefined1)) :=
    (Tracks.diagnose _ _).bind fun _ =>
      (Tracks.edit (overlooks_newUndefined 1)).bind fun _ => .pure _
  refine prepare_tracks.bind fun _ => .get (fun h => by rw [h.table]) fun s => ?_
  dsimp only
  split
  · exact placeholder _
  · split
    · exact .pure _
    · split
      · exact placeholder _
      · exact .pure _

theorem typeAtWithin_tracks (budget : Nat) (opened : List Nat) (index : Int) :
    Tracks R (typeAtWithin budget opened index) := by
  induction budget generalizing opened index with
  | zero =>
      rw [typeAtWithin]
      refine .inside 1 ((knownEntry_tracks opened index).bind fun known => ?_)
      cases known with
      | some id => exact .pure _
      | none => exact .throw _
  | succ budget ih =>
      rw [typeAtWithin]
      refine .inside 1 ((knownEntry_tracks opened index).bind fun known => ?_)
      cases known with
      | some id => exact .pure _
      | none =>
          refine .get (fun h => by rw [h.types]) fun s => ?_
          split
          · exact resolveEntry_tracks (ih _) _ _
          · exact .throw _

theorem typeAt_tracks (index : Int) : Tracks R (typeAt index) :=
  .get (fun h => by rw [h.types]) fun _ => typeAtWithin_tracks _ _ index

theorem typeOf_tracks (node : Node) (hint : Json) : Tracks R (typeOf node hint) :=
  createType_tracks typeAt_tracks node hint

theorem variableTypeOf_tracks (node : Node) : Tracks R (variableTypeOf (some node)) :=
  variableType_tracks (typeOf_tracks node .null)


/-! ## The stage of types -/

theorem registerEntry_tracks (index : Nat) (node : Node) : Tracks R (registerEntry index node) := by
  have register {type : ImportM TypeId} (h : Tracks R type) (report : Fault → String) :
      Tracks R (onTypeFault (do setEntry index (← edit (Program.addType (← type)))) fun e =>
        diagnose typesSource (report e)) := by
    refine .onTypeFault (h.bind fun id => ?_) fun _ => .diagnose _ _
    exact (Tracks.edit (overlooks_addType id)).bind fun _ => setEntry_tracks index _
  cases node with
  | enumeration c constants => exact register (newEnumeration_tracks _ _) _
  | composite c isRecord bases fields members => exact register (newShell_tracks _ _ _) _
  | _ => exact .pure _

theorem fillEntry_tracks (index : Nat) (node : Node) : Tracks R (fillEntry index node) := by
  refine .get (fun h => by rw [h.table, h.arena]) fun s => ?_
  split
  · next c isRecord bases fields members shell hentry =>
      split
      · exact fill_tracks _ (fun _ b _ => createType_tracks typeAt_tracks b.type _)
          (fun f _ => createType_tracks typeAt_tracks f)
          fun _ _ u _ => createType_tracks typeAt_tracks u
      · exact .pure _
  · exact .pure _

section

variable (checked : Tracks R isCancelled)

include checked

theorem registerFrom_tracks (index : Nat) (nodes : List Node) :
    Tracks R (registerFrom index nodes) := by
  induction nodes generalizing index with
  | nil => exact .pure _
  | cons node rest ih =>
      refine checked.bind fun cancelled => ?_
      split
      · exact .pure _
      · exact (registerEntry_tracks index node).bind fun _ => ih _

theorem fillFrom_tracks (index : Nat) (nodes : List Node) : Tracks R (fillFrom index nodes) := by
  induction nodes generalizing index with
  | nil => exact .pure _
  | cons node rest ih =>
      refine checked.bind fun cancelled => ?_
      split
      · exact .pure _
      · exact (fillEntry_tracks index node).bind fun _ => ih _

theorem importTypes_tracks : Tracks R importTypes := by
  refine prepare_tracks.bind fun _ => .get (fun h => by rw [h.types]) fun s => ?_
  refine (registerFrom_tracks checked 0 _).bind fun complete => ?_
  split
  · exact fillFrom_tracks checked 0 _
  · exact .pure _

end

/-! ## Functions -/

/-- The line comments of a definition, if they are wanted. -/
def annotateLines (d : FunctionDefinition) : ImportM Unit := do
  if (← get).outputLines then setLineComments d

/-- The comments at the boundaries of a definition's inlined sections, if they are wanted. -/
def annotateInlined (d : FunctionDefinition) (file : SourceFile) : ImportM Unit := do
  if (← get).markInlined then markInlined d file

theorem importFunction_eq (d : FunctionDefinition) (file : SourceFile) :
    importFunction d file = (do
      let (low, last) ← (match bodyOf d with
        | .ok body => pure body
        | .error e => throw e : ImportM (Bound × Bound))
      match ← findOrMake d low last with
      | none => return false
      | some entry =>
          nameFunction entry d file
          setReturnType entry d
          setParameters entry d
          annotateLines d
          annotateInlined d file
          setLocals entry d
          return true) := by
  have wanted (read : Session → Bool) (m : ImportM Unit) (rest : ImportM Bool) :
      (do
        if read (← get) then m
        rest) = (do if read (← get) then m : ImportM Unit) >>= fun _ => rest := by
    rw [bind_assoc]
    refine bind_congr fun s => ?_
    cases read s with
    | true => rfl
    | false => exact (pure_bind (PUnit.unit : PUnit) fun _ => rest).symm
  unfold importFunction
  refine bind_congr fun range => bind_congr fun found => ?_
  cases found with
  | none => rfl
  | some entry =>
      refine bind_congr fun _ => bind_congr fun _ => bind_congr fun _ => ?_
      refine (wanted (·.outputLines) (setLineComments d) _).trans (bind_congr fun _ => ?_)
      exact wanted (·.markInlined) (markInlined d file) _

theorem findOrMake_tracks (d : FunctionDefinition) (low last : Bound) :
    Tracks R (findOrMake d low last) := by
  have there : Tracks R (do
      let p := (← get).program
      return low.whole?.filter fun entry => p.functions.contains entry) :=
    .get (fun h => by simp only [h.functions]) fun _ => .pure _
  have make : Tracks R (makeAt d last low) := by
    cases low with
    | whole low => exact .edit (.ite (overlooks_createFunction _ _ _ _)
        (overlooks_createFunction _ _ _ _))
    | real x =>
        refine .get (fun h => by rw [h.functions]) fun s => ?_
        dsimp only
        split
        · exact .throw _
        · split
          · split <;> exact .throw _
          · exact .throw _
  refine there.bind fun found => ?_
  split
  · exact .pure _
  · exact (Tracks.onRejection make fun _ => .diagnose _ _).bind fun _ => there

theorem parametersOf_tracks (vs : List Variable) : Tracks R (parametersOf vs) := by
  induction vs with
  | nil => exact .pure _
  | cons v rest ih =>
      have type : Tracks R (parameterType v) := by
        refine (Tracks.inside 3 (variableTypeOf_tracks v.type)).bind fun type => ?_
        split
        · exact pointerTo_tracks type
        · exact .pure type
      rw [parametersOf_cons]
      refine type.bind fun type => ?_
      split
      · exact (Tracks.throw _).bind fun _ => ih.bind fun _ => .pure _
      · exact (Tracks.pure _).bind fun _ => ih.bind fun _ => .pure _

theorem nameFunction_tracks (entry : Int) (d : FunctionDefinition) (file : SourceFile) :
    Tracks R (nameFunction entry d file) := by
  have drop : Overlooks (do dropStale entry d.common.name ((← get).symbolsAt entry)) :=
    .get (fun _ _ => rfl) fun _ => overlooks_dropStale _ _ _
  exact (Tracks.edit drop).bind fun _ =>
    (Tracks.onRejection (.edit (overlooks_renameFunction _ _ _)) (.reportFault _)).bind fun _ =>
      .edit (overlooks_setFunctionComment _ _)

theorem setReturnType_tracks (entry : Int) (d : FunctionDefinition) :
    Tracks R (setReturnType entry d) := by
  unfold setReturnType
  split
  · exact .pure _
  · refine .onTypeFault ?_ (.reportFault _)
    exact (Tracks.inside 1 (typeOf_tracks _ _)).bind fun id =>
      .edit (overlooks_setReturnType _ _)

theorem setParameters_tracks (entry : Int) (d : FunctionDefinition) :
    Tracks R (setParameters entry d) := by
  have replace (declared : List Variable) : Tracks R (do
      let parameters ← parametersOf declared
      onRejection
        (do
          edit (Program.replaceParameters entry parameters)
          count fun t => { t with parameters := t.parameters + parameters.length })
        fun e => diagnose functionsSource
          s!"Failed to setup parameters for {d.common.name.plain}: {e.message}") :=
    (parametersOf_tracks declared).bind fun parameters =>
      .onRejection ((Tracks.edit (overlooks_replaceParameters _ _)).bind fun _ =>
        .count fun _ _ _ => rfl) fun _ => .diagnose _ _
  unfold setParameters
  dsimp only
  split
  · exact .pure _
  · exact replace _

theorem setLocals_tracks (entry : Int) (d : FunctionDefinition) : Tracks R (setLocals entry d) := by
  have add (locals : List (Json × Variable)) : Tracks R (addLocals entry locals) := by
    induction locals with
    | nil => exact .pure _
    | cons l rest ih =>
        refine (Tracks.inside 3 (variableTypeOf_tracks l.2.type)).bind fun type => ?_
        refine (Tracks.onRejection ?_ (.reportFault _)).bind fun _ => ih
        exact (Tracks.edit (overlooks_addLocal _ _ _ _)).bind fun _ => .count fun _ _ _ => rfl
  unfold setLocals setLocalsBeside
  split
  · exact (Tracks.throw _).bind fun _ => add _
  · exact (Tracks.pure _).bind fun _ => add _

/-- Writing the comments of a definition in both sessions keeps them so related. -/
structure Annotates (R : Session → Session → Prop) (x : FunctionDefinition × SourceFile) :
    Prop where
  lines : Tracks R (annotateLines x.1)
  inlined : Tracks R (annotateInlined x.1 x.2)

omit [Lockstep R] in
/-- Where edits and counts of any kind come to the same in both, so do comments. -/
theorem Annotates.of_all (x : FunctionDefinition × SourceFile)
    (lines : ∀ {s s' : Session}, R s s' → s'.outputLines = s.outputLines)
    (inlined : ∀ {s s' : Session}, R s s' → s'.markInlined = s.markInlined)
    (edits : ∀ e : Edit PUnit, Tracks R (edit e)) (counts : ∀ f, Tracks R (count f)) :
    Annotates R x where
  lines := .getting (fun h => by rw [lines h]) fun _ => by
    split
    · exact (edits _).bind fun _ => counts _
    · exact .pure _
  inlined := .getting (fun h => by rw [inlined h]) fun _ => by
    split
    · exact (edits _).bind fun _ => counts _
    · exact .pure _

theorem importFunction_tracks {x : FunctionDefinition × SourceFile} (hx : Annotates R x) :
    Tracks R (importFunction x.1 x.2) := by
  rw [importFunction_eq]
  cases bodyOf x.1 with
  | error e => exact .throw e
  | ok range =>
      refine (findOrMake_tracks x.1 _ _).bind fun found => ?_
      split
      · exact .pure _
      · next entry =>
          exact (nameFunction_tracks entry x.1 x.2).bind fun _ =>
            (setReturnType_tracks entry x.1).bind fun _ =>
              (setParameters_tracks entry x.1).bind fun _ => hx.lines.bind fun _ =>
                hx.inlined.bind fun _ => (setLocals_tracks entry x.1).bind fun _ => .pure _

/-- What is done for a definition if the work is not cancelled before. -/
def takeUpFunction (x : FunctionDefinition × SourceFile) : ImportM Unit := do
  let made ← if isComplete x.1 then importFunction x.1 x.2 else pure false
  if made then count fun t => { t with functions := t.functions + 1 } else skipped

theorem importFunctionsFrom_step (x : FunctionDefinition × SourceFile)
    (rest : List (FunctionDefinition × SourceFile)) :
    importFunctionsFrom (x :: rest) = (do
      if ← isCancelled then return
      takeUpFunction x
      importFunctionsFrom rest) := by
  obtain ⟨d, file⟩ := x
  simp only [importFunctionsFrom, takeUpFunction]
  refine bind_congr fun cancelled => ?_
  cases cancelled with
  | true => rfl
  | false =>
      cases isComplete d with
      | true =>
          simp only [Bool.false_eq_true, if_false, Bool.not_true, if_true, bind_assoc]
          refine bind_congr fun made => ?_
          cases made <;> rfl
      | false => rfl

theorem takeUpFunction_tracks {x : FunctionDefinition × SourceFile} (hx : Annotates R x) :
    Tracks R (takeUpFunction x) := by
  have counted (made : Bool) : Tracks R
      (if made then count fun t => { t with functions := t.functions + 1 } else skipped) := by
    split
    · exact .count fun _ _ _ => rfl
    · exact Tracks.count fun _ _ _ => rfl
  unfold takeUpFunction
  split
  · exact (importFunction_tracks hx).bind counted
  · exact (Tracks.pure false).bind counted

theorem importFunctionsFrom_tracks (checked : Tracks R isCancelled)
    {l : List (FunctionDefinition × SourceFile)} (hl : ∀ x ∈ l, Annotates R x) :
    Tracks R (importFunctionsFrom l) := by
  induction l with
  | nil => exact .pure _
  | cons x rest ih =>
      rw [importFunctionsFrom_step]
      refine checked.bind fun cancelled => ?_
      split
      · exact .pure _
      · exact (takeUpFunction_tracks (hl x List.mem_cons_self)).bind fun _ =>
          ih fun y hy => hl y (List.mem_cons_of_mem _ hy)

/-! ## Globals -/

theorem placeGlobal_tracks (v : Variable) : Tracks R (placeGlobal v) := by
  refine (Tracks.inside 1 (variableTypeOf_tracks v.type)).bind fun type => ?_
  refine (Tracks.onRejection ?_ (.reportFault _)).bind fun _ => ?_
  · exact (Tracks.edit (overlooks_typeLength type)).bind fun _ =>
      .edit (overlooks_createData _ _ _ _)
  · refine (Tracks.onRejection ?_ (.reportFault _)).bind fun _ => .count fun _ _ _ => rfl
    exact (Tracks.edit (overlooks_createLabel _ _ _)).bind fun _ => .pure _

/-- What is done for a global if the work is not cancelled before. -/
def takeUpGlobal (v : Variable) : ImportM Unit := do
  if v.storage.globalAddress ≥ 0 then placeGlobal v

theorem importGlobalsFrom_step (v : Variable) (rest : List Variable) :
    importGlobalsFrom (v :: rest) = (do
      if ← isCancelled then return
      takeUpGlobal v
      importGlobalsFrom rest) := by
  simp only [importGlobalsFrom, takeUpGlobal]
  refine bind_congr fun cancelled => ?_
  cases cancelled with
  | true => rfl
  | false =>
      by_cases h : v.storage.globalAddress ≥ 0
      · simp only [h, if_true]
      · simp only [h, if_false, pure_bind]

theorem takeUpGlobal_tracks (v : Variable) : Tracks R (takeUpGlobal v) := by
  unfold takeUpGlobal
  split
  · exact placeGlobal_tracks v
  · exact .pure _

theorem importGlobalsFrom_tracks (checked : Tracks R isCancelled) (l : List Variable) :
    Tracks R (importGlobalsFrom l) := by
  induction l with
  | nil => exact .pure _
  | cons v rest ih =>
      rw [importGlobalsFrom_step]
      refine checked.bind fun cancelled => ?_
      split
      · exact .pure _
      · exact (takeUpGlobal_tracks v).bind fun _ => ih

end Import

end StabsImport

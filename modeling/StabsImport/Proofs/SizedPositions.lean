import StabsImport.Proofs.Accounts
import StabsImport.Proofs.CodeAndData
import StabsImport.Proofs.Sightings
import StabsImport.Proofs.SizedTypes

/-!
# What stands where a size is needed

Void has no length, and neither has an array of no elements, a record of no members or, in some
programs, a pointer. What looks up a type for a member, an element, a local or an item of data takes
one undefined byte in their place; only a parameter may be a pointer of no length. That every type
is put together from such parts (`Program.WellSized`) is kept by each step of an import, whatever
it is made to stop at, since a type, once it has a length, keeps one.
-/

namespace StabsImport

namespace Ledger

variable {κ ν : Type} [Key κ] {l : Ledger κ ν} {k : κ} {P : ν → Prop}

/-- What holds of the value put and of those before holds of all. -/
theorem forall_values_put {v : ν} (put : P v) (h : ∀ w ∈ l.values, P w) :
    ∀ w ∈ (l.put k v).values, P w := by
  intro w hw
  obtain ⟨e, he, rfl⟩ := List.mem_map.mp hw
  rcases mem_put_same he with he | ⟨-, hv⟩
  · exact h _ (List.mem_map_of_mem he)
  · rw [hv]
    exact put

theorem forall_values_update {f : ν → ν} (h : ∀ w ∈ l.values, P w) (hf : ∀ w, P w → P (f w)) :
    ∀ w ∈ (l.update k f).values, P w := by
  unfold update
  split
  · next v hv =>
      obtain ⟨e, he, -, rfl⟩ := exists_entry_of_get? hv
      exact forall_values_put (hf _ (h _ (List.mem_map_of_mem he))) h
  · exact h

end Ledger

/-! ## Edits -/

namespace Program

variable {p q : Program} {a : Arena} {α : Type}

/-- Functions and data use types with a size after the edit if they did before. -/
def KeepsUses (p q : Program) : Prop := ∀ a, p.UsesSized a → q.UsesSized a

instance : Structural KeepsUses where
  trans h h' a hp := h' a (h a hp)
  aside functions data a hp :=
    ⟨by rw [functions]; exact hp.functions, by rw [data]; exact hp.data⟩
  retold p entry f hf a hp := by
    refine ⟨Ledger.forall_values_update hp.functions fun g hg => ?_, hp.data⟩
    obtain ⟨_, _, _, h⟩ := hf g
    rw [h]
    exact ⟨hg.parameters, hg.locals⟩

theorem UsesSized.put (h : p.UsesSized a) {f : Function} (hf : f.UsesSized a) (entry : Int) :
    UsesSized { p with functions := p.functions.put entry f } a :=
  ⟨Ledger.forall_values_put hf h.functions, h.data⟩

/-- A new function has no parameters and no locals. -/
theorem createFunction_keepsUses (name : Json) (entry : Whole) (body : Option (Whole × Bound))
    (source : SourceKind) : MovesWithin KeepsUses (createFunction name entry body source) := by
  intro p
  refine runs_createFunction (fun _ => Untyped.refl p) fun _ => ?_
  generalize body.getD (entry, .whole entry) = range
  have placed : KeepsUses p (p.placeFunction entry range) := by
    refine Structural.trans (fun a hp => hp.put (f := newFunction entry range) ?_ _)
      (Structural.setSymbols _ entry _)
    exact ⟨nofun, nofun⟩
  split
  · exact Runs.mono (Structural.renameFunction (E := KeepsUses) _ _ _ _)
      (fun _ _ h => Structural.trans placed h) fun _ _ h => Structural.trans placed h
  · exact placed

/-- Functions and data change, and types do not. -/
theorem WellSized.withUses (h : p.WellSized) (same : SameTypes p q) (uses : q.UsesSized p.arena) :
    p.Grown q := by
  refine ⟨⟨?_, ?_, ?_⟩, ?_⟩
  · rw [same.arena]
    exact h.types
  · rw [same.arena, same.registry]
    exact h.registered
  · rw [same.arena]
    exact uses
  · rw [same.arena]
    exact .refl _

def StaysSized (p q : Program) : Prop := p.WellSized → p.Grown q

theorem staysSized_of {e : Edit α} (types : KeepsTypes e) (uses : MovesWithin KeepsUses e) :
    MovesWithin StaysSized e := fun p =>
  Runs.mono ((types p).and (uses p)) (fun _ _ h hp => hp.withUses h.1 (h.2 _ hp.uses))
    fun _ _ h hp => hp.withUses h.1 (h.2 _ hp.uses)

theorem placeParameters_sized {named : List Parameter} {storage : List String}
    (h : ∀ q ∈ named, a.IsSolid q.type) :
    ∀ q ∈ placeParameters named storage, a.IsSolid q.type := by
  intro q hq
  obtain ⟨i, hi, rfl⟩ := List.mem_mapIdx.mp hq
  exact h (named.zip storage)[i].1 (List.of_mem_zip (List.getElem_mem hi)).1

theorem replaceParameters_grown (hp : p.WellSized) (entry : Int) {declared : List (Json × TypeId)}
    (solid : ∀ q ∈ declared, p.arena.IsSolid q.2) :
    Runs (replaceParameters entry declared) p (fun _ q => p.Grown q) fun _ q => p.Grown q := by
  refine Runs.mono (runs_replaceParameters p entry declared) (fun _ q hq => ?_) fun _ q hq => ?_
  · obtain ⟨named, storage, hnamed, -, rfl⟩ := hq
    have types : ∀ q ∈ named, p.arena.IsSolid q.type := by
      intro q hq
      apply solid (Json.text q.name, q.type)
      rw [← namedParameters_map hnamed]
      exact List.mem_map_of_mem hq
    refine hp.withUses ⟨rfl, rfl, rfl, rfl, rfl⟩ ⟨?_, hp.uses.data⟩
    refine Ledger.forall_values_update hp.uses.functions fun f hf => ⟨?_, fun v hv => ?_⟩
    · exact placeParameters_sized types
    · exact hf.locals v (List.mem_filter.mp hv).1
  · rw [hq.1]
    exact .refl hp

theorem addLocal_grown (hp : p.WellSized) (entry : Int) (name : Json) {type : TypeId}
    (sized : 0 < p.arena.length type) (stackOffset : Int) :
    Runs (addLocal entry name type stackOffset) p (fun _ q => p.Grown q) fun _ q => p.Grown q := by
  have same : p.Grown p := .refl hp
  rw [addLocal, Runs.bind_iff, Runs.get_iff]
  split
  · exact same
  next f hf =>
  rw [Runs.bind_iff, runs_ofResult]
  split
  · next given _ =>
      rw [Runs.bind_iff, runs_ofExcept]
      split
      · have hf : f.UsesSized p.arena := by
          obtain ⟨e, he, -, rfl⟩ := Ledger.exists_entry_of_get? hf
          exact hp.uses.functions _ (List.mem_map_of_mem he)
        refine hp.withUses ⟨rfl, rfl, rfl, rfl, rfl⟩ ⟨?_, hp.uses.data⟩
        refine Ledger.forall_values_put ⟨hf.parameters, fun v hv => ?_⟩ hp.uses.functions
        rcases mem_insertLocal.mp hv with rfl | hv
        · exact sized
        · exact hf.locals v (List.mem_filter.mp hv).1
      · exact same
  · exact same

theorem createData_grown (hp : p.WellSized) (address : Int) {type : TypeId}
    (sized : 0 < p.arena.length type) (length : Int) (clear : Bool) :
    Runs (createData address type length clear) p (fun _ q => p.Grown q) fun _ q => p.Grown q := by
  have same : p.Grown p := .refl hp
  rw [createData, Runs.bind_iff, Runs.get_iff]
  dsimp only
  rw [Runs.ite_iff]
  split
  · rw [Runs.bind_iff, typeName, runs_view]
    split <;> exact same
  next hlength =>
  rw [Runs.ite_iff]
  split
  · exact same
  split
  · exact same
  split
  · exact same
  · refine hp.withUses ⟨rfl, rfl, rfl, rfl, rfl⟩ ⟨hp.uses.functions, ?_⟩
    refine Ledger.forall_values_put ⟨sized, Int.not_le.mp hlength⟩ fun item hi => ?_
    obtain ⟨e, he, rfl⟩ := List.mem_map.mp hi
    exact hp.uses.data _ (List.mem_map_of_mem (List.mem_filter.mp he).1)

end Program

namespace Import

open Document (FunctionDefinition SourceFile Variable Node)
open Program (MovesWithin Structural)

variable {s t : Session} {d : Document} {α : Type}

/-! ## The later stages -/

theorem sized_staged : Staged Program.StaysSized StaysSized where
  edited h hs := hs.withProgram (h hs.program)
  counted _ _ hs := ⟨{ hs with }, .refl _⟩
  prepared := sized_supply.prepare
  checked := sized_supply.isCancelled
  typed node hint := Gives.preserves (typeOf_makesTypes node hint)
  varied node := Gives.preserves fun _ => variableTypeOf_gives (some node)
  pointed target := Gives.preserves fun _ => pointerTo_gives target

/-- A parameter passed by reference has the type of a pointer, which may have no size. -/
theorem parameterType_gives (v : Variable) :
    Gives s (parameterType v) fun id a => a.IsSolid id := by
  refine (Gives.inside 3 fun _ => variableTypeOf_gives (some v.type)).bind fun id t _ hid => ?_
  split
  · exact pointerTo_gives id
  · exact .pure (Arena.isSolid_of_length_pos hid)

theorem parametersOf_gives (vs : List Variable) :
    Gives s (parametersOf vs) fun declared a => ∀ q ∈ declared, a.IsSolid q.2 := by
  induction vs generalizing s with
  | nil => exact .pure nofun
  | cons v rest ih =>
      have later (t : Session) (id : TypeId) (hid : t.program.arena.IsSolid id) :
          Gives t (do return (v.common.name, id) :: (← parametersOf rest))
            fun declared a => ∀ q ∈ declared, a.IsSolid q.2 :=
        ih.bind fun _ _ hk hrest => .pure (List.forall_mem_cons.mpr ⟨hk.isSolid hid, hrest⟩)
      rw [parametersOf_cons]
      refine (parameterType_gives v).bind fun id t _ hid => ?_
      split
      · exact .after (.throw _) fun _ u hu => later u id (hu.isSolid hid)
      · exact later t id hid

/-- What the program makes of the edit is counted, or reported if it is refused. -/
theorem counting_gives {e : Edit Unit} {f : Stats → Stats} {report : Fault → ImportM Unit}
    (h : s.program.WellSized → Runs e s.program (fun _ q => s.program.Grown q)
      fun _ q => s.program.Grown q)
    (hreport : ∀ e, Preserves StaysSized (report e)) :
    Gives s (onRejection (do edit e; count f) report) fun _ _ => True := by
  apply Gives.onRejection
  · have edited : Gives s (edit e) fun _ _ => True :=
      .edit fun hp => Runs.mono (h hp) (fun _ _ h => ⟨h, trivial⟩) fun _ _ h => h
    exact edited.bind fun _ _ _ _ => .of (sized_staged.count f)
  · exact fun e t => .of (hreport e)

theorem setParameters_staysSized (entry : Int) (d : FunctionDefinition) :
    Preserves StaysSized (setParameters entry d) := by
  unfold setParameters
  dsimp only
  split
  · exact .pure _
  · exact Gives.staysSized fun s => (parametersOf_gives _).bind fun declared t _ solid =>
      counting_gives (fun hp => Program.replaceParameters_grown hp entry solid)
        fun _ => .diagnose _ _

theorem setLocals_staysSized (entry : Int) (d : FunctionDefinition) :
    Preserves StaysSized (setLocals entry d) := by
  have add (locals : List (Json × Variable)) : Preserves StaysSized (addLocals entry locals) := by
    induction locals with
    | nil => exact .pure _
    | cons l rest ih =>
        refine Gives.staysSized fun s => (Gives.inside 3 fun _ =>
          variableTypeOf_gives (some l.2.type)).bind fun id t _ sized => ?_
        exact (counting_gives (fun hp => Program.addLocal_grown hp entry _ sized _) fun _ =>
          .reportFault _ _).bind fun _ _ _ _ => .of ih
  unfold setLocals setLocalsBeside
  split
  · exact (Preserves.throw _).bind fun _ => add _
  · exact (Preserves.pure _).bind fun _ => add _

theorem functionWork_staysSized (d : FunctionDefinition) (file : SourceFile) :
    FunctionWork Program.StaysSized StaysSized d file where
  make _ := by
    split
    · exact Program.staysSized_of (Program.keepsTypes_createFunction _ _ _ _)
        (Program.createFunction_keepsUses _ _ _ _)
    · exact Program.staysSized_of (Program.keepsTypes_createFunction _ _ _ _)
        (Program.createFunction_keepsUses _ _ _ _)
  drop _ := Program.staysSized_of (KeepsTypes.get.bind fun _ => keepsTypes_dropStale _ _ _)
    (.get fun p => Structural.dropStale _ _ _ p)
  rename _ := Program.staysSized_of (Program.keepsTypes_renameFunction _ _ _)
    (Structural.renameFunction _ _ _)
  comment _ := Program.staysSized_of (Program.keepsTypes_editFunction _ _)
    (Structural.setFunctionComment _ _)
  returns _ _ := Program.staysSized_of (Program.keepsTypes_setReturnType _ _)
    (Structural.setReturnType _ _)
  parameters _ := setParameters_staysSized _ d
  lines := (sized_staged.edit (Program.staysSized_of
    (keepsTypes_forM (fun _ => Program.keepsTypes_setComment _ _ _) _)
    (.forM fun _ _ => Structural.setComment _ _ _))).bind fun _ => sized_staged.count _
  inlined := (sized_staged.edit (Program.staysSized_of
    (keepsTypes_forM (fun _ => Program.keepsTypes_setComment _ _ _) _)
    (.forM fun _ _ => Structural.setComment _ _ _))).bind fun _ => sized_staged.count _
  locals _ := setLocals_staysSized _ d

theorem importFunctions_staysSized : Preserves StaysSized importFunctions := fun _ =>
  sized_staged.importFunctions fun x _ _ => functionWork_staysSized x.1 x.2

theorem placeGlobal_staysSized (v : Variable) : Preserves StaysSized (placeGlobal v) := by
  refine Gives.staysSized fun s => (Gives.inside 1 fun _ =>
    variableTypeOf_gives (some v.type)).bind fun id t _ sized => ?_
  have data : Gives t (do
      edit (Program.createData v.storage.globalAddress id (← typeLength id) true))
      fun _ _ => True :=
    .after (typeLength_staysSized id) fun _ u hu => .edit fun hp => Runs.mono
      (Program.createData_grown hp _ (hu.length_pos sized) _ true) (fun _ _ h => ⟨h, trivial⟩)
      fun _ _ h => h
  have label : Preserves StaysSized (do
      discard (edit (Program.createLabel (.ofInt v.storage.globalAddress) v.common.name true))) :=
    (sized_staged.edit (Program.staysSized_of (Program.keepsTypes_createLabel _ _ _)
      (Structural.createLabel _ _ _))).bind fun _ => .pure _
  refine (Gives.onRejection data fun e _ => .of (.reportFault _ e)).bind fun _ _ _ _ => .of ?_
  exact (Preserves.onRejection label (.reportFault _)).bind fun _ => sized_staged.count _

theorem importGlobals_staysSized : Preserves StaysSized importGlobals :=
  sized_staged.importGlobals placeGlobal_staysSized

/-! ## Whole imports -/

section

variable {P : Session → Prop} {Z : Program → Prop} {i : Importer}

/-- A stage keeps to what holds of a session, whatever it ends with. -/
def KeepsTo (P : Session → Prop) (m : ImportM Unit) : Prop :=
  ∀ s, P s → Runs m s (fun _ t => P t) fun _ t => P t

/-- What all stages keep to holds of the session an import ends with, wherever it ends. -/
theorem importDocument_keepsTo (reports : ∀ s journal, P s → P { s with journal })
    (stages : ∀ m ∈ [prepare, importTypes, importFunctions, importGlobals], KeepsTo P m)
    (start : P (sessionOf (i.host.room.inside 3) d i.options i.session)) :
    Runs (importDocument d) i (fun _ j => P j.session) fun _ j => P j.session := by
  have phase {target : Phase} {isWanted : Bool} {stage : ImportM Unit} (hstage : KeepsTo P stage)
      {j : Importer} (hj : P j.session) :
      Runs (runPhase target isWanted stage) j (fun _ k => P k.session) fun _ k => P k.session :=
    runPhase_leads reports (fun journal => hstage _ (reports _ journal hj)) hj
  have run {i : Importer} (start : P (sessionOf (i.host.room.inside 3) d i.options i.session)) :
      Runs (runStages i.host.room d) i (fun _ j => P j.session) fun _ j => P j.session := by
    rw [runStages, Runs.bind_iff, takeUp, Runs.bind_iff, Runs.modify_iff, Runs.bind_iff,
      runs_within]
    refine Runs.mono (stages prepare (by simp) _ start) (fun _ t ht => ?_) fun _ t ht => ht
    rw [Runs.pure_iff, Runs.bind_iff, Runs.get_iff, Runs.bind_iff]
    refine Runs.mono (phase (stages importTypes (by simp)) ht) (fun _ j hj => ?_) fun _ _ h => h
    rw [Runs.bind_iff]
    refine Runs.mono (phase (stages importFunctions (by simp)) hj) (fun _ k hk => ?_) fun _ _ h => h
    rw [Runs.bind_iff]
    refine Runs.mono (phase (stages importGlobals (by simp)) hk) (fun _ l hl => ?_) fun _ _ h => h
    have done {m : Importer} (h : OnlyReports l m) : P m.session := by
      rw [h.session]
      exact reports _ _ hl
    exact Runs.mono (KeepsSession.enterPhase .done l) (fun _ _ => done) fun _ _ => done
  rw [importDocument, Runs.bind_iff, Runs.get_iff, importWithin_eq, Runs.bind_iff, Runs.get_iff]
  split
  · next idle =>
      rw [Runs.bind_iff, runs_enterPhase (by simp [idle, Phase.next]), Runs.bind_iff,
        runs_enterPhase (by simp [Phase.next])]
      exact run start
  · exact run start

theorem importDocument_leads (reports : ∀ s journal, P s → P { s with journal })
    (stages : ∀ m ∈ [prepare, importTypes, importFunctions, importGlobals], KeepsTo P m)
    (leaves : ∀ s, P s → Z s.program)
    (start : P (sessionOf (i.host.room.inside 3) d i.options i.session)) :
    Runs (importDocument d) i (fun _ j => Z j.session.program) fun _ j => Z j.session.program :=
  Runs.mono (importDocument_keepsTo reports stages start) (fun _ _ => leaves _) fun _ _ => leaves _

end

theorem sessionOf_wellSized (room : Room) (d : Document) (o : Options) (h : s.program.WellSized) :
    (sessionOf room d o s).WellSized where
  program := h
  builtIns h := by cases h
  pointers h := by cases h
  arrays h := by cases h
  nodes h := by cases h
  entries h := by simp [Session.typeAt?, sessionOf] at h

theorem importDocument_wellSized {i : Importer} (h : i.session.program.WellSized) :
    Runs (importDocument d) i (fun _ j => j.session.program.WellSized)
      fun _ j => j.session.program.WellSized := by
  have keeps {m : ImportM Unit} (hm : Preserves StaysSized m) : KeepsTo Session.WellSized m :=
    fun s hs => Runs.mono (hm s) (fun _ _ h => (h hs).wellSized) fun _ _ h => (h hs).wellSized
  refine importDocument_leads (P := Session.WellSized) (fun _ _ h => { h with }) ?_
    (fun _ h => h.program) (sessionOf_wellSized _ _ _ h)
  simp only [List.forall_mem_cons]
  exact ⟨keeps sized_supply.prepare, keeps sized_supply.importTypes, keeps importFunctions_staysSized,
    keeps importGlobals_staysSized, nofun⟩

/-- A session over the document in which the types of all its items can be made. -/
structure Session.Serves (d : Document) (s : Session) : Prop where
  sound : s.Sound
  document : s.document = d
  room : s.room.allows (stageNeed d) = true

theorem Session.Serves.after {L : Scope} (hs : s.Serves d) (h : After L s t) : t.Serves d where
  sound := h.sound
  document := h.document.trans hs.document
  room := by
    rw [h.room]
    exact hs.room

/-- The program that an import leaves can be imported into again, wherever the import ends. -/
theorem importDocument_sound {i : Importer} (typed : d.WellTyped)
    (program : i.session.program.Sound) (naming : i.session.program.arena.room = none)
    (known : i.session.knowsPointerSize = true)
    (room : i.host.room.allows (3 + stageNeed d) = true) :
    Runs (importDocument d) i
      (fun _ j => j.session.program.Sound ∧ j.session.program.arena.room = none)
      fun _ j => j.session.program.Sound ∧ j.session.program.arena.room = none := by
  have stage {m : ImportM Unit} {bad : Fault → Prop} {s : Session} (hs : s.Serves d)
      (h : s.stage.Leads (stageNeed d) m bad) :
      Runs m s (fun _ t => t.Serves d) fun _ t => t.Serves d :=
    Runs.mono (h ⟨hs.sound.ready, rfl⟩ hs.room) (fun _ _ h => hs.after h.1)
      fun _ _ h => hs.after h.1
  have types {s : Session} (hs : s.Serves d) :
      Runs importTypes s (fun _ t => t.Serves d) fun _ t => t.Serves d := by
    have room : s.room.allows (fillNeed s.document) = true := by
      have hle := fillNeed_le_itemNeed d
      rw [hs.document]
      refine Room.allows_of_le hs.room ?_
      unfold stageNeed
      omega
    exact Runs.mono (importTypes_yields hs.sound room) (fun _ _ h => hs.after h.1)
      fun _ _ h => h.2.elim
  have new : Session.IsNew { sessionOf none d i.options i.session with room := none } :=
    ⟨typed, program, naming, known, rfl, rfl, rfl, rfl⟩
  apply importDocument_leads (P := Session.Serves d)
    (Z := fun p => p.Sound ∧ p.arena.room = none)
  · exact fun _ _ h => ⟨{ h.sound with }, h.document, h.room⟩
  · simp only [List.forall_mem_cons]
    refine ⟨fun s hs => ?_, fun s hs => types hs, fun s hs => ?_, fun s hs => ?_, nofun⟩
    · have leads : s.stage.Leads (stageNeed d) prepare (fun _ => False) := .prepare
      exact stage hs leads
    · have leads := Stage.Leads.importFunctions (g := s.stage) (.inl trivial) hs.sound.typed
      rw [show s.stage.document = d from hs.document] at leads
      exact stage hs leads
    · have leads : s.stage.Leads _ importGlobals (fun _ => False) :=
        .importGlobals (.inl trivial) hs.sound.typed
      rw [show s.stage.document = d from hs.document] at leads
      exact stage hs leads
  · exact fun _ h => ⟨h.sound.program, h.sound.naming⟩
  · exact ⟨{ new.sound with }, rfl, Room.allows_inside room⟩

end Import

/-! ## One import after another -/

/-- No type that stands where one with a size is needed is void, and what has a length there has one
byte at least. A parameter may be a pointer, and what that takes up is up to the program. -/
structure Program.SizedPositions (p : Program) : Prop where
  element : ∀ {id element count}, p.arena.get? id = some (.array element count) →
    p.arena.IsSolid element ∧ 1 ≤ p.arena.length element
  signature : ∀ {id name returns parameters},
    p.arena.get? id = some (.named name (.signature returns parameters)) →
    ∀ q ∈ parameters, p.arena.IsSolid q
  component : ∀ {id c}, p.arena.composite? id = some c → ∀ m ∈ c.components,
    p.arena.IsSolid m.type ∧ 1 ≤ m.length
  parameter : ∀ f ∈ p.functions.values, ∀ q ∈ f.parameters, p.arena.IsSolid q.type
  local_ : ∀ f ∈ p.functions.values, ∀ v ∈ f.locals,
    p.arena.IsSolid v.type ∧ 1 ≤ p.arena.length v.type
  data : ∀ item ∈ p.data.values, p.arena.IsSolid item.type ∧ 1 ≤ item.length

theorem Program.WellSized.sizedPositions {p : Program} (h : p.WellSized) : p.SizedPositions where
  element hid :=
    have hlength : 0 < p.arena.length _ := h.types _ _ hid
    ⟨Arena.isSolid_of_length_pos hlength, hlength⟩
  signature hid q hq :=
    have hlengths : ∀ x ∈ _, 0 < p.arena.length x := h.types _ _ hid
    Arena.isSolid_of_length_pos (hlengths q hq)
  component hid := by
    obtain ⟨name, hid⟩ := Arena.composite?_eq_some.mp hid
    exact h.types _ _ hid
  parameter f hf := (h.uses.functions f hf).parameters
  local_ f hf v hv :=
    have hlength := (h.uses.functions f hf).locals v hv
    ⟨Arena.isSolid_of_length_pos hlength, hlength⟩
  data item hi := ⟨Arena.isSolid_of_length_pos (h.uses.data item hi).1, (h.uses.data item hi).2⟩

/-- An import of a document, with any options, and cancelled at any point. -/
structure WholeImport where
  document : Document
  options : Options := {}
  host : Host := {}
  monitor : Monitor := {}

namespace WholeImport

open Import

variable {p : Program}

/-- The program an import leaves behind, wherever it ends. -/
def make (p : Program) (w : WholeImport) : Program :=
  (importDocument w.document (.start p w.options w.host w.monitor)).2.session.program

def makeAll (p : Program) (imports : List WholeImport) : Program := imports.foldl make p

/-- The document is well typed, and there is room to make its types. -/
def Fits (w : WholeImport) : Prop :=
  w.document.WellTyped ∧ w.host.room.allows (3 + stageNeed w.document) = true

theorem makeAll_wellSized (h : p.WellSized) (imports : List WholeImport) :
    (makeAll p imports).WellSized := by
  induction imports generalizing p with
  | nil => exact h
  | cons w rest ih =>
      exact ih (importDocument_wellSized (i := .start p w.options w.host w.monitor) h).snd

theorem makeAll_sound (h : p.Sound) (naming : p.arena.room = none) {imports : List WholeImport}
    (fits : ∀ w ∈ imports, w.Fits) :
    (makeAll p imports).Sound ∧ (makeAll p imports).arena.room = none := by
  induction imports generalizing p with
  | nil => exact ⟨h, naming⟩
  | cons w rest ih =>
      obtain ⟨typed, room⟩ := fits w List.mem_cons_self
      have made := (importDocument_sound (i := .start p w.options w.host w.monitor) typed h naming
        rfl room).snd
      exact ih made.1 made.2 fun v hv => fits v (List.mem_cons_of_mem _ hv)

theorem wellSized_blank (executable : Option String) (pointerSize : Int)
    (convention : CallingConvention) (memory : List (Int × Int)) :
    Program.WellSized { executable, pointerSize, convention, memory } where
  types := Arena.WellSized.empty
  registered h := by cases h
  uses := ⟨nofun, nofun⟩

/-- Whatever is imported, one document after another, only types with a size stand where one is
needed; and a variable is given a type of one byte at least, whatever its type is described by. In
particular it is so while a further document is imported. -/
theorem makeAll_sized (executable : Option String) (pointerSize : Int)
    (convention : CallingConvention) (memory : List (Int × Int)) (imports : List WholeImport) :
    let p := makeAll { executable, pointerSize, convention, memory } imports
    p.SizedPositions ∧
      (∀ s node id t, variableTypeOf node s = (.ok id, t) → 1 ≤ t.program.arena.length id) ∧
      (∀ s, Reached s → ∀ (room : Room) (node : Option Document.Node),
        (∀ n ∈ node, n.WellTyped) →
        room.allows (nodeNeed (tableNeed s.document) (Document.Node.heightOfOptional node)) = true →
        ∃ id t, variableTypeOf node { s with room } = (.ok id, t) ∧
          1 ≤ t.program.arena.length id) ∧
      ((∀ w ∈ imports, w.Fits) → ∀ d : Document, d.WellTyped →
        Reached { document := d, program := p }) := by
  have sized (s : Session) (node : Option Document.Node) (id : TypeId) (t : Session)
      (h : variableTypeOf node s = (.ok id, t)) : 1 ≤ t.program.arena.length id := by
    have runs := variableType_sized (optionalTypeOf node .null) s
    rw [Runs, show variableType (optionalTypeOf node .null) s = (.ok id, t) from h] at runs
    exact runs
  refine ⟨?_, sized, fun s hs room node typed allows => ?_, fun fits d typed => .new ?_⟩
  · exact (makeAll_wellSized (wellSized_blank _ _ _ _) imports).sizedPositions
  · obtain ⟨id, t, h⟩ := (resolution_ends hs room).variable_ node typed allows
    exact ⟨id, t, h, sized _ node id t h⟩
  · obtain ⟨sound, naming⟩ := makeAll_sound (p := { executable, pointerSize, convention, memory })
      { Program.sound_empty with } rfl fits
    exact ⟨typed, sound, naming, rfl, rfl, rfl, rfl, rfl⟩

/-- A global of the type. -/
def typedGlobal (serial : Nat) (name : String) (address : Int) (type : Document.Node) :
    Document.Variable :=
  { placedVariable serial name address .void with type }

/-- A pointer to nothing. -/
def hollowPointer : Document.Node :=
  .pointer { serial := 9, name := .text "at", relativeOffset := 0 } true
    (.builtIn { serial := 10 } .void)

/-- A void global, an array of no elements and a record of a void field and a pointer. -/
def hollowDocument : Document where
  files :=
    [{ common := { serial := 0 }
       path := .text "a.c"
       relativePath := .text "a.c"
       textAddress := 0
       functions := []
       globals :=
         [typedGlobal 1 "unit" 16 (.builtIn { serial := 2 } .void),
          typedGlobal 3 "row" 32 (.array { serial := 4 } (.builtIn { serial := 5 } .void) 0),
          typedGlobal 6 "box" 48 (.composite { serial := 7, sizeBits := 0 } true []
            [.builtIn { serial := 8, name := .text "gap", relativeOffset := 0 } .void,
             hollowPointer] [])]
       typeNumbers := {} }]
  size := 11

theorem hollowPointer_wellTyped : hollowPointer.WellTyped :=
  Document.Node.wellTyped_pointer (.inr ⟨"at", rfl⟩) _
    (Document.Node.wellTyped_builtIn (.inl rfl) _)

theorem typedGlobal_wellTyped (serial : Nat) (name : String) (address : Int)
    {type : Document.Node} (h : type.WellTyped) :
    Document.WellTypedVariable (typedGlobal serial name address type) :=
  ⟨.inr ⟨name, rfl⟩, h⟩

theorem hollowDocument_wellTyped : hollowDocument.WellTyped := by
  have row : (Document.Node.array { serial := 4 } (.builtIn { serial := 5 } .void) 0).WellTyped :=
    Document.Node.wellTyped_iff.mpr ⟨.inl rfl, fun k hk => by
      rw [List.mem_singleton.mp hk]
      exact Document.Node.wellTyped_builtIn (.inl rfl) _⟩
  have fields : ∀ f ∈ [.builtIn { serial := 8, name := .text "gap", relativeOffset := 0 } .void,
      hollowPointer], f.WellTyped := by
    simp only [List.forall_mem_cons]
    exact ⟨Document.Node.wellTyped_builtIn (.inr ⟨"gap", rfl⟩) _, hollowPointer_wellTyped, nofun⟩
  have box := Document.Node.wellTyped_composite (c := { serial := 7, sizeBits := 0 })
    (.inl rfl) true fields []
  refine ⟨nofun, ?_⟩
  simp only [hollowDocument, List.forall_mem_singleton]
  refine ⟨⟨"a.c", rfl⟩, ⟨"a.c", rfl⟩, by simp, ?_⟩
  simp only [List.forall_mem_cons]
  exact ⟨typedGlobal_wellTyped _ _ _ (Document.Node.wellTyped_builtIn (.inl rfl) _),
    typedGlobal_wellTyped _ _ _ row, typedGlobal_wellTyped _ _ _ box, by simp⟩

/-- Where a pointer takes up nothing. -/
theorem makeAll_sized_hollow :
    let p := makeAll { pointerSize := 0 } [{ document := hollowDocument }]
    p.SizedPositions ∧
      (p.data.entries.map fun e => (e.1, e.2.length)) = [(16, 1), (32, 1), (48, 1)] ∧
      ∃ id t, variableTypeOf (some hollowPointer) { document := hollowDocument, program := p } =
          (.ok id, t) ∧ 1 ≤ t.program.arena.length id := by
  have fits : ∀ w ∈ [({ document := hollowDocument } : WholeImport)], w.Fits := by
    simp only [List.forall_mem_singleton]
    exact ⟨hollowDocument_wellTyped, Room.allows_none _⟩
  obtain ⟨positions, -, ends, further⟩ :=
    makeAll_sized none 0 .standard [] [{ document := hollowDocument }]
  have typed : ∀ n ∈ some hollowPointer, n.WellTyped := by
    intro n hn
    rw [← Option.mem_some.mp hn]
    exact hollowPointer_wellTyped
  have reached := further fits hollowDocument hollowDocument_wellTyped
  have ends := ends _ reached none (some hollowPointer) typed (Room.allows_none _)
  dsimp only at ends
  exact ⟨positions, by decide +kernel, ends⟩

end WholeImport

end StabsImport

import StabsImport.Proofs.Failures
import StabsImport.Proofs.Numbering
import StabsImport.Proofs.SecondRuns

/-!
# Runs that are repeated

A run comes down to the stages of its document, so what holds of stages done again holds of two runs
with the same options that find one document, one after the other: the second leaves the program of
the first. Nothing was in the program before. Main statement: `run_repeats`.
-/

namespace StabsImport.Import

open Document (Node)

open Program

variable {d : Document} {s s' t : Session} {i : Importer}

/-! ## Stages that end -/

theorem within_of_eq {α : Type} {action : ImportM α} {a : α}
    (h : action i.session = (.ok a, t)) :
    within action i = (.ok (.ok a), { i with session := t }) := by
  show (Except.ok (action i.session).1, { i with session := (action i.session).2 }) = _
  rw [h]

/-- A phase whose stage ends leaves the session that the stage leaves. -/
theorem runPhase_of_eq {target : Phase} {wanted : Bool} {stage : ImportM Unit}
    (next : target ∈ i.phase.next) (ends : stageIf wanted stage i.session = (.ok (), t)) :
    runPhase target wanted stage i = (.ok (), { i with phase := target, session := t }) := by
  refine Runs.eq_ok ?_
  rw [runPhase, Runs.bind_iff, runs_enterPhase next]
  cases wanted with
  | false =>
      obtain rfl : i.session = t := congrArg Prod.snd ends
      exact ⟨rfl, rfl⟩
  | true =>
      simp only [runStage, if_true, Runs.bind_iff]
      exact Runs.of_eq (within_of_eq (i := { i with phase := target }) ends) ⟨trivial, rfl⟩

/-- An import with a stage of types leaves the session that all its stages leave. -/
theorem runStages_of_importAll (parsing : i.phase = .parsing) (types : i.options.importTypes = true)
    (prepared : prepare (sessionOf none d i.options i.session) = (.ok (), s))
    (ends : importAll i.options s = (.ok (), t)) :
    runStages none d i = (.ok (), { i with phase := .done, session := t, isStarted := true }) := by
  rw [importAll, Runs.bind_apply] at ends
  rcases typed : importTypes s with ⟨_ | _, s₁⟩ <;> rw [typed] at ends
  · cases ends
  dsimp only at ends
  rw [importWanted, Runs.bind_apply] at ends
  rcases made : stageIf i.options.importFunctions importFunctions s₁ with ⟨_ | _, s₂⟩ <;>
    rw [made] at ends
  · cases ends
  refine Runs.eq_ok ?_
  rw [runStages, Runs.bind_iff, takeUp, Runs.bind_iff, Runs.modify_iff, Runs.bind_iff]
  refine Runs.of_eq (within_of_eq prepared) ?_
  rw [Runs.pure_iff, Runs.bind_iff, Runs.get_iff]
  dsimp only
  rw [types, Runs.bind_iff]
  refine Runs.of_eq (runPhase_of_eq (by simp [parsing, Phase.next]) typed) ?_
  rw [Runs.bind_iff]
  refine Runs.of_eq (runPhase_of_eq (by simp [Phase.next]) made) ?_
  rw [Runs.bind_iff]
  refine Runs.of_eq (runPhase_of_eq (by simp [Phase.next]) ends) ?_
  rw [runs_enterPhase (by simp [Phase.next])]
  exact ⟨rfl, rfl⟩

theorem Session.Stands.importAll_ends (h : s.Stands d) (o : Options) :
    Runs (importAll o) s (fun _ t => t.Stands d) fun _ _ => False := by
  have stage {wanted : Bool} {stage : ImportM Unit} {t : Session} (ht : t.Stands d)
      (ends : Runs stage t (fun _ u => u.Stands d) fun _ _ => False) :
      Runs (stageIf wanted stage) t (fun _ u => u.Stands d) fun _ _ => False := by
    cases wanted with
    | false => exact ht
    | true => exact ends
  rw [importAll, Runs.bind_iff]
  refine Runs.mono h.importTypes (fun _ t ht => ?_) fun _ _ h => h
  rw [importWanted, Runs.bind_iff]
  exact Runs.mono (stage ht ht.importFunctions) (fun _ u hu => stage hu hu.importGlobals)
    fun _ _ h => h

/-! ## Runs that import types -/

/-- An importer whose run finds this document and imports its types and all else that is wanted. -/
structure WillImport (d : Document) (i : Importer) : Prop where
  idle : i.phase = .idle
  room : i.host.room = none
  types : i.options.importTypes = true
  found : inputDocument? none i = some d
  fits : InputFits none i

/-- The session of a run that has found its document, with this reported until then. -/
def begun (d : Document) (i : Importer) (journal : Journal) : Session :=
  sessionOf none d i.options { i.session with journal }

namespace WillImport

theorem isNew (h : WillImport d i) (journal : Journal) : (begun d i journal).IsNew :=
  ⟨(h.fits.document d h.found).1, h.fits.program, h.fits.naming, h.fits.knowsPointerSize,
    rfl, rfl, rfl, rfl⟩

theorem stands (h : WillImport d i) (journal : Journal) : (begun d i journal).Stands d :=
  ⟨(h.isNew journal).sound, rfl, h.fits.aligned, Room.allows_none _⟩

/-- A document that a run finds was read, so that numbers tell its nodes apart. -/
theorem isNumbered (h : WillImport d i) : d.IsNumbered := by
  have found := h.found
  unfold inputDocument? at found
  split at found
  · cases found
  · next bytes _ =>
      cases result : (Document.readBytes none bytes).2 with
      | error e =>
          rw [Room.inside_none, result] at found
          cases found
      | ok d' =>
          rw [Room.inside_none, result] at found
          obtain rfl : d' = d := Option.some.inj found
          exact @Document.isNumbered_of_readBytes _ _ _ result

/-- The run succeeds, and leaves the session that all its stages leave. -/
theorem succeeds (h : WillImport d i) : (run i).1 = true ∧ ∃ journal,
    importAll i.options (begun d i journal) = (.ok (), (run i).2.session) := by
  have runs : Runs (importInputWithin (i.host.room.inside 1)) i
      (fun success j => success = true ∧ ∃ journal,
        importAll i.options (begun d i journal) = (.ok (), j.session)) fun _ _ => False := by
    rw [h.room]
    refine runs_importInputWithin h.idle (fun none => ?_) (fun none => ?_)
      fun d' journal found => ?_
    · cases h.found.symm.trans none
    · cases h.found.symm.trans none
    · obtain rfl : d = d' := Option.some.inj (h.found.symm.trans found)
      obtain ⟨s, prepared, isPrepared⟩ := (h.isNew journal).prepare
      have stands : s.Stands d := by
        have ends := (h.stands journal).prepare
        rw [Runs, prepared] at ends
        exact ends
      obtain ⟨_, t, ends, -⟩ := (stands.importAll_ends i.options).exists_ok
      rw [runs_importWithin_of_parsing rfl]
      refine Runs.of_eq (runStages_of_importAll rfl h.types prepared ends) ⟨rfl, journal, ?_⟩
      rw [importAll, Runs.bind_apply, importTypes_of_prepare prepared isPrepared,
        ← Runs.bind_apply]
      exact ends
  obtain ⟨success, j, hrun, rfl, ends⟩ := runs.exists_ok
  rw [run, hrun]
  exact ⟨rfl, ends⟩

theorem stands_run (h : WillImport d i) : (run i).2.session.Stands d := by
  obtain ⟨-, journal, ends⟩ := h.succeeds
  have stays := (h.stands journal).importAll_ends i.options
  rw [Runs, ends] at stays
  exact stays

/-- A monitor that is but a flag is left as it is. -/
theorem monitor_run (h : WillImport d i) (flag : i.session.monitor.remaining = none) :
    (run i).2.session.monitor = i.session.monitor := by
  obtain ⟨-, journal, ends⟩ := h.succeeds
  have checked : Tracks (Session.Watched i.session.monitor) isCancelled := isCancelled_watched flag
  have stays := ((importTypes_tracks checked).bind fun _ => importWanted_watched flag i.options)
    (begun d i journal) _ ⟨rfl, rfl⟩
  have monitor : (importAll i.options (begun d i journal)).2.monitor = i.session.monitor :=
    stays.2.monitor
  rwa [ends] at monitor

end WillImport

/-! ## Reports -/

/-- The second session has had something else reported. -/
structure Session.Recounts (s s' : Session) : Prop where
  rest : s' = { s with journal := s'.journal }

namespace Session.Recounts

theorem program (h : s.Recounts s') : s'.program = s.program := by rw [h.rest]

theorem reads (h : s.Recounts s') : s.Reads s' := by
  constructor <;> rw [h.rest]

end Session.Recounts

instance : Lockstep Session.Recounts where
  reads := Session.Recounts.reads
  edits h _ _ := ⟨by rw [h.rest]⟩
  caches h _ := ⟨by rw [h.rest]⟩
  tables h _ := ⟨by rw [h.rest]⟩
  prepares h := ⟨by rw [h.rest]⟩
  rooms h _ := ⟨by rw [h.rest]⟩
  reports h _ := ⟨by rw [h.rest]⟩
  counts h _ _ := ⟨by rw [h.rest]⟩

theorem isCancelled_recounts : Tracks Session.Recounts isCancelled := fun s s' h => by
  rw [isCancelled_eq, isCancelled_eq, h.rest]
  exact ⟨rfl, ⟨rfl⟩⟩

/-- What was reported before makes no difference to the sizes that the stage of types leaves. -/
theorem sameSizes_recounted {journal : Journal}
    (same : (registerTypes s).2.program.SameSizes (importTypes s).2.program) :
    (registerTypes { s with journal }).2.program.SameSizes
      (importTypes { s with journal }).2.program := by
  have recounts : s.Recounts { s with journal } := ⟨rfl⟩
  have registers : Tracks Session.Recounts registerTypes :=
    prepare_tracks.bind fun _ => .get (fun h => by rw [h.types]) fun _ =>
      registerFrom_tracks isCancelled_recounts 0 _
  rw [(registers _ _ recounts).2.program,
    (importTypes_tracks isCancelled_recounts _ _ recounts).2.program]
  exact @same

/-! ## Runs that are repeated -/

/-- Two runs with the same options, one after the other. Nothing was put in the program before. -/
structure RunTwice where
  executable : Option String := none
  pointerSize : Int := 4
  convention : CallingConvention := .standard
  memory : List (Int × Int) := []
  options : Options := {}
  host : Host := {}
  host' : Host := {}
  monitor : Monitor := {}
  monitor' : Monitor := {}

namespace RunTwice

variable {r : RunTwice}

def program (r : RunTwice) : Program :=
  { executable := r.executable, pointerSize := r.pointerSize, convention := r.convention
    memory := r.memory }

def first (r : RunTwice) : Importer := .start r.program r.options r.host r.monitor

/-- The second run goes on with the program that the first left. -/
def second (r : RunTwice) : Importer :=
  .start (run r.first).2.session.program r.options r.host' r.monitor'

/-- Both runs find this document and import its types and all else that is wanted, in a program whose
stack slots have a size, and with all the room they may need. -/
structure Imports (r : RunTwice) (d : Document) : Prop where
  found : inputDocument? none r.first = some d
  found' : inputDocument? none r.second = some d
  types : r.options.importTypes = true
  aligned : r.convention.alignment ≠ 0
  room : r.host.room = none
  room' : r.host'.room = none

/-- Neither run is cancelled. -/
structure Uncancelled (r : RunTwice) : Prop where
  first : (run r.first).2.session.monitor.isCancelled = false
  second : (run r.second).2.session.monitor.isCancelled = false

/-- The stage of types leaves no structure or union of another size than it was registered with. -/
def KeepsSizes (r : RunTwice) (d : Document) : Prop :=
  (registerTypes (begun d r.first #[])).2.program.SameSizes
    (importTypes (begun d r.first #[])).2.program

namespace Imports

theorem willImport (h : r.Imports d) (typed : d.WellTyped) : WillImport d r.first where
  idle := rfl
  room := h.room
  types := h.types
  found := h.found
  fits :=
    { program := { Program.sound_empty with }, naming := rfl, knowsPointerSize := rfl
      aligned := h.aligned
      document := fun d' found => by
        obtain rfl : d = d' := Option.some.inj (h.found.symm.trans found)
        exact ⟨typed, Room.allows_none _⟩ }

theorem willImport' (h : r.Imports d) (typed : d.WellTyped) : WillImport d r.second where
  idle := rfl
  room := h.room'
  types := h.types
  found := h.found'
  fits :=
    { program := (h.willImport typed).stands_run.sound.program
      naming := (h.willImport typed).stands_run.sound.naming
      knowsPointerSize := rfl
      aligned := (h.willImport typed).stands_run.aligned
      document := fun d' found => by
        obtain rfl : d = d' := Option.some.inj (h.found'.symm.trans found)
        exact ⟨typed, Room.allows_none _⟩ }

/-- Monitors that are but flags, and not set, cancel neither run. -/
theorem uncancelled (h : r.Imports d) (typed : d.WellTyped) (monitor : r.monitor = {})
    (monitor' : r.monitor' = {}) : r.Uncancelled where
  first := by
    have flag : r.first.session.monitor = {} := monitor
    rw [(h.willImport typed).monitor_run (congrArg Monitor.remaining flag), flag]
  second := by
    have flag : r.second.session.monitor = {} := monitor'
    rw [(h.willImport' typed).monitor_run (congrArg Monitor.remaining flag), flag]

theorem isRepeatable (h : r.Imports d) (typed : d.WellTyped)
    (apart : (definitions d).Pairwise Apart) (journal : Journal) :
    (begun d r.first journal).IsRepeatable r.memory :=
  { (h.willImport typed).isNew journal with
    numbered := (h.willImport typed).isNumbered
    consistent := Program.consistent_blank ..
    types := ⟨nofun, nofun⟩
    distinct := Ledger.distinct_empty
    aligned := h.aligned
    apart := apart
    free := fun _ _ _ _ => rfl }

end Imports

end RunTwice

/-- A second run over the document leaves the program as the first left it, but for the order of the
labels at one address. Both succeed. No two definitions may start at one address, and no structure or
union may outgrow, or fall short of, the size it was registered with. -/
theorem run_repeats {r : RunTwice} (imports : r.Imports d) (uncancelled : r.Uncancelled)
    (typed : d.WellTyped) (apart : (definitions d).Pairwise Apart) (same : r.KeepsSizes d) :
    (run r.first).1 = true ∧ (run r.second).1 = true ∧ ∀ keyText,
      SummedUpAlike keyText (run r.first).2.session.program (run r.second).2.session.program := by
  obtain ⟨succeeds, journal, ends⟩ := (imports.willImport typed).succeeds
  obtain ⟨succeeds', journal', ends'⟩ := (imports.willImport' typed).succeeds
  have left : importAll r.options (begun d r.first journal) = (.ok (), (run r.first).2.session) :=
    ends
  have left' : importAll r.options (begun d r.second journal') =
      (.ok (), (run r.second).2.session) := ends'
  have restarts : Restarts (begun d r.first journal)
      (importAll r.options (begun d r.first journal)).2.program (begun d r.second journal') :=
    { (imports.willImport' typed).isNew journal' with
      again := rfl
      left := by rw [left]; rfl
      outputLines := rfl
      markInlined := rfl }
  obtain ⟨b, v, hb, hv, alike⟩ := importAll_repeats (imports.isRepeatable typed apart journal) nofun
    r.options (left ▸ uncancelled.first) restarts (left' ▸ uncancelled.second)
    (sameSizes_recounted same)
  obtain rfl : (run r.first).2.session = b := congrArg Prod.snd (left.symm.trans hb)
  obtain rfl : (run r.second).2.session = v := congrArg Prod.snd (left'.symm.trans hv)
  exact ⟨succeeds, succeeds', alike⟩

/-! ## A document that is imported twice -/

/-- A text without a version is read without a warning. -/
theorem readBytes_of_json {room : Room} {bytes : Text.Bytes} (fields : List (String × Json))
    {n : Nat} (json : (Json.read (room.inside 5) (Text.decodeUtf8 bytes)).toOption =
      some (.object fields))
    (version : fields.lookup "version" = none)
    (result : (Document.readDocument (room.inside 1) (.object fields)).run 0 = .ok (d, n)) :
    Document.readBytes room bytes = ([], .ok d) := by
  have silent : Document.warnings (room.inside 1) (.object fields) = .ok [] := by
    rw [Document.warnings, Document.versionWarning?, Json.field?, version]
  rw [Document.readBytes, Document.read]
  cases read : Json.read (room.inside 5) (Text.decodeUtf8 bytes) with
  | error e =>
      rw [read] at json
      cases json
  | ok root =>
      rw [read] at json
      obtain rfl : root = .object fields := Option.some.inj json
      dsimp only
      rw [silent, result]

theorem inputDocument_of_file {room : Room} {bytes : Text.Bytes}
    (named : i.options.jsonPath ≠ "") (file : i.host.read i.options.jsonPath = .ok bytes)
    (read : (Document.readBytes (room.inside 1) bytes).2 = .ok d) :
    inputDocument? room i = some d := by
  rw [inputDocument?, acquire_of_file named file]
  dsimp only
  rw [read]
  rfl

/-- An enumeration, a structure with a field of it, a global of the structure and a function that
returns the enumeration. -/
def paintedText : List String :=
  ["\x7b\"files\":[\x7b\"descriptor\":\"source_file\",\"path\":\"a.c\",",
   "\"functions\":[\x7b\"descriptor\":\"function_definition\",\"name\":\"f\",",
   "\"address_range\":\x7b\"low\":16,\"high\":32\x7d,",
   "\"type\":\x7b\"descriptor\":\"function_type\",",
   "\"return_type\":\x7b\"descriptor\":\"type_name\",\"type_name\":\"Color\"\x7d\x7d\x7d],",
   "\"globals\":[\x7b\"descriptor\":\"variable\",\"name\":\"g\",",
   "\"storage\":\x7b\"type\":\"global\",\"global_address\":64\x7d,",
   "\"type\":\x7b\"descriptor\":\"type_name\",\"type_name\":\"S\"\x7d\x7d]\x7d],",
   "\"deduplicated_types\":[\x7b\"descriptor\":\"enum\",\"name\":\"Color\",",
   "\"constants\":[\x7b\"name\":\"RED\",\"value\":0\x7d]\x7d,",
   "\x7b\"descriptor\":\"struct\",\"name\":\"S\",\"size_bits\":32,",
   "\"fields\":[\x7b\"descriptor\":\"type_name\",\"type_name\":\"Color\",\"name\":\"c\",",
   "\"relative_offset_bytes\":0,\"size_bits\":32\x7d]\x7d]\x7d"]

/-- The value of the text. -/
def paintedFields : List (String × Json) :=
  let entry (key text : String) : String × Json := (key, .text text)
  let typeName (name : String) : List (String × Json) :=
    [entry "descriptor" "type_name", entry "type_name" name]
  [("files", .list [.object
     [entry "descriptor" "source_file", entry "path" "a.c",
      ("functions", .list [.object
        [entry "descriptor" "function_definition", entry "name" "f",
         ("address_range", .object [("low", .int 16), ("high", .int 32)]),
         ("type", .object
           [entry "descriptor" "function_type", ("return_type", .object (typeName "Color"))])]]),
      ("globals", .list [.object
        [entry "descriptor" "variable", entry "name" "g",
         ("storage", .object [entry "type" "global", ("global_address", .int 64)]),
         ("type", .object (typeName "S"))]])]]),
   ("deduplicated_types", .list
     [.object
       [entry "descriptor" "enum", entry "name" "Color",
        ("constants", .list [.object [entry "name" "RED", ("value", .int 0)]])],
      .object
       [entry "descriptor" "struct", entry "name" "S", ("size_bits", .int 32),
        ("fields", .list [.object (typeName "Color" ++
          [entry "name" "c", ("relative_offset_bytes", .int 0), ("size_bits", .int 32)])])]])]

def paintedType (serial : Nat) (name : String) : Node :=
  .typeName { serial } ⟨.text name, -1, none⟩

def paintedFunction : Document.FunctionDefinition where
  common := { serial := 2, name := .text "f" }
  low := .int 16
  high := .int 32
  relativePath := .null
  type :=
    { common := { serial := 1 }
      returnType := some (paintedType 0 "Color")
      parameters := none
      modifier := .null
      isConstructor := false
      vtableIndex := -1 }
  locals := []
  lineNumbers := []
  breadcrumbs := []

def paintedGlobal : Document.Variable :=
  { chainGlobal with
    common := { serial := 4, name := .text "g" }
    storage := { chainGlobal.storage with
      globalLocation := .nil, globalAddress := 64, stackOffset := -1 }
    type := paintedType 3 "S" }

def paintedDocument : Document where
  files :=
    [{ common := { serial := 5 }
       path := .text "a.c"
       relativePath := .text "a.c"
       textAddress := -1
       functions := [paintedFunction]
       globals := [paintedGlobal]
       typeNumbers := {} }]
  types :=
    [.enumeration { serial := 6, name := .text "Color" } [(0, .text "RED")],
     .composite { serial := 8, name := .text "S", sizeBits := 32 } true []
       [.typeName { serial := 7, name := .text "c", relativeOffset := 0, sizeBits := 32 }
         ⟨.text "Color", -1, none⟩] []]
  size := 9

theorem paintedType_wellTyped (serial : Nat) (name : String) : (paintedType serial name).WellTyped :=
  Node.wellTyped_typeName (.inl rfl) (.inr ⟨name, rfl⟩)

theorem paintedFunction_wellTyped : Document.WellTypedFunction paintedFunction where
  name := .inr ⟨"f", rfl⟩
  low := .inr ⟨16, rfl⟩
  high := .inr ⟨32, rfl⟩
  relativePath := .inl rfl
  type := by
    refine Node.wellTyped_iff.mpr ⟨.inl rfl, ?_⟩
    simp [paintedFunction, Node.parts, paintedType_wellTyped]
  parameters := by simp [paintedFunction]
  locals := by simp [paintedFunction]
  breadcrumbs := by simp [paintedFunction]

theorem paintedDocument_wellTyped : paintedDocument.WellTyped := by
  constructor
  · simp only [paintedDocument, List.forall_mem_cons]
    refine ⟨?_, ?_, List.forall_mem_nil _⟩
    · exact Node.wellTyped_iff.mpr ⟨⟨.inr ⟨"Color", rfl⟩, by simp [Json.IsName]⟩, nofun⟩
    · refine Node.wellTyped_composite (.inr ⟨"S", rfl⟩) _ ?_ _
      rw [List.forall_mem_singleton]
      exact Node.wellTyped_typeName (.inr ⟨"c", rfl⟩) (.inr ⟨"Color", rfl⟩)
  · simp only [paintedDocument, List.forall_mem_singleton]
    constructor
    · exact ⟨"a.c", rfl⟩
    · exact ⟨"a.c", rfl⟩
    · simp [paintedFunction_wellTyped]
    · rw [List.forall_mem_singleton]
      exact ⟨.inr ⟨"g", rfl⟩, paintedType_wellTyped 3 "S"⟩

def paintedHost : Host := { files := ⟨[(["d"], Document.bytesOf paintedText)]⟩ }

def paintedTwice : RunTwice :=
  { options := { jsonPath := "d" }, host := paintedHost, host' := paintedHost }

theorem paintedHost_read : paintedHost.read "d" = .ok (Document.bytesOf paintedText) := by
  have hsplit : Host.parts "d" = ["d"] := by decide +kernel
  have hfault : Host.pathFault? "d" = none := by decide +kernel
  have hstart : Host.start "d" = [] := by decide +kernel
  rw [Host.read, Host.locate, hfault, hsplit, hstart]
  rfl

theorem readBytes_paintedText :
    Document.readBytes none (Document.bytesOf paintedText) = ([], .ok paintedDocument) :=
  readBytes_of_json paintedFields (n := 9) (by decide +kernel) rfl rfl

theorem paintedTwice_imports : paintedTwice.Imports paintedDocument := by
  have found (p : Program) : inputDocument? none (.start p paintedTwice.options paintedHost {}) =
      some paintedDocument :=
    inputDocument_of_file (show "d" ≠ "" by decide) paintedHost_read
      (congrArg Prod.snd readBytes_paintedText)
  exact ⟨found _, found _, rfl, by decide, rfl, rfl⟩

/-- Whether the composites of the one program are of the same size in the other. -/
def sameSizes (p q : Program) : Bool :=
  p.registry.entries.all fun e =>
    (p.arena.composite? e.2).all fun c => (q.arena.composite? e.2).all fun c' => c'.size == c.size

theorem sameSizes_spec {p q : Program} (h : sameSizes p q = true) : p.SameSizes q := by
  intro own x c c' hx hc hc'
  obtain ⟨e, he, -, rfl⟩ := Ledger.exists_entry_of_get? hx
  have same := List.all_eq_true.mp h e he
  rw [hc, hc'] at same
  exact eq_of_beq same

theorem paintedTwice_keepsSizes : paintedTwice.KeepsSizes paintedDocument :=
  sameSizes_spec (by decide +kernel)

/-- The structure is of the size its field takes. -/
theorem run_repeats_painted :
    (run paintedTwice.first).1 = true ∧ (run paintedTwice.second).1 = true ∧ ∀ keyText,
      SummedUpAlike keyText (run paintedTwice.first).2.session.program
        (run paintedTwice.second).2.session.program :=
  run_repeats paintedTwice_imports
    (paintedTwice_imports.uncancelled paintedDocument_wellTyped rfl rfl) paintedDocument_wellTyped
    (List.pairwise_singleton _ _) paintedTwice_keepsSizes

end StabsImport.Import

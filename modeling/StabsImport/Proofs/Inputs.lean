import StabsImport.Proofs.CodeAndData
import StabsImport.Proofs.Files
import StabsImport.Proofs.Readers

/-!
# What getting a document leaves behind

Tools are started, and files are as they were: a copy of the program's image is in place while the
tool runs on it and gone afterwards, and no file that was there is removed. As long as no types are
imported the program is as it was, too, and a run that gives up has not taken up a document. Main
statement: `importInput_leaves`.
-/

namespace StabsImport

open Host (Free IsNew)

/-- All that has happened to the host is that tools were started; if on a temporary file, that file
held the program's image then. -/
def OnlyStarts (p : Program) (h h' : Host) : Prop :=
  ∃ calls, h' = { h with calls := h.calls ++ calls } ∧
    ∀ call ∈ calls, call.isTemporary = true →
      ∃ image, p.image? h = some image ∧ call.image = some image

namespace OnlyStarts

variable {p : Program} {h : Host}

theorem refl (p : Program) (h : Host) : OnlyStarts p h h := ⟨[], by simp, nofun⟩

theorem record {call : ToolCall} (image : call.isTemporary = true →
    ∃ image, p.image? h = some image ∧ call.image = some image) :
    OnlyStarts p h (h.record call) := by
  refine ⟨[call], rfl, fun c hc => ?_⟩
  rw [List.mem_singleton.mp hc]
  exact image

end OnlyStarts

/-- The image is what it was when a new file is put. -/
theorem Program.image_put {h : Host} {location : Location} (p : Program)
    (free : h.Free location) (content : Text.Bytes) {image : Text.Bytes}
    (himage : p.image? h = some image) : p.image? (h.putFile location content) = some image := by
  obtain ⟨path, hpath, hread⟩ := Option.bind_eq_some_iff.mp himage
  refine Option.bind_eq_some_iff.mpr ⟨path, hpath, ?_⟩
  cases found : h.read path with
  | error e =>
      rw [Host.content?, found] at hread
      cases hread
  | ok bytes =>
      rw [Host.content?, found] at hread
      rw [Host.content?, free.read_put content found]
      exact hread

namespace Import

variable {h : Host} {o : Options} {p : Program}

/-! ## The tool -/

theorem runTool_apply (elf option : String) (timeout : Int) (isTemporary : Bool) (h : Host) :
    runTool elf option timeout isTemporary h =
      match toolCall h elf option timeout isTemporary with
      | .error e => (([], .error e), h)
      | .ok call => (acquired timeout h.outcome, h.record call) := by
  simp only [runTool, bind, StateT.bind, get, getThe, MonadStateOf.get, StateT.get, pure]
  cases toolCall h elf option timeout isTemporary with
  | error e => rfl
  | ok call => rfl

/-- A call is on a temporary file if it is made for one, and has what that file holds. -/
theorem toolCall_ok {elf option : String} {timeout : Int} {isTemporary : Bool} {call : ToolCall}
    (hcall : toolCall h elf option timeout isTemporary = .ok call) :
    call.isTemporary = isTemporary ∧
      ∀ image, h.read elf = .ok image → call.image = some image := by
  rw [toolCall] at hcall
  cases hfound : findTool h option with
  | error e =>
      rw [hfound] at hcall
      cases hcall
  | ok tool =>
      cases hheld : imageFor h elf with
      | error e =>
          rw [hfound, hheld] at hcall
          cases hcall
      | ok held =>
          rw [hfound, hheld] at hcall
          cases hcall
          refine ⟨rfl, fun image hread => ?_⟩
          rw [imageFor, hread] at hheld
          cases hheld
          rfl

theorem runTool_leaves (p : Program) (elf option : String) (timeout : Int) (h : Host) :
    OnlyStarts p h (runTool elf option timeout false h).2 := by
  rw [runTool_apply]
  split
  · exact .refl p h
  · next call hcall =>
      refine .record fun temporary => ?_
      rw [(toolCall_ok hcall).1] at temporary
      cases temporary

theorem set_bind_apply {σ α : Type} (s s' : σ) (action : StateM σ α) :
    (do set s'; action) s = action s' :=
  rfl

theorem runToolOnImage_apply (path : String) (o : Options) (p : Program) (h : Host) :
    runToolOnImage path o p h =
      match p.export h path with
      | .error e => (([], .error e), h)
      | .ok h' => runTool path o.toolPath o.timeout true h' := by
  simp only [runToolOnImage, bind, StateT.bind, get, getThe, MonadStateOf.get, StateT.get, pure]
  cases p.export h path with
  | error e => rfl
  | ok h' => exact set_bind_apply h h' _

/-- A new file is filled with the image of the program before a tool is started. -/
theorem runToolOnImage_leaves {path name : String} {location : Location} {image : Text.Bytes}
    (new : h.IsNew path name location) (himage : p.image? h = some image) (o : Options) :
    OnlyStarts p h <|
      (runToolOnImage (path ++ "/" ++ name) o p (h.putFile location [])).2.removeFile location := by
  have exported : p.export (h.putFile location []) (path ++ "/" ++ name) =
      .ok (h.putFile location image) := by
    rw [Program.export, p.image_put new.free [] himage]
    dsimp only
    rw [Host.write, new.place_put]
    exact congrArg Except.ok (Host.put_put ..)
  rw [runToolOnImage_apply, exported]
  dsimp only
  rw [runTool_apply]
  split
  · dsimp only
    rw [new.free.remove_put]
    exact .refl p h
  · next call hcall =>
      have removed : ((h.putFile location image).record call).removeFile location =
          h.record call :=
        congrArg (Host.record · call) (new.free.remove_put image)
      dsimp only
      rw [removed]
      exact .record fun _ => ⟨image, himage, (toolCall_ok hcall).2 image (new.read_put image)⟩

theorem runToolOnCopy_leaves (o : Options) (h : Host) {image : Text.Bytes}
    (himage : p.image? h = some image) : OnlyStarts p h (runToolOnCopy o p h).2 := by
  simp only [runToolOnCopy, bind, StateT.bind, get, getThe, MonadStateOf.get, StateT.get, pure]
  cases h.temporaries with
  | none => exact .refl p h
  | some folder =>
      dsimp only
      cases placed : h.place (folder ++ "/" ++ h.freshName "stdump_input" ".elf") with
      | error e => exact .refl p h
      | ok location =>
          have new : h.IsNew folder (h.freshName "stdump_input" ".elf") location :=
            Host.isNew_freshName (by decide) (by decide) (by decide) placed
          exact runToolOnImage_leaves new himage o

theorem acquire_leaves (o : Options) (p : Program) (h : Host) :
    OnlyStarts p h (acquire o p h).2 := by
  simp only [acquire, bind, StateT.bind, get, getThe, MonadStateOf.get, StateT.get, pure]
  split
  · exact .refl p h
  · split
    · split
      · exact runTool_leaves p o.elfPath o.toolPath o.timeout h
      · exact .refl p h
    · split
      · next can =>
          obtain ⟨image, himage⟩ := Option.isSome_iff_exists.mp can
          exact runToolOnCopy_leaves o h himage
      · exact .refl p h

/-! ## The stages -/

/-- Whether the types of a document are being imported or have been. -/
def Phase.isUnderWay : Phase → Bool
  | importingTypes | importingFunctions | importingGlobals | done => true
  | _ => false

/-- The host stays as it is, and what is under way goes on. -/
structure Onward (i j : Importer) : Prop where
  host : j.host = i.host
  underWay : i.phase.isUnderWay = true → j.phase.isUnderWay = true

namespace Onward

variable {i j k : Importer}

theorem refl (i : Importer) : Onward i i := ⟨rfl, id⟩

theorem trans (h : Onward i j) (h' : Onward j k) : Onward i k :=
  ⟨h'.host.trans h.host, fun hi => h'.underWay (h.underWay hi)⟩

end Onward

/-- Whatever the action ends with, it goes on from where it began. -/
def GoesOn {α : Type} (m : RunM α) : Prop :=
  ∀ i, Runs m i (fun _ j => Onward i j) fun _ j => Onward i j

namespace GoesOn

variable {α β : Type}

theorem pure (a : α) : GoesOn (pure a) := .refl

theorem throw (e : RunFault) : GoesOn (throw e : RunM α) := .refl

theorem get {f : Importer → RunM α} (h : ∀ i, GoesOn (f i)) : GoesOn (get >>= f) := fun i => h i i

theorem bind {m : RunM α} {f : α → RunM β} (hm : GoesOn m) (hf : ∀ a, GoesOn (f a)) :
    GoesOn (m >>= f) := by
  intro i
  rw [Runs.bind_iff]
  refine Runs.mono (hm i) (fun a j hj => ?_) fun _ _ h => h
  exact Runs.mono (hf a j) (fun _ _ h => hj.trans h) fun _ _ h => hj.trans h

theorem notify (notice : Notice) : GoesOn (notify notice) := fun _ => ⟨rfl, id⟩

/-- The phases that follow one under way are under way. -/
theorem enterPhase (target : Phase) : GoesOn (enterPhase target) := by
  intro i
  by_cases h : target ∈ i.phase.next
  · rw [runs_enterPhase h]
    refine ⟨rfl, fun hi => ?_⟩
    show target.isUnderWay = true
    revert hi h
    cases i.phase <;> cases target <;> decide
  · rw [runs_enterPhase_refused h]
    exact .refl i

theorem within (action : ImportM α) : GoesOn (within action) := by
  intro i
  rw [runs_within]
  exact .of_all (fun _ _ => ⟨rfl, id⟩) fun _ _ => ⟨rfl, id⟩

theorem runStage (isWanted : Bool) (stage : ImportM Unit) : GoesOn (runStage isWanted stage) := by
  unfold Import.runStage
  split
  · refine (within stage).bind fun result => ?_
    cases result with
    | ok a => exact pure a
    | error e =>
        dsimp only
        split
        · exact notify _
        · exact throw _
  · exact pure _

theorem runPhase (target : Phase) (isWanted : Bool) (stage : ImportM Unit) :
    GoesOn (runPhase target isWanted stage) :=
  (enterPhase target).bind fun _ => runStage isWanted stage

theorem abort (report : String) : GoesOn (abort report) :=
  (notify _).bind fun _ => (enterPhase .aborted).bind fun _ => pure false

end GoesOn

variable {i j : Importer} {d : Document}

/-- What is left where a document cannot be taken up: the table of its types takes no name that is
no key. The program is as it was. -/
structure StopsShort (d : Document) (i : Importer) (e : RunFault) (j : Importer) : Prop where
  fault : e = .broken .wrongKind
  host : j.host = i.host
  phase : j.phase = i.phase
  program : j.session.program = i.session.program
  name : ∃ n ∈ d.types, n.name.isKey = false

theorem prepare_refused {s : Session} (hp : s.isPrepared = false) :
    Runs prepare s (fun _ _ => True) fun e t =>
      e = .wrongKind ∧ t = s ∧ ∃ n ∈ s.document.types, n.name.isKey = false := by
  rw [prepare, Runs.bind_iff, Runs.get_iff]
  simp only [hp, Bool.false_eq_true, if_false]
  rw [Runs.ite_iff]
  split
  · next hany =>
      obtain ⟨n, hn, hname⟩ := List.any_eq_true.mp hany
      exact ⟨rfl, rfl, n, hn, by simpa using hname⟩
  · trivial

theorem takeUp_leaves (room : Room) (d : Document) (i : Importer) :
    Runs (takeUp room d) i
      (fun _ j => j.host = i.host ∧ j.phase = i.phase)
      fun e j => StopsShort d i e j := by
  rw [takeUp, Runs.bind_iff, Runs.modify_iff, Runs.bind_iff, runs_within]
  refine Runs.mono (prepare_refused rfl) (fun _ _ _ => ⟨rfl, rfl⟩) ?_
  rintro e t ⟨rfl, rfl, name⟩
  exact ⟨rfl, rfl, rfl, rfl, name⟩

theorem runStages_leaves {room : Room} (hp : i.phase = .parsing) :
    Runs (runStages room d) i (fun _ j => j.host = i.host ∧ j.phase.isUnderWay = true)
      fun e j => j.host = i.host ∧ j.phase.isUnderWay = true ∨ StopsShort d i e j := by
  rw [runStages, Runs.bind_iff]
  refine Runs.mono (takeUp_leaves _ d i) ?_ fun _ _ => .inr
  rintro _ j ⟨hhost, hphase⟩
  have next : Phase.importingTypes ∈ j.phase.next := by
    rw [hphase, hp]
    decide
  rw [Runs.bind_iff, Runs.get_iff, Runs.bind_iff, runPhase, Runs.bind_iff, runs_enterPhase next]
  have rest := ((GoesOn.runStage j.options.importTypes importTypes).bind fun _ =>
    (GoesOn.runPhase .importingFunctions j.options.importFunctions importFunctions).bind fun _ =>
      (GoesOn.runPhase .importingGlobals j.options.importGlobals importGlobals).bind fun _ =>
        GoesOn.enterPhase .done) { j with phase := .importingTypes }
  rw [Runs.bind_iff] at rest
  exact rest.mono (fun _ _ h => h.mono (fun _ _ h => ⟨h.host.trans hhost, h.underWay rfl⟩)
    fun _ _ h => .inl ⟨h.host.trans hhost, h.underWay rfl⟩)
    fun _ _ h => .inl ⟨h.host.trans hhost, h.underWay rfl⟩

/-! ## Runs -/

/-- What a run leaves, and ends with, that starts from an importer of its own. -/
structure Leaves (room : Room) (i : Importer) (r : Except RunFault Bool) (j : Importer) : Prop where
  host : OnlyStarts i.session.program i.host j.host
  program : j.phase.isUnderWay = false → j.session.program = i.session.program
  unstarted : j.phase.isUnderWay = false → j.isStarted = true →
    r = .error (.broken .wrongKind) ∧
      ∃ d, inputDocument? room i = some d ∧ ∃ n ∈ d.types, n.name.isKey = false
  aborted : r = .ok false → j.phase = .aborted

namespace Leaves

variable {room : Room} {r : Except RunFault Bool}

/-- Until a document is taken up, only the host, the journal and the phase are others. -/
theorem of_early {journal : Journal} {phase : Phase}
    (starts : OnlyStarts i.session.program i.host (afterInput i journal phase).host)
    (unstarted : i.isStarted = false) (ends : r = .ok false → phase = .aborted) :
    Leaves room i r (afterInput i journal phase) := by
  refine ⟨starts, fun _ => rfl, fun _ h => ?_, ends⟩
  rw [afterInput, unstarted] at h
  cases h

theorem of_underWay (starts : OnlyStarts i.session.program i.host j.host)
    (underWay : j.phase.isUnderWay = true) (ends : r ≠ .ok false) : Leaves room i r j := by
  refine ⟨starts, fun h => ?_, fun h => ?_, fun h => (ends h).elim⟩
  all_goals
    rw [underWay] at h
    cases h

theorem of_stopsShort {e : RunFault} {k : Importer} (short : StopsShort d j e k)
    (starts : OnlyStarts i.session.program i.host j.host)
    (program : j.session.program = i.session.program) (found : inputDocument? room i = some d) :
    Leaves room i (.error e) k where
  host := short.host ▸ starts
  program _ := short.program.trans program
  unstarted _ _ := ⟨congrArg Except.error short.fault, d, found, short.name⟩
  aborted h := by cases h

/-- A run that gives up leaves the files and the program, and is aborted. -/
theorem gaveUp (leaves : Leaves room i r j) (failed : r.toOption = some false) :
    j.host.files = i.host.files ∧ j.session.program = i.session.program ∧ j.phase = .aborted := by
  have aborted : j.phase = .aborted := by
    refine leaves.aborted ?_
    cases r with
    | error e => cases failed
    | ok success => exact congrArg Except.ok (Option.some.inj failed)
  obtain ⟨calls, hhost, -⟩ := leaves.host
  refine ⟨by rw [hhost], leaves.program ?_, aborted⟩
  rw [aborted]
  rfl

end Leaves

theorem importInputWithin_leaves {room : Room} (idle : i.phase = .idle)
    (unstarted : i.isStarted = false) :
    Runs (importInputWithin room) i (fun success j => Leaves room i (.ok success) j)
      fun e j => Leaves room i (.error e) j := by
  have starts := acquire_leaves i.options i.session.program i.host
  refine runs_importInputWithin idle (fun _ _ => .of_early starts unstarted fun _ => rfl)
    (fun _ _ _ _ => .of_early starts unstarted (by simp)) fun d journal found => ?_
  rw [runs_importWithin_of_parsing rfl]
  refine Runs.mono (runStages_leaves rfl) ?_ ?_
  · rintro _ k ⟨hhost, underWay⟩
    exact .of_underWay (hhost ▸ starts) underWay (by simp)
  · rintro e k (⟨hhost, underWay⟩ | short)
    · exact .of_underWay (hhost ▸ starts) underWay (by simp)
    · exact .of_stopsShort short starts rfl found

/-- A run of a fresh importer, whatever it finds and whatever it ends with: the files are as they
were, and a tool that ran on a temporary one found the program's image there. Unless the types of a
document have come to be imported, the program is as it was, too, and no document has been taken up,
but for one with a name that is no key. A run that gives up is aborted. -/
theorem importInput_leaves (program : Program) (options : Options) (host : Host)
    (monitor : Monitor) :
    Leaves host.room (Importer.start program options host monitor)
      (importInput (Importer.start program options host monitor)).1
      (importInput (Importer.start program options host monitor)).2 := by
  have run : Runs importInput (Importer.start program options host monitor)
      (fun success j => Leaves host.room (Importer.start program options host monitor)
        (.ok success) j)
      fun e j => Leaves host.room (Importer.start program options host monitor) (.error e) j := by
    rw [importInput, Runs.bind_iff, Runs.get_iff]
    exact importInputWithin_leaves rfl rfl
  rw [Runs] at run
  rcases hrun : importInput (Importer.start program options host monitor) with ⟨_ | success, j⟩
  · rw [hrun] at run
    exact run
  · rw [hrun] at run
    exact run

/-- A program with an image, which is three bytes. -/
def imagedProgram : Program := { executable := some "game.elf" }

/-- A host with that image and a directory for temporary files, where the tool fails. -/
def imagedHost : Host where
  files := ⟨[(["game.elf"], [1, 2, 3])]⟩
  directories := [["tmp"]]
  temporaries := some "tmp"
  tools := ⟨[("stdump", "/usr/bin/stdump")]⟩
  outcome := .finished 1 [] []

def imagedRun : Except RunFault Bool × Importer :=
  importInput (Importer.start imagedProgram {} imagedHost {})

/-- The tool has seen the image in a temporary file, and has failed. -/
theorem importInput_leaves_copy :
    imagedRun.2.host.calls.map (fun call => (call.isTemporary, call.image)) =
        [(true, some [1, 2, 3])] ∧
      imagedRun.2.host.files = imagedHost.files ∧ imagedRun.2.session.program = imagedProgram ∧
      imagedRun.2.phase = .aborted :=
  ⟨by decide +kernel,
    (importInput_leaves imagedProgram {} imagedHost {}).gaveUp (by decide +kernel)⟩

/-- A type whose name is a list. -/
def unkeyedText : List String :=
  ["\x7b\"files\":[],\"deduplicated_types\":[\x7b\"descriptor\":\"builtin\",",
   "\"class\":\"8-bit signed integer\",\"name\":[\"x\"]\x7d]\x7d"]

/-- A host with that text in its one file. -/
def unkeyedHost : Host := { files := ⟨[(["d"], Document.bytesOf unkeyedText)]⟩, room := .usual }

/-- A name that is no key stops a run whose document is taken up and whose types are yet to come. -/
theorem importInput_leaves_unkeyed :
    let run := importInput (Importer.start {} { jsonPath := "d" } unkeyedHost {})
    run.1.toOption = none ∧ run.2.phase = .parsing ∧ run.2.isStarted = true := by
  decide +kernel

end Import

end StabsImport

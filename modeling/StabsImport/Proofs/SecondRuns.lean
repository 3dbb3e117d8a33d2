import StabsImport.Proofs.Reflections

/-!
# The same stages again

The stages of an import, on the program that they left before with the same document, leave the
program as it was: summed up, the two differ in the order of the labels at one address at most. This
holds as long as the stage of types leaves every structure and union of the size it was registered
with, and where no two definitions start at one address. Main statement: `importAll_repeats`.
-/

namespace StabsImport.Import

open Document (FunctionDefinition SourceFile Variable Node)

open Program Bond

variable {d : Document} {pointerSize : Int} {s t u s' t' b v : Session} {blocks : List (Int × Int)}
  {l : List (FunctionDefinition × SourceFile)} {vs : List Variable}

/-! ## All stages -/

/-- All that a run with a stage of types does. -/
def importAll (o : Options) : ImportM Unit := do
  importTypes
  importWanted o

theorem Session.IsNew.prepare (h : s.IsNew) :
    ∃ t, Import.prepare s = (.ok (), t) ∧ t.isPrepared = true :=
  ⟨_, prepare_of_new h.isPrepared fun n hn => (h.document.types n hn).typed.name.isKey, rfl⟩

/-- The stage of types begins with making the table, which may be there already. -/
theorem importTypes_of_prepare (h : prepare s = (.ok (), t)) (prepared : t.isPrepared = true) :
    importTypes s = importTypes t := by
  rw [importTypes, Runs.bind_apply, Runs.bind_apply, h, prepare_of_isPrepared prepared]

/-- A run that is not cancelled in the end was not cancelled before the functions. -/
theorem uncancelled_of_importAll (h : s.IsNew) {o : Options}
    (uncancelled : (importAll o s).2.monitor.isCancelled = false) :
    (importTypes s).2.monitor.isCancelled = false := by
  obtain ⟨t, ht, prepared⟩ := h.prepare
  have stage : Frame (fun _ => True) t (importTypes t).2 :=
    (importTypes_frame fun _ => trivial).apply t
  have idle := importWanted_of_cancelled o (stage.prepared prepared)
  rw [importAll, Runs.bind_apply] at uncancelled
  rw [← importTypes_of_prepare ht prepared] at idle
  revert idle uncancelled
  rcases importTypes s with ⟨_ | _, filled⟩
  · exact fun uncancelled _ => uncancelled
  · intro uncancelled idle
    dsimp only at uncancelled idle
    cases cancelled : filled.monitor.isCancelled with
    | false => rfl
    | true =>
        rw [idle cancelled] at uncancelled
        exact cancelled.symm.trans uncancelled

/-! ## Two runs -/

/-- A session that starts like another over the same document, on the program `p`. -/
structure Restarts (s : Session) (p : Program) (s' : Session) : Prop extends s'.IsNew where
  again : s'.document = s.document
  left : s'.program = p
  outputLines : s'.outputLines = s.outputLines
  markInlined : s'.markInlined = s.markInlined

theorem pairwise_wantedDefinitions (h : (definitions d).Pairwise Apart) (o : Options) :
    (wantedDefinitions o d).Pairwise Apart := by
  unfold wantedDefinitions
  split
  · exact h
  · exact .nil

theorem mem_wantedDefinitions {o : Options} {x : FunctionDefinition × SourceFile}
    (h : x ∈ wantedDefinitions o d) : x ∈ definitions d := by
  unfold wantedDefinitions at h
  split at h
  · exact h
  · cases h

theorem mem_wantedGlobals {o : Options} {v : Variable} (h : v ∈ wantedGlobals o d) :
    v ∈ d.globals := by
  unfold wantedGlobals at h
  split at h
  · exact (List.mem_filter.mp h).1
  · cases h

theorem mem_askedFor (typed : d.WellTyped) {o : Options} {p : Program} :
    ∀ m ∈ (wantedDefinitions o d).flatMap (asked p) ++ (wantedGlobals o d).map askOf,
      ∀ σ, (bond σ).Makes m := by
  intro m hm σ
  rcases List.mem_append.mp hm with hm | hm
  · obtain ⟨x, hx, hm⟩ := List.mem_flatMap.mp hm
    rw [asked] at hm
    split at hm
    · exact makes_asksOf (isDefinition_of_mem typed (mem_wantedDefinitions hx)) m hm
    · cases hm
  · obtain ⟨v, hv, rfl⟩ := List.mem_map.mp hm
    exact makes_askOf (wellTyped_of_mem_globals typed (mem_wantedGlobals hv)).1

/-- How the stages go: the types are registered and filled, and the functions and globals that are
wanted are worked on. -/
structure Course (blocks : List (Int × Int)) (o : Options) (s shells filled between last : Session) :
    Prop where
  types : TypeStage s shells filled
  frame : Frame (fun _ => True) s filled
  ends : importAll o s = (.ok (), last)
  pass : Pass s.document s.program.pointerSize blocks (wantedDefinitions o s.document)
    (wantedGlobals o s.document) filled between last
  permanent : Permanent filled last
  upholds : Upholds filled last
  imported : last.Imported s.document s.program.pointerSize

/-- The stages go so unless they are cancelled, where a function that stands already at the address of
a definition is as one made for it. -/
theorem Session.IsNew.course (h : s.IsNew) (numbered : s.document.IsNumbered)
    (aligned : s.program.convention.alignment ≠ 0) (consistent : s.program.Consistent blocks)
    (apart : (definitions s.document).Pairwise Apart) (o : Options)
    (drafted : ∀ x ∈ wantedDefinitions o s.document, ∀ {entry f}, StartsAt x.1 entry →
      s.program.function? entry = some f → Drafted s.program.pointerSize x.1 f)
    (uncancelled : (importAll o s).2.monitor.isCancelled = false) :
    ∃ shells filled between last, Course blocks o s shells filled between last := by
  have began := uncancelled_of_importAll h uncancelled
  obtain ⟨imported, frame⟩ := h.imported numbered .none began .none
  obtain ⟨shells, filled, types⟩ := importTypes_typeStage h began
  rw [types.stage] at imported frame
  have tables : SameTables s.program filled.program := frame.programs (E := SameTables)
  obtain ⟨last, made, permanent⟩ := imported.importWanted_ends (frame.convention ▸ aligned) o
  have ends : importAll o s = (.ok (), last) := by
    rw [importAll, Runs.bind_apply, types.stage]
    exact made
  rw [ends] at uncancelled
  have works := importWanted_works numbered o imported
    (tables.consistent (by rw [frame.program]) consistent) apart
    fun x hx _ _ starts hf => drafted x hx starts (tables.function? ▸ hf)
  rw [Works, Runs, made] at works
  obtain ⟨imported', upholds, passed⟩ := works
  obtain ⟨between, pass⟩ := passed uncancelled
  exact ⟨shells, filled, between, last,
    { types, frame, ends, pass, permanent, upholds, imported := imported' }⟩

/-- A second run over the document, on the program that the first left, leaves it as it was but for
the order of the labels at one address, as long as no structure or union is of another size than it was
registered with. Both runs end unless they are cancelled. -/
theorem importAll_repeats (h : s.IsRepeatable blocks) (initial : RegistersInitial s) (o : Options)
    (uncancelled : (importAll o s).2.monitor.isCancelled = false)
    (restarts : Restarts s (importAll o s).2.program s')
    (uncancelled' : (importAll o s').2.monitor.isCancelled = false)
    (same : (registerTypes s).2.program.SameSizes (importTypes s).2.program) :
    ∃ b v, importAll o s = (.ok (), b) ∧ importAll o s' = (.ok (), v) ∧
      ∀ keyText, SummedUpAlike keyText b.program v.program := by
  obtain ⟨shells, filled, between, b, first⟩ := h.toIsNew.course h.numbered h.aligned h.consistent
    h.apart o (fun x hx _ _ starts hf => by
      rw [h.free x (mem_wantedDefinitions hx) _ starts] at hf
      cases hf) uncancelled
  rw [first.ends] at restarts
  rw [first.types.stage, first.types.registers] at same
  have convention : s'.program.convention = s.program.convention := by
    rw [restarts.left, first.upholds.convention, first.frame.convention]
  have pointerSize : s'.program.pointerSize = s.program.pointerSize :=
    restarts.left ▸ first.imported.unspoilt.pointers
  -- the functions that the second run finds are those that the first one made
  have apart := pairwise_wantedDefinitions h.apart o
  have inPlace := first.pass.inPlace apart
  obtain ⟨shells', filled', between', v, second⟩ := restarts.toIsNew.course
    (restarts.again ▸ h.numbered) (convention ▸ h.aligned) (restarts.left ▸ first.pass.consistent)
    (restarts.again ▸ h.apart) o (fun x hx _ _ starts hf => by
      rw [restarts.again] at hx
      rw [restarts.left] at hf
      exact pointerSize ▸ (inPlace x hx).drafted starts hf first.imported.unspoilt.pointers)
    uncancelled'
  have pass' := second.pass
  rw [restarts.again, pointerSize] at pass'
  have rerun : Rerun s.document s.program.pointerSize blocks (wantedDefinitions o s.document)
      (wantedGlobals o s.document) filled between b filled' between' v :=
    { apart, first := first.pass, second := pass'
      same := restarts.left ▸ second.frame.programs (E := SameTables)
      memory := by rw [second.frame.program, restarts.left]
      outputLines := (second.frame.outputLines.trans restarts.outputLines).trans
        (first.upholds.outputLines.trans first.frame.outputLines).symm
      markInlined := (second.frame.markInlined.trans restarts.markInlined).trans
        (first.upholds.markInlined.trans first.frame.markInlined).symm }
  -- both ask for the same types
  have again : s'.document = b.document := restarts.again.trans first.imported.document.symm
  have initial := first.types.registersInitial initial
  have stages := first.types.importTypes_mirrors second.types
    (first.permanent.revisits first.upholds again restarts.left) same initial
  have answered := pass'.answered
  rw [rerun.asked] at answered
  have mirrors := (first.pass.answered.mirrors (fun m hm => mem_askedFor h.document m hm _) answered
    stages.related).related
  have returns : Returns s shells filled b s' shells' filled' v :=
    { first := first.types, second := second.types, initial, same, document := again
      program := restarts.left, permanent := first.permanent, upholds := first.upholds
      sound := first.imported.sound, permanent' := second.permanent, upholds' := second.upholds
      sound' := second.imported.sound, mirrors }
  have distinct : b.program.registry.Distinct :=
    first.permanent.registry ▸ first.frame.distinct h.distinct
  exact ⟨b, v, first.ends, second.ends, fun keyText =>
    rerun.summedUpAlike returns.recalls first.imported.sound
      (first.pass.holdsTypes (h.types.framed first.frame)) distinct
      (returns.typesJson distinct keyText)⟩

end StabsImport.Import

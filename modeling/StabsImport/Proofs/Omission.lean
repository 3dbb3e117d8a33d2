import StabsImport.Proofs.Footprints
import StabsImport.Proofs.Independence

/-!
# Documents without what is skipped

A definition that is skipped leaves nothing behind, so a document without it makes the same program.
Main statement: `importFunctions_touches`, what the stage of functions may touch of a program, told
by the definitions that it did not skip.
-/

namespace StabsImport

open Document (FunctionDefinition SourceFile Variable)
open Program (Within)

namespace Import

variable {s s' : Session} {d : FunctionDefinition} {file file' : SourceFile} {entry : Int}

/-! ## One definition -/

theorem importFunction_isBlind (x : FunctionDefinition × SourceFile) :
    IsBlind (importFunction x.1 x.2) :=
  importFunction_tracks (.of_all x (·.outputLines) (·.markInlined) edit_isBlind count_isBlind)

/-- One definition in two files that have the same paths. -/
structure Restates (x y : FunctionDefinition × SourceFile) : Prop where
  definition : y.1 = x.1
  path : y.2.path = x.2.path
  relativePath : y.2.relativePath = x.2.relativePath

theorem importNext_restates {x y : FunctionDefinition × SourceFile} (h : Restates x y) :
    importNext y = importNext x := by
  simp only [importNext, importFunction, nameFunction, markInlined, h.definition, h.path,
    h.relativePath]

theorem importFunctionsFrom_restates {l l' : List (FunctionDefinition × SourceFile)}
    (h : List.Forall₂ Restates l l') : importFunctionsFrom l' = importFunctionsFrom l := by
  induction h with
  | nil => rfl
  | cons hx _ ih => rw [importFunctionsFrom_cons, importFunctionsFrom_cons, importNext_restates hx, ih]

/-- What takes up a definition in one session does the same in the other. -/
theorem importNext_agrees (h : s.Like s') {x : FunctionDefinition × SourceFile}
    (goes : (importNext x s).1 ≠ .ok none) : Agree (importNext x s) (importNext x s') := by
  have onward : IsBlind (do
      let made ← if isComplete x.1 then importFunction x.1 x.2 else pure false
      if made then count fun t => { t with functions := t.functions + 1 } else skipped
      return some made : ImportM (Option Bool)) := by
    have counted (made : Bool) : Tracks Session.Like (do
        if made then count fun t => { t with functions := t.functions + 1 } else skipped
        return some made : ImportM (Option Bool)) := by
      cases made with
      | true => exact (Tracks.count fun _ _ _ => rfl).bind fun _ => .pure _
      | false => exact (Tracks.count fun _ _ _ => rfl).bind fun _ => .pure _
    dsimp only
    split
    · exact Tracks.bind (importFunction_isBlind x) counted
    · exact (Tracks.pure false).bind counted
  have step (u : Session) : importNext x u =
      (if u.monitor.check.1 then pure none else do
        let made ← if isComplete x.1 then importFunction x.1 x.2 else pure false
        if made then count fun t => { t with functions := t.functions + 1 } else skipped
        return some made : ImportM (Option Bool)) { u with monitor := u.monitor.check.2 } := rfl
  rw [step] at goes ⊢
  rw [step]
  cases hc : s.monitor.check.1 with
  | true =>
      rw [hc] at goes
      exact absurd rfl goes
  | false =>
      obtain ⟨hc', outlasts⟩ := h.monitor.checked hc
      rw [hc']
      exact onward _ _ ⟨by rw [h.rest], h.types, h.numbers, outlasts⟩

/-- What is left out changes nothing. -/
theorem importFunctionsFrom_pick (h : s.Like s') (l : List (FunctionDefinition × SourceFile)) :
    (importFunctionsFrom (pick (madeFrom l s) l) s').2.program =
      (importFunctionsFrom l s).2.program := by
  induction l generalizing s s' with
  | nil => exact h.program
  | cons x rest ih =>
      have hnext := importNext_within x s
      have agrees := importNext_agrees (x := x) h
      rw [importFunctionsFrom_cons, madeFrom, Runs.bind_apply]
      rcases hx : importNext x s with ⟨e | made, t⟩ <;> rw [hx] at agrees <;> rw [Runs, hx] at hnext
      · obtain ⟨result, like⟩ := agrees (by simp)
        show (importFunctionsFrom [x] s').2.program = t.program
        rw [importFunctionsFrom_cons, Runs.bind_apply]
        rcases hx' : importNext x s' with ⟨r, t'⟩
        rw [hx'] at result like
        obtain rfl : r = .error e := result
        exact like.program
      · obtain ⟨-, hidle, -⟩ := hnext
        rcases made with _ | _ | _
        · exact h.program.trans (hidle (by simp)).program
        · exact ih ((hidle (by simp)).trans h)
        · obtain ⟨result, like⟩ := agrees (by simp)
          show (importFunctionsFrom (x :: pick (madeFrom rest t) rest) s').2.program = _
          rw [importFunctionsFrom_cons, Runs.bind_apply]
          rcases hx' : importNext x s' with ⟨r, t'⟩
          rw [hx'] at result like
          obtain rfl : r = .ok (some true) := result
          exact ih like

end Import

/-! ## Documents with some of their definitions -/

open Import (pick)

/-- Files with the marked ones of their functions. -/
def Document.keepingFiles : List Bool → List SourceFile → List SourceFile
  | _, [] => []
  | marks, file :: rest =>
      { file with functions := pick marks file.functions } ::
        keepingFiles (marks.drop file.functions.length) rest

/-- The document with the marked ones of its definitions. -/
def Document.keeping (d : Document) (marks : List Bool) : Document :=
  { d with files := keepingFiles marks d.files }

namespace Import

theorem pick_append {α : Type} (marks : List Bool) (l l' : List α) :
    pick marks (l ++ l') = pick marks l ++ pick (marks.drop l.length) l' := by
  induction l generalizing marks with
  | nil => simp
  | cons a rest ih =>
      rcases marks with _ | ⟨_ | _, marks⟩
      · simp
      · exact ih marks
      · exact congrArg (a :: ·) (ih marks)

theorem pick_map {α β : Type} (f : α → β) (marks : List Bool) (l : List α) :
    pick marks (l.map f) = (pick marks l).map f := by
  induction l generalizing marks with
  | nil => simp
  | cons a rest ih =>
      rcases marks with _ | ⟨_ | _, marks⟩
      · rfl
      · exact ih marks
      · exact congrArg (f a :: ·) (ih marks)

theorem typeNumbers_keepingFiles (marks : List Bool) (files : List SourceFile) :
    (Document.keepingFiles marks files).map (·.typeNumbers) = files.map (·.typeNumbers) := by
  induction files generalizing marks with
  | nil => rfl
  | cons file rest ih => exact congrArg (file.typeNumbers :: ·) (ih _)

/-- The definitions kept, each in what is left of its file. -/
theorem definitions_keeping (d : Document) (marks : List Bool) :
    List.Forall₂ Restates (pick marks (definitions d)) (definitions (d.keeping marks)) := by
  obtain ⟨files, types, size⟩ := d
  show List.Forall₂ Restates (pick marks (files.flatMap fun file => file.functions.map (·, file)))
    ((Document.keepingFiles marks files).flatMap fun file => file.functions.map (·, file))
  induction files generalizing marks with
  | nil => simp [Document.keepingFiles]
  | cons file rest ih =>
      rw [List.flatMap_cons, pick_append, Document.keepingFiles, List.flatMap_cons]
      refine List.rel_append ?_ (by simpa using ih _)
      rw [pick_map]
      rw [List.forall₂_map_left_iff, List.forall₂_map_right_iff, List.forall₂_same]
      exact fun _ _ => ⟨rfl, rfl, rfl⟩

/-- What the stage of functions may have touched, told by the definitions that it did not skip. -/
structure Touches (s t : Session) (made : List Bool) : Prop where
  complete : ∀ x ∈ pick made (definitions s.document), isComplete x.1 = true
  /-- Unless it was cut short, the others were skipped. -/
  accounted : (importFunctions s).1 = .ok () → t.monitor.isCancelled = false →
    made.length = (definitions s.document).length
  spares : s.program.Spares (pick made (definitions s.document)) t.program
  /-- Without the others in the document, the program ends the same. -/
  without : (importFunctions { s with document := s.document.keeping made }).2.program = t.program

/-- A document that keeps the definitions that were not skipped makes the same program. -/
theorem importFunctions_restates (h : s.Like s') (kept : List.Forall₂ Restates
      (pick (madeFunctions s) (definitions s.document)) (definitions s'.document)) :
    (importFunctions s').2.program = (importFunctions s).2.program := by
  have left := prepare_leaves s
  have left' := prepare_leaves s'
  obtain ⟨result, like⟩ := prepare_tracks s s' h
  rw [importFunctions, Runs.bind_apply, Runs.bind_apply]
  rw [madeFunctions] at kept
  rcases hs : prepare s with ⟨r, t⟩
  rcases hs' : prepare s' with ⟨r', t'⟩
  rw [Runs, hs] at left
  rw [Runs, hs'] at left'
  rw [hs] at kept
  rw [hs, hs'] at result like
  obtain rfl : r' = r := result
  cases r' with
  | error e => exact like.program
  | ok _ =>
      show (importFunctionsFrom (definitions t'.document) t').2.program =
        (importFunctionsFrom (definitions t.document) t).2.program
      rw [left'.1, left.1, importFunctionsFrom_restates kept]
      exact importFunctionsFrom_pick like _

/-- The stage of functions touches only what the document names, and of that only what it did not
skip. -/
theorem importFunctions_touches (s : Session) (addressed : s.program.Addressed) :
    Touches s (importFunctions s).2 (madeFunctions s) := by
  have like : s.Like { s with document := s.document.keeping (madeFunctions s) } :=
    ⟨rfl, rfl, typeNumbers_keepingFiles _ _, .refl _⟩
  have runs := importFunctions_within s
  have moves : Programs (Within (pick (madeFunctions s) (definitions s.document))) s
      (importFunctions s).2 := (Runs.mono runs (fun _ _ h => h.1) fun _ _ h => h).snd
  refine ⟨fun _ => isComplete_of_mem_pick, fun ends uncancelled => ?_, (moves addressed).2,
    importFunctions_restates like (definitions_keeping _ _)⟩
  rw [Runs] at runs
  rcases hs : importFunctions s with ⟨r, t⟩
  rw [hs] at runs ends uncancelled
  obtain rfl : r = .ok () := ends
  exact runs.2 uncancelled

/-- A definition with an end, and one without. -/
def openEndedDocument : Document where
  files :=
    [{ common := { serial := 0 }
       path := .text "a.c"
       relativePath := .text "a.c"
       textAddress := 0
       functions := ["tick", "tock"].map fun name =>
         { common := { serial := 1, name := .text name }
           low := .int 256
           high := if name = "tick" then .int 272 else .null
           relativePath := .null
           type :=
             { common := { serial := 2 }, returnType := none, parameters := none,
               modifier := .null, isConstructor := false, vtableIndex := -1 }
           locals := []
           lineNumbers := [⟨260, 7⟩]
           breadcrumbs := [] }
       globals := []
       typeNumbers := {} }]
  size := 3

def labelledSymbols : List Symbol :=
  [{ address := ⟨256, false⟩, name := "gcc2_compiled." },
    { address := ⟨256, false⟩, name := "timer" }]

/-- A program with a function elsewhere, and labels where the definitions start. -/
def labelledProgram : Program where
  functions :=
    ⟨[(1024, { name := "main", entry := ⟨1024, false⟩, body := (⟨1024, false⟩, .ofInt 1024) })]⟩
  symbols := ⟨[(⟨256, false⟩, labelledSymbols)]⟩

def labelledSession : Session := { document := openEndedDocument, program := labelledProgram }

theorem labelledProgram_addressed : labelledProgram.Addressed where
  function {entry f} h := by
    obtain ⟨e, he, hkey, rfl⟩ := Ledger.exists_entry_of_get? h
    obtain rfl := List.mem_singleton.mp he
    exact of_decide_eq_true hkey
  symbol {address s} h := by
    obtain ⟨symbols, hget, hmem⟩ : ∃ symbols,
        labelledProgram.symbols.get? (.ofInt address) = some symbols ∧ s ∈ symbols := by
      rw [Program.symbolsAt] at h
      cases hget : labelledProgram.symbols.get? (.ofInt address) with
      | none =>
          rw [hget] at h
          cases h
      | some symbols =>
          rw [hget] at h
          exact ⟨symbols, rfl, h⟩
    obtain ⟨e, he, hkey, rfl⟩ := Ledger.exists_entry_of_get? hget
    obtain rfl := List.mem_singleton.mp he
    have here : ∀ s ∈ labelledSymbols, s.address.value = 256 := by decide
    exact (here s hmem).trans (of_decide_eq_true hkey)

theorem importFunctions_touches_labelled :
    labelledSession.program.Addressed ∧ madeFunctions labelledSession = [true, false] ∧
      Touches labelledSession (importFunctions labelledSession).2 [true, false] := by
  have made : madeFunctions labelledSession = [true, false] := by decide +kernel
  have touches := importFunctions_touches labelledSession labelledProgram_addressed
  exact ⟨labelledProgram_addressed, made, made ▸ touches⟩

end Import

end StabsImport

import StabsImport.Proofs.Database
import StabsImport.Proofs.Failures
import StabsImport.Proofs.Stagewise

/-!
# Code and data

Data is refused where there is code, but code is not refused where there is data. So they stay
apart as long as each new function is clear of the data that is there when it is made; an import
makes its functions before its data. Main statements: `makeAll_separate` and, for a function made
on top of data, `makeAll_overlap`.
-/

namespace StabsImport

namespace Program

variable {p q r : Program} {bodies : List (Whole × Bound)}

/-- No data lies where the body does. -/
def IsFree (p : Program) (body : Whole × Bound) : Prop :=
  ∀ e ∈ p.data.entries, ∀ address, e.1 ≤ address → address < e.1 + e.2.length →
    ¬ (body.1.value ≤ address ∧ (Bound.ofInt address).le body.2 = true)

/-- No address is in the range of a data item and in the body of a function. -/
def Separate (p : Program) : Prop :=
  ∀ e ∈ p.data.entries, ∀ f ∈ p.functions.values, ∀ address, e.1 ≤ address →
    address < e.1 + e.2.length → f.contains address = false

/-- Code and data are apart, and stay so when functions with these bodies are made. A function that
starts where there is one is not made again. -/
structure SpareFor (bodies : List (Whole × Bound)) (p : Program) : Prop where
  separate : p.Separate
  free : ∀ body ∈ bodies, p.functions.contains body.1.value = true ∨ p.IsFree body

theorem separate_iff : p.Separate ↔ ∀ f ∈ p.functions.values, p.IsFree f.body := by
  have hcontains (f : Function) (address : Int) : f.contains address = false ↔
      ¬ (f.body.1.value ≤ address ∧ (Bound.ofInt address).le f.body.2 = true) := by
    rw [← contains_iff, Bool.not_eq_true]
  simp only [Separate, IsFree, hcontains]
  exact ⟨fun h f hf e he => h e he f hf, fun h e he f hf => h f hf e he⟩

theorem SpareFor.none (h : SpareFor bodies p) : SpareFor [] p := ⟨h.separate, by simp⟩

/-! ## Edits that leave code and data in their places -/

/-- The same data, and functions in the same places. -/
structure SameCode (p q : Program) : Prop where
  data : q.data = p.data
  bodies : ∀ f ∈ q.functions.values, ∃ g ∈ p.functions.values, g.body = f.body
  entries : ∀ entry, p.functions.contains entry = true → q.functions.contains entry = true

namespace SameCode

theorem of_eq (functions : q.functions = p.functions) (data : q.data = p.data) : SameCode p q where
  data := data
  bodies f hf := ⟨f, functions ▸ hf, rfl⟩
  entries _ h := functions ▸ h

theorem refl (p : Program) : SameCode p p := of_eq rfl rfl

theorem trans (h : SameCode p q) (h' : SameCode q r) : SameCode p r where
  data := h'.data.trans h.data
  bodies f hf := by
    obtain ⟨g, hg, hfg⟩ := h'.bodies f hf
    obtain ⟨g', hg', hgg'⟩ := h.bodies g hg
    exact ⟨g', hg', hgg'.trans hfg⟩
  entries entry he := h'.entries entry (h.entries entry he)

/-- A function takes the place of one with its body. -/
theorem put {f g : Function} (hg : g ∈ p.functions.values) (body : g.body = f.body) (entry : Int) :
    SameCode p { p with functions := p.functions.put entry f } where
  data := rfl
  bodies f' hf' := by
    obtain ⟨e, he, rfl⟩ := List.mem_map.mp hf'
    rcases Ledger.mem_put_same he with he | ⟨-, he⟩
    · exact ⟨e.2, List.mem_map_of_mem he, rfl⟩
    · exact ⟨g, hg, he ▸ body⟩
  entries other ho := by
    rw [Ledger.contains, Ledger.get?_put]
    split
    · rfl
    · exact ho

theorem update {f : Function → Function} (hf : ∀ g, (f g).body = g.body) (entry : Int) :
    SameCode p { p with functions := p.functions.update entry f } := by
  unfold Ledger.update
  split
  · next g hg =>
      obtain ⟨e, he, -, rfl⟩ := Ledger.exists_entry_of_get? hg
      exact put (List.mem_map_of_mem he) (hf e.2).symm entry
  · exact refl p

theorem spareFor (h : SameCode p q) (hp : SpareFor bodies p) : SpareFor bodies q where
  separate := by
    intro e he f hf
    obtain ⟨g, hg, hfg⟩ := h.bodies f hf
    rw [h.data] at he
    have hsame : f.contains = g.contains := by
      funext address
      simp only [Function.contains, Function.low, Function.high, hfg]
    rw [hsame]
    exact hp.separate e he g hg
  free body hbody := by
    refine (hp.free body hbody).imp (h.entries _) fun hfree => ?_
    rw [IsFree, h.data]
    exact hfree

end SameCode

/-- Where there is room for functions with these bodies before, there is after. -/
def SparesCode (bodies : List (Whole × Bound)) (p q : Program) : Prop :=
  p.SpareFor bodies → q.SpareFor bodies

instance : Structural SameCode where
  trans := .trans
  aside := .of_eq
  retold _ entry _ hf := .update (fun g => by obtain ⟨_, _, _, h⟩ := hf g; rw [h]) entry

instance : Structural (SparesCode bodies) where
  trans h h' hp := h' (h hp)
  aside functions data := (SameCode.of_eq functions data).spareFor
  retold p entry _ hf := (Structural.retold (E := SameCode) p entry hf).spareFor

theorem replaceParameters_sameCode (entry : Int) (parameters : List (Json × TypeId)) :
    MovesWithin SameCode (replaceParameters entry parameters) := by
  refine .get fun p => MovesWithin.bind (.ofResult _) (fun named => ?_) p
  exact MovesWithin.bind (.view _) fun storage => .modify fun _ => .update (fun _ => by rfl) entry

theorem addLocal_sameCode (entry : Int) (name : Json) (type : TypeId) (stackOffset : Int) :
    MovesWithin SameCode (addLocal entry name type stackOffset) := by
  refine .get fun p => ?_
  split
  · exact SameCode.refl p
  · next f hf =>
      obtain ⟨e, he, -, rfl⟩ := Ledger.exists_entry_of_get? hf
      rw [Runs.bind_iff, runs_ofResult]
      split
      · rw [Runs.bind_iff, runs_ofExcept]
        split
        · exact SameCode.put (List.mem_map_of_mem he) (by rfl) _
        · exact .refl p
      · exact .refl p

/-- What leaves functions and data where they are leaves room where there is. -/
theorem MovesWithin.sparesCode {α : Type} {e : Edit α} (h : MovesWithin SameCode e) :
    MovesWithin (SparesCode bodies) e :=
  fun p => Runs.mono (h p) (fun _ _ hq => hq.spareFor) fun _ _ hq => hq.spareFor

/-! ## New functions and new data -/

/-- A function is made where there is no data. -/
theorem createFunction_spareFor (h : SpareFor bodies p) (name : Json) (entry : Whole)
    (body : Option (Whole × Bound)) (source : SourceKind)
    (fits : p.functions.contains entry.value = true ∨ p.IsFree (body.getD (entry, .whole entry))) :
    Runs (createFunction name entry body source) p (fun _ q => SpareFor bodies q)
      fun _ q => SpareFor bodies q := by
  refine runs_createFunction (fun _ => h) fun place => ?_
  generalize body.getD (entry, .whole entry) = range at fits place
  have free : p.IsFree range := fits.resolve_left (by simp [place.free])
  have placed : SpareFor bodies (p.placeFunction entry range) := by
    refine Structural.setSymbols (E := SparesCode bodies) _ entry _ ?_
    refine ⟨separate_iff.mpr fun g hg => ?_, fun body hb => ?_⟩
    · obtain ⟨e, he, rfl⟩ := List.mem_map.mp hg
      rcases Ledger.mem_put_same he with he | ⟨-, he⟩
      · exact separate_iff.mp h.separate e.2 (List.mem_map_of_mem he)
      · rw [he]
        exact free
    · refine (h.free body hb).imp_left fun hc => ?_
      rw [Ledger.contains, Ledger.get?_put]
      split
      · rfl
      · exact hc
  split
  · exact Runs.mono (Structural.renameFunction (E := SparesCode bodies) _ _ _ _)
      (fun _ _ h => h placed) fun _ _ h => h placed
  · exact placed

/-- Data is put where there is no code. -/
theorem createData_separate (h : p.Separate) (address : Int) (type : TypeId) (length : Int)
    (clear : Bool) :
    Runs (createData address type length clear) p (fun _ q => q.Separate)
      fun _ q => q.Separate := by
  rw [createData, Runs.bind_iff, Runs.get_iff]
  dsimp only
  rw [Runs.ite_iff]
  split
  · rw [Runs.bind_iff, typeName, runs_view]
    split <;> exact h
  rw [Runs.ite_iff]
  split
  · exact h
  split
  · exact h
  next hcode =>
  split
  · exact h
  intro e he f hf x hle hlt
  rcases Ledger.mem_put_same he with he | ⟨hkey, hitem⟩
  · exact h e (List.mem_filter.mp he).1 f hf x hle hlt
  · have haddress : e.1 = address := of_decide_eq_true hkey
    rw [haddress] at hle hlt
    rw [hitem] at hlt
    have hmeets := List.find?_eq_none.mp hcode f hf
    rw [← Bool.not_eq_true]
    intro hcontains
    obtain ⟨hlow, hhigh⟩ := contains_iff.mp hcontains
    refine hmeets ?_
    rw [bodyMeets, Function.low, Bound.whole_lt, Bound.lt_ofInt, Bool.and_eq_true,
      decide_eq_true_eq]
    exact ⟨Int.lt_of_le_of_lt hlow hlt, Bound.le_of_le hle hhigh⟩

end Program

namespace Import

open Document (FunctionDefinition SourceFile Variable)

variable {bodies : List (Whole × Bound)} {may : TypeId → Prop} {s s' : Session} {α β : Type}

open Program (SparesCode Structural)

/-! ## The stages -/

/-- The body of the function that a definition asks for: its range, or its entry alone. -/
def plannedBody? (d : FunctionDefinition) : Option (Whole × Bound) :=
  match bodyOf d with
  | .ok (.whole low, last) => some (if last.lt (.whole low) then (low, .whole low) else (low, last))
  | _ => none

/-- The bodies of the functions that a document may make. -/
def plannedBodies (d : Document) : List (Whole × Bound) :=
  (definitions d).filterMap fun x => plannedBody? x.1

/-- A definition makes its function where it is planned, and leaves code alone but for that. -/
theorem functionEdits_spares {d : FunctionDefinition} (file : SourceFile)
    (planned : ∀ body ∈ plannedBody? d, body ∈ bodies) :
    FunctionEdits (SparesCode bodies) d file where
  make {low last} hbody p := by
    have hplanned : (if last.lt (.whole low) then (low, .whole low) else (low, last)) ∈ bodies :=
      planned _ (by rw [plannedBody?, hbody]; rfl)
    have make (name : Json) (body : Option (Whole × Bound))
        (hmem : body.getD (low, .whole low) ∈ bodies)
        (hlow : (body.getD (low, .whole low)).1 = low) :
        Runs (Program.createFunction name low body .analysis) p
          (fun _ q => SparesCode bodies p q) fun _ q => SparesCode bodies p q := by
      by_cases hs : p.SpareFor bodies
      · have hfree := hs.free _ hmem
        rw [hlow] at hfree
        exact Runs.mono (Program.createFunction_spareFor hs name low body .analysis hfree)
          (fun _ _ h _ => h) fun _ _ h _ => h
      · exact Runs.of_all (fun _ _ h => absurd h hs) fun _ _ h => absurd h hs
    split at hplanned
    · next hempty =>
        rw [if_pos hempty]
        exact make .null none hplanned rfl
    · next hfull =>
        rw [if_neg hfull]
        exact make d.common.name (some (low, last)) hplanned rfl
  drop _ := .get fun p => Structural.dropStale _ _ _ p
  rename _ := Structural.renameFunction _ _ _
  comment _ := Structural.setFunctionComment _ _
  returns _ _ := Structural.setReturnType _ _
  parameters _ _ := (Program.replaceParameters_sameCode _ _).sparesCode
  lines := .forM fun _ _ => Structural.setComment _ _ _
  inlined := .forM fun _ _ => Structural.setComment _ _ _
  locals _ _ _ _ := (Program.addLocal_sameCode _ _ _ _).sparesCode

/-- The stage of functions makes functions where they are planned. -/
theorem importFunctions_spares {s : Session} (planned : plannedBodies s.document = bodies) :
    Runs importFunctions s (fun _ t => Programs (SparesCode bodies) s t)
      fun _ t => Programs (SparesCode bodies) s t :=
  untyped_staged.importFunctions fun x hx _ =>
    untyped_staged.functionWork <| functionEdits_spares x.2 fun body hbody => by
      rw [← planned]
      exact List.mem_filterMap.mpr ⟨x, hx, hbody⟩

/-- Data placed keeps clear of all code, but not of code to come. -/
theorem globalEdits_spares (v : Variable) : GlobalEdits (SparesCode []) v where
  data type length p := by
    by_cases hs : p.Separate
    · exact Runs.mono (Program.createData_separate hs _ type length true)
        (fun _ _ h _ => ⟨h, by simp⟩) fun _ _ h _ => ⟨h, by simp⟩
    · exact Runs.of_all (fun _ _ h => absurd h.separate hs) fun _ _ h => absurd h.separate hs
  label := Structural.createLabel _ _ _

theorem importGlobals_spares : Preserves (Programs (SparesCode [])) importGlobals :=
  untyped_staged.importGlobals fun v => untyped_staged.placeGlobal (globalEdits_spares v)

/-! ## Whole imports -/

theorem runs_within {action : ImportM α} {i : Importer} {ok : Except Fault α → Importer → Prop}
    {bad : RunFault → Importer → Prop} :
    Runs (within action) i ok bad ↔
      Runs action i.session (fun a t => ok (.ok a) { i with session := t })
        fun e t => ok (.error e) { i with session := t } := by
  rw [within, Runs.bind_iff, Runs.get_iff]
  simp only [Runs]
  rcases action i.session with ⟨_ | a, s⟩
  · exact Iff.rfl
  · exact Iff.rfl

/-- Running a stage leads where the stage leads, if no report changes that. -/
theorem runStage_leads {P : Session → Prop} {isWanted : Bool} {stage : ImportM Unit}
    {i : Importer} (report : ∀ s journal, P s → P { s with journal })
    (leads : isWanted = true → Runs stage i.session (fun _ t => P t) fun _ t => P t)
    (idle : isWanted = false → P i.session) :
    Runs (runStage isWanted stage) i (fun _ j => P j.session) fun _ j => P j.session := by
  cases isWanted with
  | false => exact idle rfl
  | true =>
      simp only [runStage, if_true, Runs.bind_iff, runs_within]
      refine Runs.mono (leads rfl) (fun _ _ h => h) fun e t ht => ?_
      split
      · have after {j : Importer} (h : OnlyReports { i with session := t } j) : P j.session := by
          rw [h.session]
          exact report _ _ ht
        exact Runs.mono (KeepsSession.notify _ _) (fun _ _ => after) fun _ _ => after
      · exact ht

/-- A phase leads where its stage leads, if that holds before it and no report changes it. -/
theorem runPhase_leads {P : Session → Prop} {target : Phase} {isWanted : Bool}
    {stage : ImportM Unit} {i : Importer} (report : ∀ s journal, P s → P { s with journal })
    (leads : ∀ journal, Runs stage { i.session with journal } (fun _ t => P t) fun _ t => P t)
    (hi : P i.session) :
    Runs (runPhase target isWanted stage) i (fun _ j => P j.session) fun _ j => P j.session := by
  have after {j : Importer} (h : OnlyReports i j) : P j.session := by
    rw [h.session]
    exact report _ _ hi
  rw [runPhase, Runs.bind_iff]
  refine Runs.mono (KeepsSession.enterPhase target i) (fun _ j hj => ?_) fun _ _ => after
  refine runStage_leads report (fun _ => ?_) fun _ => after hj
  rw [hj.session]
  exact leads _

/-- A document whose functions are clear of the data there is leaves code and data apart, wherever
its import ends. -/
theorem runStages_separate {i : Importer} {d : Document} (room : Room)
    (h : i.session.program.SpareFor (plannedBodies d)) :
    Runs (runStages room d) i (fun _ j => j.session.program.Separate)
      fun _ j => j.session.program.Separate := by
  let P (s : Session) : Prop := s.document = d ∧ s.program.SpareFor (plannedBodies d)
  have after {s t : Session} (hs : P s) (ht : Frame (fun _ => True) s t) : P t :=
    ⟨ht.document.trans hs.1, ht.programs (E := SparesCode _) hs.2⟩
  have taken : P (sessionOf (room.inside 3) d i.options i.session) := ⟨rfl, h⟩
  rw [runStages, Runs.bind_iff, takeUp, Runs.bind_iff, Runs.modify_iff, Runs.bind_iff, runs_within]
  refine Runs.mono (prepare_quiet.frame _) (fun _ t ht => ?_) fun _ t ht =>
    (after taken ht).2.separate
  have ht := after taken ht
  rw [Runs.pure_iff, Runs.bind_iff, Runs.get_iff, Runs.bind_iff]
  have types (journal : Journal) :
      Runs importTypes { t with journal } (fun _ u => P u) fun _ u => P u :=
    Runs.mono (importTypes_frame (fun _ => trivial) _) (fun _ _ h => after ht { h with })
      fun _ _ h => after ht { h with }
  refine Runs.mono (runPhase_leads (P := P) (fun _ _ h => h) types ht) (fun _ j hj => ?_)
    fun _ _ h => h.2.separate
  have functions (journal : Journal) : Runs importFunctions { j.session with journal }
      (fun _ u => u.program.SpareFor (plannedBodies d)) fun _ u =>
        u.program.SpareFor (plannedBodies d) :=
    Runs.mono (importFunctions_spares (congrArg plannedBodies hj.1)) (fun _ _ h => h hj.2)
      fun _ _ h => h hj.2
  rw [Runs.bind_iff]
  refine Runs.mono (runPhase_leads (fun _ _ h => h) functions hj.2) (fun _ k hk => ?_)
    fun _ _ h => h.separate
  have globals (journal : Journal) : Runs importGlobals { k.session with journal }
      (fun _ u => u.program.SpareFor []) fun _ u => u.program.SpareFor [] :=
    Runs.mono (importGlobals_spares _) (fun _ _ h => h hk.none) fun _ _ h => h hk.none
  rw [Runs.bind_iff]
  refine Runs.mono (runPhase_leads (fun _ _ h => h) globals hk.none) (fun _ l hl => ?_)
    fun _ _ h => h.separate
  exact Runs.mono (KeepsSession.enterPhase .done l) (fun _ _ h => h.program ▸ hl.separate)
    fun _ _ h => h.program ▸ hl.separate

theorem importDocument_separate {i : Importer} {d : Document}
    (h : i.session.program.SpareFor (plannedBodies d)) :
    Runs (importDocument d) i (fun _ j => j.session.program.Separate)
      fun _ j => j.session.program.Separate := by
  rw [importDocument, Runs.bind_iff, Runs.get_iff, importWithin_eq, Runs.bind_iff, Runs.get_iff]
  split
  · have enter {i : Importer} (target : Phase) (hi : i.session.program.SpareFor (plannedBodies d)) :
        Runs (enterPhase target) i (fun _ j => j.session.program.SpareFor (plannedBodies d))
          fun _ j => j.session.program.Separate :=
      Runs.mono (KeepsSession.enterPhase target i) (fun _ _ hj => hj.program ▸ hi)
        fun _ _ hj => hj.program ▸ hi.separate
    rw [Runs.bind_iff]
    refine Runs.mono (enter _ h) (fun _ j hj => ?_) fun _ _ h => h
    rw [Runs.bind_iff]
    exact Runs.mono (enter _ hj) (fun _ _ hk => runStages_separate _ hk) fun _ _ h => h
  · exact runStages_separate _ h

end Import

/-! ## One change after another -/

/-- What adds code or data to a program. -/
inductive Change where
  | createFunction (name : Json) (entry : Whole) (body : Option (Whole × Bound))
      (source : SourceKind)
  | createData (address : Int) (type : TypeId) (length : Int) (clear : Bool)
  /-- A whole import, with any options, and cancelled at any point. -/
  | importDocument (document : Document) (options : Options) (host : Host) (monitor : Monitor)

namespace Change

variable {p : Program}

/-- The program a change leaves behind, whether it succeeds or fails. -/
def make (p : Program) : Change → Program
  | createFunction name entry body source => (Program.createFunction name entry body source p).2
  | createData address type length clear => (Program.createData address type length clear p).2
  | importDocument document options host monitor =>
      (Import.importDocument document (.start p options host monitor)).2.session.program

def makeAll (p : Program) (changes : List Change) : Program := changes.foldl make p

/-- The functions to be made, where there is none yet, are clear of the data that is there. -/
def Fits (p : Program) : Change → Prop
  | createFunction _ entry body _ =>
      p.functions.contains entry.value = true ∨ p.IsFree (body.getD (entry, .whole entry))
  | createData .. => True
  | importDocument document .. => ∀ body ∈ Import.plannedBodies document,
      p.functions.contains body.1.value = true ∨ p.IsFree body

/-- Every change fits the program that those before it leave. -/
def AllFit : Program → List Change → Prop
  | _, [] => True
  | p, change :: rest => change.Fits p ∧ AllFit (make p change) rest

/-- What one change keeps. -/
theorem make_separate (hp : p.Separate) {change : Change} (fits : change.Fits p) :
    (make p change).Separate := by
  cases change with
  | createFunction name entry body source =>
      have hs : Program.SpareFor [] p := ⟨hp, by simp⟩
      exact (Program.createFunction_spareFor hs name entry body source fits).snd.separate
  | createData address type length clear =>
      exact (Program.createData_separate hp address type length clear).snd
  | importDocument document options host monitor =>
      have h := Import.importDocument_separate (i := .start p options host monitor) ⟨hp, fits⟩
      exact h.snd

/-- Code and data stay apart through any changes, as long as no function is made on top of data. -/
theorem makeAll_separate (hp : p.Separate) {changes : List Change} (fits : AllFit p changes) :
    (makeAll p changes).Separate := by
  induction changes generalizing p with
  | nil => exact hp
  | cons change rest ih => exact ih (make_separate hp fits.1) fits.2

/-- A file with a function in the first half of a page, and a number in the second. -/
def pageDocument : Document where
  files :=
    [{ common := { serial := 0 }
       path := .text "a.c"
       relativePath := .text "a.c"
       textAddress := 0
       functions :=
         [{ common := { serial := 1, name := .text "tick" }
            low := .int 256
            high := .int 272
            relativePath := .null
            type :=
              { common := { serial := 2 }, returnType := none, parameters := none,
                modifier := .null, isConstructor := false, vtableIndex := -1 }
            locals := []
            lineNumbers := []
            breadcrumbs := [] }]
       globals :=
         [{ common := { serial := 3, name := .text "ticks" }
            scope := .global
            storage :=
              { kind := .global, globalLocation := .data, globalAddress := 384, register := .null,
                registerClass := .null, dbxRegister := -1, registerIndex := -1,
                isByReference := false, stackOffset := -1 }
            type := .builtIn { serial := 4 } .signed32 }]
       typeNumbers := {} }]
  size := 5

/-- The page, and after that a function past its number. -/
def pageChanges : List Change :=
  [.importDocument pageDocument {} {} {},
    .createFunction (.text "tock") ⟨388, false⟩ none .analysis]

theorem makeAll_separate_page : AllFit {} pageChanges ∧ (makeAll {} pageChanges).Separate := by
  have start : ({} : Program).Separate := nofun
  have data : ((make {} (.importDocument pageDocument {} {} {})).data.entries.map
      fun e => (e.1, e.2.length)) = [(384, 4)] := by decide +kernel
  have fits : AllFit {} pageChanges := by
    refine ⟨fun _ _ => .inr nofun, .inr fun e he address hle hlt hbody => ?_, trivial⟩
    have hmem := List.mem_map_of_mem (f := fun e : Int × DataItem => (e.1, e.2.length)) he
    rw [data, List.mem_singleton, Prod.mk.injEq] at hmem
    simp only [Option.getD_none] at hbody
    omega
  exact ⟨fits, makeAll_separate start fits⟩

/-- A program that has one type, and nothing of that type yet. -/
def wordProgram : Program := { arena := { objects := #[Import.builtInType .signed32] } }

/-- A function is made on top of data. -/
theorem makeAll_overlap :
    ¬ (makeAll wordProgram
      [.createData 256 0 4 true,
       .createFunction (.text "tick") ⟨256, false⟩ none .analysis]).Separate := by
  let p := makeAll wordProgram
    [.createData 256 0 4 true, .createFunction (.text "tick") ⟨256, false⟩ none .analysis]
  have data : (256, { type := 0, length := 4 }) ∈ p.data.entries := by decide +kernel
  have code : ∃ f ∈ p.functions.values, f.contains 256 = true := by decide +kernel
  obtain ⟨f, hf, hcontains⟩ := code
  intro h
  rw [h _ data f hf 256 (by decide) (by decide)] at hcontains
  cases hcontains

end Change

end StabsImport

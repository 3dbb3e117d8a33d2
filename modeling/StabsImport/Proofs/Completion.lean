import StabsImport.Import.Run
import StabsImport.Proofs.Cycles

/-!
# Imports run to their end

What an item of a document cannot do is reported at that item, so that an import of a document with
values of the right kinds, once it has begun, ends with its last phase. That takes stack slots with
a size and the room to resolve the document's types.
-/

namespace StabsImport.Import

open Document (Node SourceFile)

variable {i j : Importer} {s : Session} {d : Document}

/-! ## The course of a run -/

section

variable {α : Type} {ok : α → Importer → Prop} {bad : RunFault → Importer → Prop}

/-- The value of an action that cannot fail is handed on. -/
theorem within_ends {action : ImportM α} {P : α → Session → Prop}
    (h : Runs action i.session P fun _ _ => False) :
    Runs (within action) i
      (fun r j => ∃ a s, r = .ok a ∧ P a s ∧ j = { i with session := s }) bad := by
  rw [within, Runs.bind_iff, Runs.get_iff]
  unfold Runs at h
  rcases hs : action i.session with ⟨_ | a, s⟩
  · rw [hs] at h
    exact h.elim
  · rw [hs] at h
    exact ⟨a, s, rfl, h, rfl⟩

theorem runs_enterPhase {target : Phase} (h : target ∈ i.phase.next)
    {ok : Unit → Importer → Prop} :
    Runs (enterPhase target) i ok bad ↔ ok () { i with phase := target } := by
  have hin : i.phase.next.contains target = true := by simpa using h
  rw [enterPhase, Runs.bind_iff, Runs.get_iff]
  simp only [hin, if_true, Runs.modify_iff]

theorem runs_enterPhase_refused {target : Phase} (h : target ∉ i.phase.next)
    {ok : Unit → Importer → Prop} :
    Runs (enterPhase target) i ok bad ↔ bad (.wrongPhase i.phase target) i := by
  have hout : i.phase.next.contains target = false := by simpa using h
  rw [enterPhase, Runs.bind_iff, Runs.get_iff]
  simp only [hout, Bool.false_eq_true, if_false, Runs.throw_iff]

/-- A stage that cannot fail leaves the session it leads to. -/
theorem runStage_ends {stage : ImportM Unit} {P : Session → Prop} (isWanted : Bool)
    (skip : P i.session) (h : Runs stage i.session (fun _ s => P s) fun _ _ => False) :
    Runs (runStage isWanted stage) i (fun _ j => ∃ s, P s ∧ j = { i with session := s }) bad := by
  cases isWanted with
  | false => exact ⟨i.session, skip, rfl⟩
  | true =>
      simp only [runStage, if_true, Runs.bind_iff]
      refine Runs.mono (within_ends h) ?_ fun _ _ h => h
      rintro _ _ ⟨_, s, rfl, hs, rfl⟩
      exact ⟨s, hs, rfl⟩

end

/-! ## Sessions that lead to an end -/

/-- A session in which every item of a document can be worked on to its end. -/
structure Session.Stands (d : Document) (s : Session) : Prop where
  sound : s.Sound
  document : s.document = d
  aligned : s.program.convention.alignment ≠ 0
  room : s.room.allows (stageNeed d) = true

/-- The stage of such a session, any loop of which may be cut. -/
abbrev Session.stage (s : Session) : Stage where
  document := s.document
  isSet _ := False
  cuts := True
  convention := s.program.convention

namespace Session.Stands

theorem holds (h : s.Stands d) : s.stage.Holds s := ⟨h.sound.ready, rfl⟩

theorem settles (s : Session) : Settles s.stage.document s.stage.isSet s.stage.cuts :=
  settles_of_cuts _ _

theorem after {L : Scope} {t : Session} (h : s.Stands d) (ha : After L s t)
    (hc : t.program.convention = s.program.convention) : t.Stands d where
  sound := ha.sound
  document := ha.document.trans h.document
  aligned := by
    rw [hc]
    exact h.aligned
  room := by
    rw [ha.room]
    exact h.room

/-- What a stage of functions or globals does ends, since the slots of the stack have a size. -/
theorem ends {α : Type} (h : s.Stands d) {m : ImportM α}
    (hm : s.stage.Leads (stageNeed d) m s.stage.Unaligned) :
    Runs m s (fun _ t => t.Stands d) fun _ _ => False :=
  Runs.mono (hm h.holds h.room) (fun _ _ ht => h.after ht.1 ht.2.1) fun _ _ ht => h.aligned ht.2.2.2

theorem allows_fillNeed (h : s.Stands d) : s.room.allows (fillNeed d) = true := by
  have hle := fillNeed_le_itemNeed d
  refine Room.allows_of_le h.room ?_
  unfold stageNeed
  omega

theorem prepare (h : s.Stands d) : Runs prepare s (fun _ t => t.Stands d) fun _ _ => False :=
  h.ends .prepare

theorem importTypes (h : s.Stands d) :
    Runs importTypes s (fun _ t => t.Stands d) fun _ _ => False := by
  have hroom : s.room.allows (fillNeed s.document) = true := by
    rw [h.document]
    exact h.allows_fillNeed
  have hframe : Preserves (Frame fun _ => True) Import.importTypes :=
    importTypes_frame fun _ => trivial
  exact Runs.mono (Runs.and (importTypes_yields h.sound hroom) (hframe s))
    (fun _ _ ht => h.after ht.1.1 ht.2.convention) fun _ _ ht => ht.1.2

theorem importFunctions (h : s.Stands d) :
    Runs importFunctions s (fun _ t => t.Stands d) fun _ _ => False := by
  have hleads := Stage.Leads.importFunctions (g := s.stage) (settles s) h.sound.typed
  refine h.ends ?_
  rw [← h.document]
  exact hleads

theorem importGlobals (h : s.Stands d) :
    Runs importGlobals s (fun _ t => t.Stands d) fun _ _ => False := by
  have hleads : s.stage.Leads _ Import.importGlobals s.stage.Unaligned :=
    Stage.Leads.importGlobals (settles s) h.sound.typed
  refine h.ends ?_
  rw [← h.document]
  exact hleads

end Session.Stands

/-! ## Whole runs -/

/-- An importer about to work on a document that is got already. -/
structure CanFinish (room : Room) (d : Document) (i : Importer) : Prop where
  phase : i.phase = .idle ∨ i.phase = .parsing
  typed : d.WellTyped
  program : i.session.program.Sound
  naming : i.session.program.arena.room = none
  knowsPointerSize : i.session.knowsPointerSize = true
  aligned : i.session.program.convention.alignment ≠ 0
  room : room.allows (3 + stageNeed d) = true

theorem CanFinish.stands {room : Room} (h : CanFinish room d i) :
    (sessionOf (room.inside 3) d i.options i.session).Stands d := by
  have hnew : Session.IsNew { sessionOf none d i.options i.session with room := none } :=
    ⟨h.typed, h.program, h.naming, h.knowsPointerSize, rfl, rfl, rfl, rfl⟩
  constructor
  · exact { hnew.sound with }
  · rfl
  · exact h.aligned
  · exact Room.allows_inside h.room

theorem takeUp_ends {room : Room} (h : CanFinish room d i) :
    Runs (takeUp (room.inside 3) d) i (fun _ j => j.phase = i.phase ∧ j.session.Stands d)
      fun _ _ => False := by
  rw [takeUp, Runs.bind_iff, Runs.modify_iff, Runs.bind_iff]
  refine Runs.mono (within_ends h.stands.prepare) ?_ fun _ _ h => h
  rintro _ _ ⟨_, s, rfl, hs, rfl⟩
  exact ⟨rfl, hs⟩

/-- Goes on to a phase and runs its stage. -/
def runPhase (target : Phase) (isWanted : Bool) (stage : ImportM Unit) : RunM Unit := do
  enterPhase target
  runStage isWanted stage

theorem runPhase_ends {target : Phase} (isWanted : Bool) {stage : ImportM Unit}
    (hp : target ∈ i.phase.next) (hs : i.session.Stands d)
    (h : Runs stage i.session (fun _ t => t.Stands d) fun _ _ => False) :
    Runs (runPhase target isWanted stage) i
      (fun _ j => j.phase = target ∧ j.session.Stands d) fun _ _ => False := by
  rw [runPhase, Runs.bind_iff, runs_enterPhase hp]
  refine Runs.mono (runStage_ends (P := fun t => t.Stands d) isWanted hs h) ?_ fun _ _ h => h
  rintro _ _ ⟨s, hs, rfl⟩
  exact ⟨rfl, hs⟩

/-- The stages of an import, in their order. -/
def runStages (room : Room) (d : Document) : RunM Unit := do
  takeUp (room.inside 3) d
  let o := (← get).options
  runPhase .importingTypes o.importTypes importTypes
  runPhase .importingFunctions o.importFunctions importFunctions
  runPhase .importingGlobals o.importGlobals importGlobals
  enterPhase .done

theorem importWithin_eq (room : Room) (d : Document) :
    importWithin room d = (do
      if (← get).phase = .idle then
        enterPhase .preparingInput
        enterPhase .parsing
      runStages room d) := by
  simp only [importWithin, runStages, runPhase, bind_assoc]

theorem runStages_ends {room : Room} (h : CanFinish room d i) (hp : i.phase = .parsing) :
    Runs (runStages room d) i (fun _ j => j.phase = .done ∧ j.session.Stands d)
      fun _ _ => False := by
  rw [runStages, Runs.bind_iff]
  refine Runs.mono (takeUp_ends h) ?_ fun _ _ h => h
  intro _ j hj
  rw [Runs.bind_iff, Runs.get_iff, Runs.bind_iff]
  have htypes : Phase.importingTypes ∈ j.phase.next := by
    rw [hj.1, hp]
    decide
  refine Runs.mono (runPhase_ends _ htypes hj.2 hj.2.importTypes) ?_ fun _ _ h => h
  intro _ k hk
  have hfunctions : Phase.importingFunctions ∈ k.phase.next := by
    rw [hk.1]
    decide
  rw [Runs.bind_iff]
  refine Runs.mono (runPhase_ends _ hfunctions hk.2 hk.2.importFunctions) ?_ fun _ _ h => h
  intro _ l hl
  have hglobals : Phase.importingGlobals ∈ l.phase.next := by
    rw [hl.1]
    decide
  rw [Runs.bind_iff]
  refine Runs.mono (runPhase_ends _ hglobals hl.2 hl.2.importGlobals) ?_ fun _ _ h => h
  intro _ m hm
  have hdone : Phase.done ∈ m.phase.next := by
    rw [hm.1]
    decide
  rw [runs_enterPhase hdone]
  exact ⟨rfl, hm.2⟩

section

variable {room : Room} {ok : Unit → Importer → Prop} {bad : RunFault → Importer → Prop}

theorem runs_importWithin_of_idle (h : i.phase = .idle) :
    Runs (importWithin room d) i ok bad ↔
      Runs (runStages room d) { i with phase := .parsing } ok bad := by
  rw [importWithin_eq, Runs.bind_iff, Runs.get_iff]
  simp only [h, if_true]
  rw [Runs.bind_iff, runs_enterPhase (by simp [h, Phase.next]), Runs.bind_iff,
    runs_enterPhase (by simp [Phase.next])]

theorem runs_importWithin_of_parsing (h : i.phase = .parsing) :
    Runs (importWithin room d) i ok bad ↔ Runs (runStages room d) i ok bad := by
  rw [importWithin_eq, Runs.bind_iff, Runs.get_iff]
  simp only [h]
  exact Iff.rfl

end

/-- An import that has begun goes through all its phases. -/
theorem importWithin_ends {room : Room} (h : CanFinish room d i) :
    Runs (importWithin room d) i (fun _ j => j.phase = .done ∧ j.session.Stands d)
      fun _ _ => False := by
  rcases h.phase with hp | hp
  · rw [runs_importWithin_of_idle hp]
    exact runStages_ends { h with phase := .inr rfl } rfl
  · rw [runs_importWithin_of_parsing hp]
    exact runStages_ends h hp

theorem importDocument_ends (h : CanFinish i.host.room d i) :
    Runs (importDocument d) i (fun _ j => j.phase = .done ∧ j.session.Stands d)
      fun _ _ => False := by
  rw [importDocument, Runs.bind_iff, Runs.get_iff]
  exact importWithin_ends h

/-! ## Items -/

theorem Session.Stands.reports (h : s.Stands d) : s.room.allows reportingCalls = true := by
  have hdocument := h.document
  subst hdocument
  exact Room.allows_of_le h.allows_fillNeed (reportingCalls_le_fillNeed _)

/-- A session in which every item of the document can be worked on: each ends without a fault, the
entries of the table once the table is there, the functions that have a range. -/
structure ItemsEnd (s : Session) : Prop where
  registered : s.isPrepared = true → ∀ index node, s.document.types[index]? = some node →
    ∃ t, registerEntry index node s = (.ok (), t)
  filled : ∀ index node, s.document.types[index]? = some node →
    ∃ t, fillEntry index node s = (.ok (), t)
  functions : ∀ file ∈ s.document.files, ∀ f ∈ file.functions, isComplete f = true →
    ∃ made t, importFunction f file s = (.ok made, t)
  globals : ∀ file ∈ s.document.files, ∀ v ∈ file.globals,
    ∃ t, placeGlobal v s = (.ok (), t)

theorem Session.Stands.itemsEnd (h : s.Stands d) : ItemsEnd s := by
  have hdocument := h.document
  subst hdocument
  have hreport := h.reports
  constructor
  · intro hp index node hnode
    obtain ⟨_, t, ht, -⟩ := (registerEntry_yields _ 0 h.sound rfl hp hreport hnode).exists_ok
    exact ⟨t, ht⟩
  · intro index node hnode
    obtain ⟨_, t, ht, -⟩ := (fillEntry_yields 0 (settles_of_cuts _ _) h.sound.ready
      h.allows_fillNeed hnode).exists_ok
    exact ⟨t, ht⟩
  · intro file hfile f hf hc
    have hfits : FunctionFits s.stage (stageNeed s.document) f :=
      functionFits h.sound.typed rfl (Nat.le_refl _) hfile hf
    obtain ⟨made, t, ht, -⟩ := Runs.exists_ok (h.ends (importFunction_leads (settles s) hfits hc file))
    exact ⟨made, t, ht⟩
  · intro file hfile v hv
    obtain ⟨hv, hn⟩ := globalFits h.sound.typed hfile hv
    obtain ⟨_, t, ht, -⟩ := Runs.exists_ok (h.ends (placeGlobal_leads (settles s) hv hn))
    exact ⟨t, ht⟩

/-! ## Reports -/

/-- One diagnostic more was reported, and it ends with the fault's message. -/
def Tells (source : String) (e : Fault) (s s' : Session) : Prop :=
  ∃ text, s'.journal = s.journal.push (.diagnostic source text) ∧
    e.message.toList <:+ text.toList

/-- The ways in which the items of an import answer for a fault. -/
inductive IsHandler : {α : Type} → String → (Fault → ImportM α) → Prop
  | fault (source : String) : IsHandler source (reportFault source)
  | base (shell : TypeId) (index : Nat) : IsHandler typesSource (reportBase shell index)
  | field (shell : TypeId) (name : Json) : IsHandler typesSource (reportField shell name)
  | text (source lead : String) :
      IsHandler source fun e => diagnose source (lead ++ e.message)
  | placeholder (lead : String) :
      IsHandler typesSource fun e => do
        diagnose typesSource (lead ++ e.message)
        undefined1

theorem message_suffix_report (e : Fault) : e.message.toList <:+ e.report.toList := by
  unfold Fault.report
  split
  · next h =>
      rw [String.isEmpty_iff.mp h]
      exact List.nil_suffix
  · rw [String.toList_append]
    exact List.suffix_append _ _

theorem runs_diagnose {source message : String} (hr : s.room.allows reportingCalls = true)
    {ok : Unit → Session → Prop} {bad : Fault → Session → Prop} :
    Runs (diagnose source message) s ok bad ↔
      ok () { s with journal := s.journal.push (.diagnostic source message) } := by
  rw [diagnose, Runs.bind_iff, runs_need, if_pos hr, Runs.modify_iff]

theorem suffix_append_message (lead : String) (e : Fault) :
    e.message.toList <:+ (lead ++ e.message).toList := by
  rw [String.toList_append]
  exact List.suffix_append _ _

/-- Whatever the fault, the item's handler reports it. -/
theorem IsHandler.tells {α : Type} {source : String} {handle : Fault → ImportM α}
    (h : IsHandler source handle) (e : Fault) (hs : s.Sound)
    (hr : s.room.allows reportingCalls = true) :
    Runs (handle e) s (fun _ t => Tells source e s t) fun _ _ => False := by
  have named (id : TypeId) : Yields { cuts := True } (typeName id) s _ NoFault := hs.typeName id
  cases h with
  | fault source =>
      rw [reportFault, runs_diagnose hr]
      exact ⟨_, rfl, message_suffix_report e⟩
  | base shell index =>
      rw [reportBase, Runs.bind_iff]
      refine Runs.mono (named shell) ?_ fun _ _ h => h.2
      rintro shown _ ⟨-, rfl, -⟩
      rw [runs_diagnose hr]
      exact ⟨_, rfl, suffix_append_message _ e⟩
  | field shell name =>
      rw [reportField, Runs.bind_iff]
      refine Runs.mono (named shell) ?_ fun _ _ h => h.2
      rintro shown _ ⟨-, rfl, -⟩
      rw [runs_diagnose hr]
      exact ⟨_, rfl, suffix_append_message _ e⟩
  | text source lead =>
      rw [runs_diagnose hr]
      exact ⟨_, rfl, suffix_append_message lead e⟩
  | placeholder lead =>
      rw [Runs.bind_iff, runs_diagnose hr]
      exact ⟨_, rfl, suffix_append_message lead e⟩

/-- A fault that an item's handler answers for goes no further. -/
structure Caught {α : Type} (source : String) (m : ImportM α) (handle : Fault → ImportM α)
    (s : Session) (e : Fault) (t : Session) : Prop where
  refused : e.isRejection = true →
    ∃ a u, onRejection m handle s = (.ok a, u) ∧ Tells source e t u
  typeFault : e.isTypeFault = true →
    ∃ a u, onTypeFault m handle s = (.ok a, u) ∧ Tells source e t u

theorem IsHandler.caught {α : Type} {source : String} {handle : Fault → ImportM α}
    (h : IsHandler source handle) {m : ImportM α} {e : Fault} {t : Session}
    (hm : m s = (.error e, t)) (ht : t.Sound) (hr : t.room.allows reportingCalls = true) :
    Caught source m handle s e t := by
  have tells := h.tells e ht hr
  have hm : Runs m s (fun _ _ => False) fun f u => f = e ∧ u = t := by
    rw [Runs, hm]
    exact ⟨rfl, rfl⟩
  constructor
  · intro he
    refine Runs.exists_ok ?_
    rw [runs_onRejection]
    refine Runs.mono hm (fun _ _ h => h.elim) ?_
    rintro _ _ ⟨rfl, rfl⟩
    rw [if_pos he]
    exact tells
  · intro he
    refine Runs.exists_ok ?_
    rw [runs_onTypeFault]
    refine Runs.mono hm (fun _ _ h => h.elim) ?_
    rintro _ _ ⟨rfl, rfl⟩
    rw [if_pos he]
    exact tells

/-! ## Chains of names -/

/-- A reference to an entry of a chain. -/
def chainReference (k : Nat) : Document.TypeReference := ⟨.text "", 0, some ⟨0, .ofInt k⟩⟩

/-- The entry of a chain that leads to the next. -/
def chainNode (k : Nat) : Node :=
  .typeName { serial := k, name := .text (toString k) } (chainReference (k + 1))

/-- A global whose type is the first entry of a chain. -/
def chainGlobal : Document.Variable where
  common := { serial := 0, name := .text "g" }
  scope := .global
  storage :=
    { kind := .global, globalLocation := .data, globalAddress := 0, register := .null,
      registerClass := .null, dbxRegister := -1, registerIndex := -1, isByReference := false,
      stackOffset := 0 }
  type := .typeName { serial := 0 } (chainReference 0)

/-- The entries of a chain under their own numbers. -/
def chainNumber (k : Nat) : (Int × Int) × Int := ((0, k), k)

/-- So many names, each of which leads to the next, and a global of the first. -/
def chainDocument (n : Nat) : Document where
  types := (List.range n).map chainNode
  files :=
    [{ common := { serial := 0 }, path := .text "a.c", relativePath := .text "a.c"
       textAddress := 0, functions := [], globals := [chainGlobal]
       typeNumbers := ⟨(List.range n).map chainNumber⟩ }]

theorem chainNode_wellTyped (k : Nat) : (chainNode k).WellTyped := by
  have name (text : String) : (Json.text text).IsName := .inr ⟨text, rfl⟩
  exact Node.wellTyped_typeName (name _) (name _)

theorem chainGlobal_wellTyped : Document.WellTypedVariable chainGlobal := by
  have name (text : String) : (Json.text text).IsName := .inr ⟨text, rfl⟩
  exact ⟨name "g", Node.wellTyped_typeName (.inl rfl) (name "")⟩

theorem chainDocument_wellTyped (n : Nat) : (chainDocument n).WellTyped := by
  constructor
  · intro node hnode
    simp only [chainDocument, List.mem_map] at hnode
    obtain ⟨k, -, rfl⟩ := hnode
    exact chainNode_wellTyped k
  · intro file hfile
    simp only [chainDocument, List.mem_singleton] at hfile
    subst hfile
    constructor
    · exact ⟨"a.c", rfl⟩
    · exact ⟨"a.c", rfl⟩
    · simp
    · simpa using chainGlobal_wellTyped

/-! ## The import of a document -/

/-- The import of a document goes through all its phases, and leaves a session in which every item
could be worked on: no item of such a session fails, since whatever a handler answers for is
reported. -/
structure Completes (d : Document) (i : Importer) : Prop where
  done : ∃ j, importDocument d i = (.ok (), j) ∧ j.phase = .done ∧ j.session.Stands d
  items : ∀ s, s.Stands d → ItemsEnd s
  caught : ∀ {α : Type} {source : String} {handle : Fault → ImportM α}, IsHandler source handle →
    ∀ {m : ImportM α} {s t : Session} {e : Fault}, m s = (.error e, t) → t.Stands d →
      Caught source m handle s e t

/-- An import of a document with values of the right kinds ends with its last phase, given stack
slots with a size and room for its types. -/
theorem importDocument_completes (typed : d.WellTyped) {p : Program} (program : p.Sound)
    (naming : p.arena.room = none) (aligned : p.convention.alignment ≠ 0) (o : Options)
    {host : Host} (room : host.room.allows (3 + stageNeed d) = true) (m : Monitor) :
    Completes d (Importer.start p o host m) := by
  constructor
  · let i := Importer.start p o host m
    have hfinish : CanFinish i.host.room d i :=
      ⟨.inl rfl, typed, program, naming, rfl, aligned, room⟩
    obtain ⟨_, j, hj, hdone⟩ := (importDocument_ends hfinish).exists_ok
    exact ⟨j, hj, hdone⟩
  · exact fun s hs => hs.itemsEnd
  · exact fun handler _ _ _ _ hm ht => handler.caught hm ht.sound ht.reports

theorem importDocument_completes_short :
    Completes (chainDocument 2) (Importer.start {} {} { room := .usual } {}) :=
  importDocument_completes (chainDocument_wellTyped 2) Program.sound_empty rfl (by decide) {}
    (by decide +kernel) {}

/-! ## Long chains -/

theorem find_chainNumber {k start count : Nat} (hs : start ≤ k) (hk : k < start + count) :
    Ledger.find ((0 : Int), (k : Int)) ((List.range' start count).map chainNumber) =
      some (k : Int) := by
  induction count generalizing start with
  | zero => omega
  | succ count ih =>
      rw [List.range'_succ, List.map_cons, chainNumber, Ledger.find]
      by_cases heq : start = k
      · subst heq
        simp
      · have hne : Key.same ((0 : Int), (start : Int)) ((0 : Int), (k : Int)) = false := by
          refine decide_eq_false fun h => ?_
          injection h with _ h
          omega
        rw [hne, if_neg (by decide)]
        exact ih (by omega) (by omega)

theorem entryNumbered_chain {n k : Nat} (h : k < n) :
    entryNumbered? (chainDocument n) (chainReference k) = some (k : Int) := by
  have hfind := find_chainNumber (Nat.zero_le k) (by omega : k < 0 + n)
  rw [← List.range_eq_range'] at hfind
  exact hfind

theorem knownEntry_unset (hp : s.isPrepared = true) {k : Nat} (hk : k < s.table.size)
    (hunset : s.typeAt? k = none) {opened : List Nat} (hfree : k ∉ opened) :
    knownEntry? opened k s = (.ok none, s) := by
  have hin : (decide ((k : Int) < 0) || decide ((s.table.size : Int) ≤ k)) = false := by
    simp only [Bool.or_eq_false_iff, decide_eq_false_iff_not]
    omega
  have hnone : s.table[k]? = some none := by
    rw [Array.getElem?_eq_getElem hk, Option.some.injEq]
    simpa [Session.typeAt?, Array.getElem?_eq_getElem hk] using hunset
  refine Runs.eq_ok ?_
  rw [ knownEntry?, Runs.bind_iff]
  refine Runs.of_eq (prepare_of_isPrepared hp) ?_
  rw [Runs.bind_iff, Runs.get_iff]
  have hopen : opened.contains k = false := by simpa using hfree
  simp only [hin, Bool.false_eq_true, if_false, Int.toNat_natCast, hnone, hopen, Runs.pure_iff,
    and_self]

/-- A session over a chain, before any of its names is resolved. -/
structure OverChain (n : Nat) (s : Session) : Prop where
  document : s.document = chainDocument n
  isPrepared : s.isPrepared = true
  size : s.table.size = n
  unset : ∀ k, s.typeAt? k = none

namespace OverChain

variable {n k room : Nat}

theorem inside (h : OverChain n s) (r : Room) : OverChain n { s with room := r } :=
  ⟨h.document, h.isPrepared, h.size, h.unset⟩

theorem lookUp (h : OverChain n s) (hk : k < n) :
    Import.lookUp (chainReference k) s = (.ok (some (k : Int)), s) := by
  have hnumber := entryNumbered_chain hk
  refine Runs.eq_ok ?_
  rw [Import.lookUp, Runs.bind_iff]
  refine Runs.of_eq (prepare_of_isPrepared h.isPrepared) ?_
  rw [Runs.bind_iff, Runs.get_iff, h.document]
  simp [hnumber, entryOf?]

/-- What needs more calls than are left does not begin. -/
theorem inside_tooDeep {α : Type} {calls : Nat} {m : ImportM α} (hroom : s.room = some room)
    (hm : calls ≤ room → Runs m { s with room := some (room - calls) } (fun _ _ => False)
      fun e _ => e = .tooDeep) :
    Runs (Import.inside calls m) s (fun _ _ => False) fun e _ => e = .tooDeep := by
  rw [runs_inside, hroom]
  by_cases hc : calls ≤ room
  · rw [if_pos (by simpa [Room.allows] using hc)]
    exact Runs.mono (hm hc) (fun _ _ h => h) fun _ _ h => h
  · rw [if_neg (by simpa [Room.allows] using hc)]

theorem reference_tooDeep (h : OverChain n s) (hroom : s.room = some room)
    {enter : Int → ImportM TypeId}
    (he : 4 ≤ room → k < n ∧ Runs (enter k) { s with room := some (room - 2) } (fun _ _ => False)
      fun e _ => e = .tooDeep) (c : Document.Common) (hint : Json) :
    Runs (createType enter (.typeName c (chainReference k)) hint) s
      (fun _ _ => False) fun e _ => e = .tooDeep := by
  rw [createType_typeName]
  refine inside_tooDeep hroom fun h2 => ?_
  have hvoid : ¬ (((chainReference k).typeName = .text "void" &&
      (chainReference k).number.isNone) = true) := by simp [chainReference]
  rw [resolveReference, if_neg hvoid, Runs.bind_iff, runs_need]
  by_cases h4 : 4 ≤ room
  · obtain ⟨hk, henter⟩ := he h4
    rw [if_pos (by simp [Room.allows]; omega), Runs.bind_iff]
    exact Runs.of_eq ((h.inside _).lookUp hk) henter
  · rw [if_neg (by simp [Room.allows]; omega)]

end OverChain

/-- In a room with three calls for each name that is left or fewer, a chain is not resolved. -/
theorem typeAtWithin_chain {n : Nat} (hs : OverChain n s) {k left room budget : Nat}
    (hroom : s.room = some room) (hn : k + left = n) (hleft : room ≤ 3 * left)
    (hbudget : left ≤ budget) {opened : List Nat} (hopened : ∀ j ∈ opened, j < k) :
    Runs (typeAtWithin budget opened k) s (fun _ _ => False) fun e _ => e = .tooDeep := by
  induction left generalizing s k room budget opened with
  | zero =>
      have hnone (m : ImportM TypeId) :
          Runs (inside 1 m) s (fun _ _ => False) fun e _ => e = .tooDeep :=
        OverChain.inside_tooDeep hroom fun h => by omega
      cases budget with
      | zero => exact hnone _
      | succ budget => exact hnone _
  | succ left ih =>
      obtain ⟨budget, rfl⟩ : ∃ b, budget = b + 1 := ⟨budget - 1, by omega⟩
      rw [typeAtWithin]
      refine OverChain.inside_tooDeep hroom fun h1 => ?_
      have hs1 := hs.inside (some (room - 1))
      have hk : k < n := by omega
      have hnode : s.document.types[((k : Nat) : Int).toNat]? = some (chainNode k) := by
        simp [hs.document, chainDocument, hk]
      have hfree : k ∉ opened := fun h => Nat.lt_irrefl _ (hopened k h)
      rw [Runs.bind_iff]
      refine Runs.of_eq (knownEntry_unset hs1.isPrepared (by rw [hs1.size]; exact hk) (hs1.unset k)
        hfree) ?_
      rw [Runs.bind_iff, Runs.get_iff]
      simp only [hnode]
      rw [resolveEntry_plain _ _ rfl, Runs.bind_iff, runs_onTypeFault]
      have hnext : Runs (createType (typeAtWithin budget ((k : Int).toNat :: opened)) (chainNode k)
          (entryName (chainNode k) (k : Int).toNat)) { s with room := some (room - 1) }
          (fun _ _ => False) fun e _ => e = .tooDeep := by
        refine hs1.reference_tooDeep rfl (fun h4 => ⟨?_, ?_⟩) _ _
        · omega
        · refine ih (hs1.inside _) rfl (by omega) (by omega) (by omega) ?_
          intro j hj
          rcases List.mem_cons.mp hj with rfl | hj
          · simp
          · have := hopened j hj
            omega
      refine Runs.mono hnext (fun _ _ h => h.elim) ?_
      rintro e t rfl
      exact rfl

theorem prepare_of_new (hp : s.isPrepared = false)
    (hkeys : ∀ node ∈ s.document.types, node.name.isKey = true) :
    prepare s = (.ok (), { s with
      table := Array.replicate s.document.types.length none, isPrepared := true }) := by
  have hany : (s.document.types.any fun node => !node.name.isKey) = false := by
    rw [List.any_eq_false]
    intro node hnode
    simp [hkeys node hnode]
  refine Runs.eq_ok ?_
  rw [prepare, Runs.bind_iff, Runs.get_iff]
  simp only [hp, hany, Bool.false_eq_true, if_false, Runs.set_iff, and_self]

/-- So a global of its type is not placed. -/
theorem importGlobals_chain {n room : Nat} (hs : OverChain n s) (hroom : s.room = some room)
    (hpos : 0 < n) (hn : room ≤ 3 * n + 3) (uncancelled : s.monitor = {}) :
    Runs importGlobals s (fun _ _ => False) fun e _ => e = .tooDeep := by
  have hplace {u : Session} (hu : OverChain n u) (hr : u.room = some room) :
      Runs (placeGlobal chainGlobal) u (fun _ _ => False) fun e _ => e = .tooDeep := by
    rw [placeGlobal, Runs.bind_iff]
    refine Runs.mono (OverChain.inside_tooDeep hr fun _ => ?_) (fun _ _ h => h.elim)
      fun _ _ h => h
    rw [variableTypeOf, variableType, runs_onTypeFault, Runs.bind_iff]
    have htype : Runs (optionalTypeOf (some chainGlobal.type) .null)
        { u with room := some (room - 1) } (fun _ _ => False) fun e _ => e = .tooDeep := by
      refine (hu.inside _).reference_tooDeep rfl (fun _ => ⟨hpos, ?_⟩) { serial := 0 } .null
      rw [typeAt, Runs.bind_iff, Runs.get_iff]
      have hbudget : n ≤ u.document.types.length := by simp [hu.document, chainDocument]
      exact typeAtWithin_chain ((hu.inside _).inside _) rfl (Nat.zero_add n) (by omega) hbudget
        (by simp)
    refine Runs.mono htype (fun _ _ h => h.elim) ?_
    rintro e t rfl
    exact rfl
  have hgoes : isCancelled s = (.ok false, s) := by
    obtain ⟨d, p, j, mo, k, mi, o, ta, ip, ca, st, room⟩ := s
    cases uncancelled
    rfl
  rw [importGlobals, Runs.bind_iff]
  refine Runs.of_eq (prepare_of_isPrepared hs.isPrepared) ?_
  rw [Runs.bind_iff, Runs.get_iff, hs.document]
  show Runs (importGlobalsFrom [chainGlobal]) s _ _
  rw [importGlobalsFrom, Runs.bind_iff]
  refine Runs.of_eq hgoes ?_
  show Runs (placeGlobal chainGlobal >>= fun _ => importGlobalsFrom []) s _ _
  rw [Runs.bind_iff]
  exact Runs.mono (hplace hs hroom) (fun _ _ h => h.elim) fun _ _ h => h

theorem runPhase_skip {target : Phase} (stage : ImportM Unit) (h : target ∈ i.phase.next)
    {ok : Unit → Importer → Prop} {bad : RunFault → Importer → Prop} :
    Runs (runPhase target false stage) i ok bad ↔ ok () { i with phase := target } := by
  rw [runPhase, Runs.bind_iff, runs_enterPhase h]
  rfl

theorem takeUp_chain (n room : Nat) (i : Importer) :
    Runs (takeUp (some room) (chainDocument n)) i
      (fun _ j => (j.phase = i.phase ∧ j.options = i.options ∧
        j.session.monitor = i.session.monitor) ∧ OverChain n j.session ∧
          j.session.room = some room)
      fun _ _ => False := by
  have hkeys (node : Node) (hnode : node ∈ (chainDocument n).types) : node.name.isKey = true :=
    ((chainDocument_wellTyped n).types node hnode).typed.name.isKey
  let s := sessionOf (some room) (chainDocument n) i.options i.session
  have hprepare : prepare s = (.ok (), { s with
      table := Array.replicate s.document.types.length none, isPrepared := true }) :=
    prepare_of_new rfl hkeys
  have hruns : Runs prepare s (fun _ t => OverChain n t ∧ t.room = some room ∧
      t.monitor = i.session.monitor) fun _ _ => False := by
    refine Runs.of_eq hprepare ⟨⟨rfl, rfl, ?_, Session.typeAt?_replicate _ _⟩, rfl, rfl⟩
    simp [s, sessionOf, chainDocument]
  rw [takeUp, Runs.bind_iff, Runs.modify_iff, Runs.bind_iff]
  refine Runs.mono (within_ends hruns) ?_ fun _ _ h => h
  rintro _ _ ⟨_, t, rfl, ⟨hchain, hroom, hmonitor⟩, rfl⟩
  exact ⟨⟨rfl, rfl, hmonitor⟩, hchain, hroom⟩

/-- The import of a chain that is too long for the room breaks off in its last stage. -/
theorem runStages_chain {n room : Nat} (hphase : i.phase = .parsing)
    (htypes : i.options.importTypes = false) (hfunctions : i.options.importFunctions = false)
    (hglobals : i.options.importGlobals = true) (hmonitor : i.session.monitor = {})
    (hpos : 0 < n) (hn : room ≤ 3 * n + 6) :
    Runs (runStages (some room) (chainDocument n)) i (fun _ _ => False)
      fun e j => e = .broken .tooDeep ∧ j.phase = .importingGlobals := by
  rw [runStages, Runs.bind_iff]
  refine Runs.mono (takeUp_chain n (room - 3) i) ?_ fun _ _ h => h.elim
  rintro _ j ⟨⟨hp, ho, hm⟩, hchain, hroom⟩
  have hbreaks := importGlobals_chain hchain hroom hpos (by omega) (hm.trans hmonitor)
  rw [Runs.bind_iff, Runs.get_iff, ho]
  dsimp only
  rw [htypes, hfunctions, hglobals, Runs.bind_iff, runPhase_skip _ (by rw [hp, hphase]; decide),
    Runs.bind_iff, runPhase_skip _ (by simp [Phase.next]), Runs.bind_iff, runPhase, Runs.bind_iff,
    runs_enterPhase (by simp [Phase.next])]
  simp only [runStage, if_true, Runs.bind_iff, within, Runs.get_iff]
  unfold Runs at hbreaks
  rcases hg : importGlobals j.session with ⟨e | _, t⟩
  · rw [hg] at hbreaks
    cases hbreaks
    exact ⟨rfl, rfl⟩
  · rw [hg] at hbreaks
    exact hbreaks.elim

theorem importDocument_chain {n room : Nat} (hpos : 0 < n) (hn : room ≤ 3 * n + 6) {o : Options}
    (htypes : o.importTypes = false) (hfunctions : o.importFunctions = false)
    (hglobals : o.importGlobals = true) {host : Host} (hroom : host.room = some room) :
    ∃ j, importDocument (chainDocument n) (Importer.start {} o host {}) =
      (.error (.broken .tooDeep), j) ∧ j.phase = .importingGlobals := by
  have hbreaks : Runs (importDocument (chainDocument n)) (Importer.start {} o host {})
      (fun _ _ => False) fun e j => e = .broken .tooDeep ∧ j.phase = .importingGlobals := by
    rw [importDocument, Runs.bind_iff, Runs.get_iff, runs_importWithin_of_idle rfl]
    show Runs (runStages host.room _) _ _ _
    rw [hroom]
    exact runStages_chain rfl htypes hfunctions hglobals rfl hpos hn
  obtain ⟨_, j, hj, rfl, hphase⟩ := hbreaks.exists_error
  exact ⟨j, hj, hphase⟩

/-- In the room of an importer that nothing else has called, four hundred names are too many for
the import to get to its end. -/
theorem importDocument_tooDeep :
    (chainDocument 400).WellTyped ∧ ({} : Program).Sound ∧ ({} : Program).arena.room = none ∧
      ({} : Program).convention.alignment ≠ 0 ∧
      ∃ j, importDocument (chainDocument 400)
          (Importer.start {} { importTypes := false, importFunctions := false }
            { room := .usual } {}) = (.error (.broken .tooDeep), j) ∧
        j.phase = .importingGlobals :=
  ⟨chainDocument_wellTyped 400, Program.sound_empty, rfl, by decide,
    importDocument_chain (by decide) (by decide) rfl rfl rfl rfl⟩

end StabsImport.Import

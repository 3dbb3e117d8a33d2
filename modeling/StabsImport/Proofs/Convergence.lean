import StabsImport.Proofs.Completion
import StabsImport.Proofs.Cutoff
import StabsImport.Proofs.Permanence
import StabsImport.Proofs.Reruns
import StabsImport.Proofs.Summaries

/-!
# A second pass over functions and globals

Once the types of a document have been imported its functions and globals may be imported twice: the
second pass leaves a program that is summed up as before, but for the order of the labels at one
address. Main statement: `importItems_converges`.
-/

namespace StabsImport

open Document (FunctionDefinition SourceFile Variable Node)

theorem mapM_congr_left {ε α γ : Type} {f g : α → Except ε γ} {xs : List α}
    (same : ∀ x ∈ xs, f x = g x) : xs.mapM f = xs.mapM g :=
  mapM_congr (List.forall₂_same.mpr fun _ _ => rfl) fun x hx _ _ (hxy : x = _) => hxy ▸ same x hx

/-! ## Summaries that are alike -/

namespace Program

variable {p q : Program}

/-- The labels at each address, the addresses in order. -/
def labelGroups (p : Program) : List (List Json) :=
  (p.symbols.sorted fun a b => leInt a.value b.value).map fun e =>
    (e.2.filter (·.kind == .label)).map (labelJson e.1)

theorem labelsJson_eq (p : Program) : p.labelsJson = .list p.labelGroups.flatten := by
  rw [labelsJson, labelGroups, List.flatMap_def]

/-- A summary with these parts, the labels and the comments being those of the program. -/
def summaryWith (p : Program) (types functions data : Json) : List (String × Json) :=
  [("data_types", types), ("functions", functions), ("labels", .list p.labelGroups.flatten),
    ("comments", p.commentsJson), ("data", data)]

/-- Both programs have a summary, and these differ in the order of labels at one address at most. -/
structure SummedUpAlike (keyText : Json → String) (p q : Program) : Prop where
  fields : ∃ types functions data,
    p.summaryFields keyText = .ok (p.summaryWith types functions data) ∧
      q.summaryFields keyText = .ok (q.summaryWith types functions data)
  labels : List.Forall₂ List.Perm p.labelGroups q.labelGroups
  comments : q.commentsJson = p.commentsJson

def parameterJson (p : Program) (q : Parameter) : Except Fault Json := do
  return .object
    [("name", .text q.name), ("type", ← p.arena.name q.type), ("storage", .text q.storage)]

def localJson (p : Program) (v : LocalVariable) : Except Fault Json := do
  return .object
    [("name", .text v.name), ("type", ← p.arena.name v.type), ("stack_offset", .int v.stackOffset)]

theorem functionJson_eq (p : Program) (f : Function) : p.functionJson f = do
    let returns ← f.returnType.mapM p.arena.name
    let parameters ← f.parameters.mapM p.parameterJson
    let locals ← f.locals.mapM p.localJson
    return .object
      [("name", .text f.name), ("entry", f.entry.toJson),
        ("body", .list [f.body.1.toJson, f.body.2.toJson]), ("comment", f.comment),
        ("return_type", returns.getD .null), ("parameters", .list parameters),
        ("locals", .list locals)] := rfl

theorem functionJson_ok (h : p.arena.Sound) (room : p.arena.room = none) (f : Function) :
    ∃ j, p.functionJson f = .ok j := by
  have named (id : TypeId) : ∃ s, p.arena.name id = .ok s :=
    (h.name_text room id).elim fun _ hs => ⟨_, hs⟩
  have returns : ∃ r, f.returnType.mapM p.arena.name = .ok r := by
    cases f.returnType with
    | none => exact ⟨_, rfl⟩
    | some id =>
        obtain ⟨s, hs⟩ := named id
        exact ⟨some s, by rw [Option.mapM_some, hs]; rfl⟩
  have parameters : ∀ q ∈ f.parameters, ∃ j, p.parameterJson q = .ok j := fun q _ => by
    obtain ⟨s, hs⟩ := named q.type
    exact ⟨_, by rw [parameterJson, hs]; rfl⟩
  have locals : ∀ v ∈ f.locals, ∃ j, p.localJson v = .ok j := fun v _ => by
    obtain ⟨s, hs⟩ := named v.type
    exact ⟨_, by rw [localJson, hs]; rfl⟩
  obtain ⟨r, hr⟩ := returns
  obtain ⟨ps, hps⟩ := exists_mapM_ok parameters
  obtain ⟨ls, hls⟩ := exists_mapM_ok locals
  exact ⟨_, by rw [functionJson_eq, hr, hps, hls]; rfl⟩

theorem dataJson_ok (h : p.arena.Sound) (room : p.arena.room = none) (e : Int × DataItem) :
    ∃ j, p.dataJson e = .ok j := by
  obtain ⟨s, hs⟩ := h.name_text room e.2.type
  exact ⟨_, by rw [dataJson, hs]; rfl⟩

/-- Of its types a function is summed up with the names only. -/
theorem functionJson_retyped {f : Function} {σ : TypeId → TypeId}
    (names : ∀ id ∈ f.types, q.arena.name (σ id) = p.arena.name id) :
    q.functionJson (f.retyped σ) = p.functionJson f := by
  simp only [Function.types, List.forall_mem_append, List.forall_mem_map] at names
  obtain ⟨⟨returns, parameters⟩, locals⟩ := names
  have hreturns : (f.returnType.map σ).mapM q.arena.name = f.returnType.mapM p.arena.name := by
    cases hf : f.returnType with
    | none => rfl
    | some id =>
        rw [Option.map_some, Option.mapM_some, Option.mapM_some, returns id (by simp [hf])]
  have hparameters : (f.parameters.map (·.retyped σ)).mapM q.parameterJson =
      f.parameters.mapM p.parameterJson := by
    rw [List.mapM_map]
    refine mapM_congr_left fun q hq => ?_
    rw [Function.comp, parameterJson, parameterJson, Parameter.retyped, parameters q hq]
  have hlocals : (f.locals.map (·.retyped σ)).mapM q.localJson = f.locals.mapM p.localJson := by
    rw [List.mapM_map]
    refine mapM_congr_left fun w hw => ?_
    rw [Function.comp, localJson, localJson, LocalVariable.retyped, locals w hw]
  rw [functionJson_eq, functionJson_eq, ← hreturns, ← hparameters, ← hlocals]
  rfl

/-- The labels of each address, told by the addresses that have symbols and by what is listed at
each. -/
theorem labelGroups_eq (distinct : p.symbols.Distinct) :
    p.labelGroups = (p.symbols.keys.mergeSort fun a b => leInt a.value b.value).map fun address =>
      (listed (p.symbolsAt address.value)).map fun l =>
        .object [("address", address.toJson), ("name", .text l.1), ("primary", .bool l.2)] := by
  have held : ∀ e ∈ p.symbols.entries, p.symbolsAt e.1.value = e.2 := fun e he => by
    have same : Key.same (Whole.ofInt e.1.value) e.1 = true := decide_eq_true rfl
    rw [symbolsAt, Ledger.get?_of_same _ same, distinct.get?_of_mem he]
    rfl
  rw [Ledger.keys, ← List.map_mergeSort (r := fun e e' => leInt e.1.value e'.1.value) fun _ _ _ _ => rfl,
    List.map_map, labelGroups]
  refine List.map_congr_left fun e he => ?_
  rw [Function.comp, held e (List.mem_mergeSort.mp he), listed, List.map_map]
  rfl

/-- Programs whose parts are summed up in the same way are summed up alike. -/
theorem SummedUpAlike.of_parts {keyText : Json → String} (h : p.arena.Sound)
    (room : p.arena.room = none) (text : p.registry.keys.all isText = true)
    (types : q.typesJson keyText = p.typesJson keyText)
    (functions : (q.functions.sorted leInt).mapM (fun e => q.functionJson e.2) =
      (p.functions.sorted leInt).mapM fun e => p.functionJson e.2)
    (labels : List.Forall₂ List.Perm p.labelGroups q.labelGroups)
    (comments : q.commentsJson = p.commentsJson)
    (data : (q.data.sorted leInt).mapM q.dataJson = (p.data.sorted leInt).mapM p.dataJson) :
    SummedUpAlike keyText p q := by
  obtain ⟨ts, hts⟩ := typesJson_ok text h room keyText
  obtain ⟨fs, hfs⟩ := exists_mapM_ok fun (e : Int × Function)
    (_ : e ∈ p.functions.sorted leInt) => functionJson_ok h room e.2
  obtain ⟨ds, hds⟩ := exists_mapM_ok fun e (_ : e ∈ p.data.sorted leInt) => dataJson_ok h room e
  refine ⟨⟨.list ts, .list fs, .list ds, ?_, ?_⟩, labels, comments⟩
  · rw [summaryFields, hts, functionsJson, hfs, hds, labelsJson_eq]
    rfl
  · rw [summaryFields, types, functionsJson, functions, data, hts, hfs, hds, labelsJson_eq]
    rfl

end Program

namespace Operation

/-- No operation makes, registers or changes a type. -/
theorem perform_sameTypes (p : Program) (o : Operation) : SameTypes p (perform p o) := by
  have keeps : KeepsTypes o.edit := by
    cases o with
    | createFunction name entry body source => exact Program.keepsTypes_createFunction _ _ _ _
    | renameFunction entry name source =>
        exact KeepsTypes.get.bind fun _ => .ite (Program.keepsTypes_renameFunction _ _ _) (.pure _)
    | setFunctionComment entry comment => exact Program.keepsTypes_editFunction _ _
    | removeSymbol address index => exact Program.keepsTypes_removeSymbolAt _ _
    | removeLabel label =>
        refine KeepsTypes.modify fun q => ?_
        dsimp only
        split
        · exact Program.sameTypes_setSymbols q _ _
        · exact .refl q
    | createLabel address name makePrimary =>
        exact (Program.keepsTypes_createLabel _ _ _).bind fun _ => .pure _
    | setComment address kind text => exact Program.keepsTypes_setComment _ _ _
    | createData address type length clear => exact Program.keepsTypes_createData _ _ _ _
  exact (keeps p).snd

end Operation

namespace Import

open Program

variable {d : Document} {pointerSize : Int} {s t u v w t₁ t₂ t₃ t₄ : Session} {p : Program}
  {blocks : List (Int × Int)} {l : List (FunctionDefinition × SourceFile)} {vs : List Variable}

theorem Session.Sound.text (hs : s.Sound) (distinct : s.program.registry.Distinct) :
    s.program.registry.keys.all isText = true := by
  refine List.all_eq_true.mpr fun name hname => ?_
  obtain ⟨e, he, rfl⟩ := List.mem_map.mp hname
  obtain ⟨text, ht⟩ := hs.program.text (distinct.get?_of_mem he)
  rw [ht]
  rfl

/-- Registered types that are kept are summed up as before. -/
theorem Permanent.typesJson (h : Permanent s t) (hs : s.Sound) (ht : t.Sound)
    (distinct : s.program.registry.Distinct) (keyText : Json → String) :
    t.program.typesJson keyText = s.program.typesJson keyText := by
  have text := hs.text distinct
  have kept : Arena.IsMatching s.program.arena t.program.arena
      fun x y => x = y ∧ x < s.program.arena.size :=
    Arena.isMatching_of_kept hs.program.arena fun hid => (h.types hid).1
  have same : ∀ e ∈ s.program.registry.sorted leText,
      t.program.arena.toJson keyText e.2 = s.program.arena.toJson keyText e.2 := fun e he => by
    have hid := hs.program.lt_size (distinct.get?_of_mem (List.mem_mergeSort.mp he))
    exact (kept.toJson_eq hs.program.arena ht.program.arena hs.naming ht.naming keyText
      ⟨rfl, hid⟩).symm
  rw [typesJson_of_text text, typesJson_of_text (h.registry ▸ text), h.registry,
    mapM_congr_left same]

theorem Session.name_alike (v : Session) (id : TypeId) :
    v.program.arena.name (v.alike id) = v.program.arena.name id :=
  congrArg Look.name (v.look_alike id)

/-- Functions are summed up in a session where types have the names they had. -/
theorem functionJson_alike
    (names : ∀ f ∈ p.functions.values, ∀ id ∈ f.types,
      v.program.arena.name id = p.arena.name id) :
    (p.functions.sorted leInt).mapM (fun e => p.functionJson e.2) =
      ((Ledger.mk (v.functionsAlike p)).sorted leInt).mapM fun e => v.program.functionJson e.2 := by
  rw [Session.functionsAlike, Ledger.sorted_map, List.mapM_map]
  refine mapM_congr_left fun e he => ?_
  have held : e.2 ∈ p.functions.values := List.mem_map_of_mem (List.mem_mergeSort.mp he)
  exact (functionJson_retyped fun id hid => (v.name_alike id).trans (names e.2 held id hid)).symm

theorem dataJson_alike
    (names : ∀ e ∈ p.data.entries, v.program.arena.name e.2.type = p.arena.name e.2.type) :
    (p.data.sorted leInt).mapM p.dataJson =
      ((Ledger.mk (p.data.entries.map (itemAlike v))).sorted leInt).mapM v.program.dataJson := by
  have sorted : (Ledger.mk (p.data.entries.map (itemAlike v))).sorted leInt =
      (p.data.sorted leInt).map (itemAlike v) :=
    Ledger.sorted_map p.data leInt fun e => (itemAlike v e).2
  rw [sorted, List.mapM_map]
  refine mapM_congr_left fun e he => ?_
  rw [Function.comp, dataJson, dataJson, itemAlike, v.name_alike,
    names e (List.mem_mergeSort.mp he)]

/-- What the second pass leaves is summed up as what the first left, if the types are. -/
theorem Rerun.summedUpAlike (h : Rerun d pointerSize blocks l vs s t₁ t₂ w t₃ t₄)
    (recalls : Recalls t₂ t₄) (h₂ : t₂.Sound) (held : HoldsTypes t₂.program)
    (distinct : t₂.program.registry.Distinct) {keyText : Json → String}
    (types : t₄.program.typesJson keyText = t₂.program.typesJson keyText) :
    SummedUpAlike keyText t₂.program t₄.program := by
  have names {id : TypeId} (hid : id < t₂.program.arena.size) :
      t₄.program.arena.name id = t₂.program.arena.name id := congrArg Look.name (recalls.look hid)
  refine .of_parts h₂.program.arena h₂.naming (h₂.text distinct) types ?_ ?_ ?_ ?_
  · rw [functionJson_alike (v := t₄) fun _ _ _ _ => rfl, h.functions recalls]
    exact (functionJson_alike fun f hf id hid => names (held.functions f hf id hid)).symm
  · rw [labelGroups_eq h.first.consistent.symbols.distinct,
      labelGroups_eq h.second.consistent.symbols.distinct, h.keys recalls]
    refine List.forall₂_map_left_iff.mpr (List.forall₂_map_right_iff.mpr ?_)
    exact List.forall₂_same.mpr fun address _ => ((h.listed recalls address.value).symm).map _
  · rw [commentsJson, commentsJson, h.comments]
  · rw [dataJson_alike (v := t₄) fun _ _ => rfl, h.data recalls]
    exact (dataJson_alike fun e he => names (held.data e he)).symm

/-! ## Passes -/

/-- The functions of the document, and then its globals. -/
def importItems : ImportM Unit := do
  importFunctions
  importGlobals

/-- A stage, if it is wanted. -/
def stageIf (wanted : Bool) (stage : ImportM Unit) : ImportM Unit := if wanted then stage else pure ()

/-- The functions of the document and then its globals, as far as they are wanted. -/
def importWanted (o : Options) : ImportM Unit := do
  stageIf o.importFunctions importFunctions
  stageIf o.importGlobals importGlobals

theorem importWanted_default : importWanted {} = importItems := rfl

def wantedDefinitions (o : Options) (d : Document) : List (FunctionDefinition × SourceFile) :=
  if o.importFunctions then definitions d else []

def wantedGlobals (o : Options) (d : Document) : List Variable :=
  if o.importGlobals then addressed d.globals else []

section

variable {α : Type} {loop : List α → ImportM Unit} {item : α → ImportM Unit}

/-- Work on one item after the other takes up none if it is cancelled already. -/
theorem loop_of_cancelled (nil : loop [] = pure ())
    (step : ∀ a rest, loop (a :: rest) = do
      if ← isCancelled then return
      item a
      loop rest)
    (cancelled : s.monitor.isCancelled = true) (items : List α) : loop items s = (.ok (), s) := by
  have found : s.monitor.check = (true, s.monitor) := by rw [Monitor.check, if_pos cancelled]
  cases items with
  | nil =>
      rw [nil]
      rfl
  | cons a rest =>
      rw [step, Runs.bind_apply, isCancelled_eq, found]
      rfl

end

theorem importFunctions_of_cancelled (prepared : s.isPrepared = true)
    (cancelled : s.monitor.isCancelled = true) : importFunctions s = (.ok (), s) := by
  rw [importFunctions, Runs.bind_apply, prepare_of_isPrepared prepared]
  exact loop_of_cancelled rfl importFunctionsFrom_step cancelled (definitions s.document)

theorem importGlobals_of_cancelled (prepared : s.isPrepared = true)
    (cancelled : s.monitor.isCancelled = true) : importGlobals s = (.ok (), s) := by
  rw [importGlobals, Runs.bind_apply, prepare_of_isPrepared prepared]
  exact loop_of_cancelled rfl importGlobalsFrom_step cancelled s.document.globals

theorem importWanted_of_cancelled (o : Options) (prepared : s.isPrepared = true)
    (cancelled : s.monitor.isCancelled = true) : importWanted o s = (.ok (), s) := by
  have idle {stage : ImportM Unit} (h : stage s = (.ok (), s)) (wanted : Bool) :
      stageIf wanted stage s = (.ok (), s) := by
    cases wanted with
    | false => rfl
    | true => exact h
  rw [importWanted, Runs.bind_apply, idle (importFunctions_of_cancelled prepared cancelled)]
  exact idle (importGlobals_of_cancelled prepared cancelled) _

theorem isDefinition_of_mem (typed : d.WellTyped) {x : FunctionDefinition × SourceFile}
    (hx : x ∈ definitions d) : IsDefinition d x.1 := by
  obtain ⟨file, hfile, hx⟩ := List.mem_flatMap.mp hx
  obtain ⟨f, hf, rfl⟩ := List.mem_map.mp hx
  have wanted {n : Node} (hn : n ∈ Node.functionType f.type :: f.locals.map (·.type)) :
      n ∈ typeNodes d :=
    List.mem_append_right _ (List.mem_flatMap.mpr
      ⟨file, hfile, List.mem_append_left _ (List.mem_flatMap.mpr ⟨f, hf, hn⟩)⟩)
  refine ⟨(typed.files file hfile).functions f hf, fun n hn => ?_, fun v hv => ?_⟩
  · exact ⟨_, wanted List.mem_cons_self, .part hn .self⟩
  · exact ⟨_, wanted (List.mem_cons_of_mem _ (List.mem_map_of_mem hv)), .self⟩

theorem wellTyped_of_mem_globals (typed : d.WellTyped) {v : Variable} (hv : v ∈ d.globals) :
    v.type.WellTyped ∧ d.Holds v.type := by
  obtain ⟨file, hfile, hv⟩ := List.mem_flatMap.mp hv
  refine ⟨((typed.files file hfile).globals v hv).2, v.type, ?_, .self⟩
  exact List.mem_append_right _ (List.mem_flatMap.mpr
    ⟨file, hfile, List.mem_append_right _ (List.mem_map_of_mem hv)⟩)

section

variable (numbered : d.IsNumbered)

include numbered

theorem importFunctions_works (hs : s.Imported d pointerSize) (hc : s.program.Consistent blocks)
    (apart : (definitions d).Pairwise Apart)
    (drafted : ∀ x ∈ definitions d, ∀ {entry f}, StartsAt x.1 entry →
      s.program.function? entry = some f → Drafted pointerSize x.1 f) :
    Works d pointerSize importFunctions s
      (fun _ t => t.program.Consistent blocks ∧ (t.monitor.isCancelled = false →
        Round d pointerSize blocks (definitions d) s t ∧
          Answered ((definitions d).flatMap (asked t.program)) s t)) AnyFault := by
  have typed : d.WellTyped := hs.document ▸ hs.sound.typed
  rw [importFunctions, Works, Runs.bind_iff]
  refine Runs.of_eq (prepare_of_isPrepared hs.listed.1) ?_
  rw [Runs.bind_iff, Runs.get_iff, hs.document]
  exact importFunctionsFrom_works numbered hs hc (fun _ => isDefinition_of_mem typed) apart drafted

theorem importGlobals_works (hs : s.Imported d pointerSize) (hc : s.program.Consistent blocks) :
    Works d pointerSize importGlobals s
      (fun _ t => t.program.Consistent blocks ∧ (t.monitor.isCancelled = false →
        GlobalRound d pointerSize blocks (addressed d.globals) s t ∧
          Answered ((addressed d.globals).map askOf) s t)) AnyFault := by
  have typed : d.WellTyped := hs.document ▸ hs.sound.typed
  rw [importGlobals, Works, Runs.bind_iff]
  refine Runs.of_eq (prepare_of_isPrepared hs.listed.1) ?_
  rw [Runs.bind_iff, Runs.get_iff, hs.document]
  exact importGlobalsFrom_works numbered hs hc fun _ => wellTyped_of_mem_globals typed

/-- A pass that is not cancelled is a round over the definitions and one over the globals, as far as
these are wanted. -/
theorem importWanted_works (o : Options) (hs : s.Imported d pointerSize)
    (hc : s.program.Consistent blocks) (apart : (definitions d).Pairwise Apart)
    (drafted : ∀ x ∈ wantedDefinitions o d, ∀ {entry f}, StartsAt x.1 entry →
      s.program.function? entry = some f → Drafted pointerSize x.1 f) :
    Works d pointerSize (importWanted o) s
      (fun _ u => u.monitor.isCancelled = false → ∃ t,
        Pass d pointerSize blocks (wantedDefinitions o d) (wantedGlobals o d) s t u) AnyFault := by
  have functions : Works d pointerSize (stageIf o.importFunctions importFunctions) s
      (fun _ t => t.program.Consistent blocks ∧ (t.monitor.isCancelled = false →
        Round d pointerSize blocks (wantedDefinitions o d) s t ∧
          Answered ((wantedDefinitions o d).flatMap (asked t.program)) s t)) AnyFault := by
    unfold wantedDefinitions stageIf at *
    split
    · next wanted =>
        rw [if_pos wanted] at drafted
        exact importFunctions_works numbered hs hc apart drafted
    · exact Works.pure hs ⟨hc, fun _ => ⟨.done s, .done (Stepwise.refl s)⟩⟩
  refine Works.bind functions fun _ t ht _ hround => ?_
  obtain ⟨consistent, round⟩ := hround
  have globals : Works d pointerSize (stageIf o.importGlobals importGlobals) t
      (fun _ u => (u.program.Consistent blocks ∧ (u.monitor.isCancelled = false →
        GlobalRound d pointerSize blocks (wantedGlobals o d) t u ∧
          Answered ((wantedGlobals o d).map askOf) t u)) ∧
            (t.monitor.isCancelled = true → u = t)) AnyFault := by
    unfold wantedGlobals stageIf
    split
    · have idle : Runs importGlobals t (fun _ u => t.monitor.isCancelled = true → u = t)
          fun _ _ => True := by
        by_cases cancelled : t.monitor.isCancelled = true
        · exact Runs.of_eq (importGlobals_of_cancelled ht.listed.1 cancelled) fun _ => rfl
        · exact Runs.of_all (fun _ _ h => absurd h cancelled) fun _ _ => trivial
      exact ((importGlobals_works numbered ht consistent).and idle).mono (fun _ _ _ _ h => h)
        fun _ _ _ _ h => h.1
    · exact Works.pure ht ⟨⟨consistent, fun _ =>
        ⟨.done (.refl _) (.refl t), .done (Stepwise.refl t)⟩⟩, fun _ => rfl⟩
  refine globals.mono (fun _ u _ _ hu goes => ?_) fun _ _ _ _ h => h
  obtain ⟨⟨consistent', globals⟩, stays⟩ := hu
  have uncancelled : t.monitor.isCancelled = false := by
    cases cancelled : t.monitor.isCancelled with
    | false => rfl
    | true =>
        rw [stays cancelled, cancelled] at goes
        cases goes
  obtain ⟨round, answered⟩ := round uncancelled
  obtain ⟨globals, answered'⟩ := globals goes
  exact ⟨t, round, globals, ht.sound, consistent, consistent', answered.append answered'⟩

end

/-! ## Cancellation -/

/-- It is one session, and this is its monitor. -/
structure Session.Watched (m : Monitor) (s s' : Session) : Prop where
  same : s' = s
  monitor : s.monitor = m

namespace Session.Watched

variable {m : Monitor} {s' : Session}

theorem reads (h : Session.Watched m s s') : s.Reads s' := by
  obtain ⟨rfl, -⟩ := h
  exact ⟨rfl, rfl, rfl, rfl, rfl, rfl, rfl, rfl⟩

theorem change (h : Session.Watched m s s') {f : Session → Session}
    (kept : (f s).monitor = s.monitor) : Session.Watched m (f s) (f s') :=
  ⟨congrArg f h.same, kept.trans h.monitor⟩

end Session.Watched

instance {m : Monitor} : Lockstep (Session.Watched m) where
  reads := Session.Watched.reads
  edits h e _ := h.change (f := fun s => { s with program := (e s.program).2 }) rfl
  caches h cache := h.change (f := fun s => { s with cache }) rfl
  tables h table := h.change (f := fun s => { s with table }) rfl
  prepares h := h.change (f := fun s => { s with isPrepared := true }) rfl
  rooms h room := h.change (f := fun s => { s with room }) rfl
  reports h notice := h.change (f := fun s => { s with journal := s.journal.push notice }) rfl
  counts h f _ := h.change (f := fun s => { s with stats := f s.stats }) rfl

theorem edit_watched {α : Type} {m : Monitor} (e : Edit α) :
    Tracks (Session.Watched m) (edit e) := fun s s' h =>
  ⟨by rw [h.same], h.change (f := fun t => (edit e t).2) rfl⟩

theorem count_watched {m : Monitor} (f : Stats → Stats) : Tracks (Session.Watched m) (count f) :=
  .modify fun h => h.change (f := fun t => { t with stats := f t.stats }) rfl

section

variable {m : Monitor} (flag : m.remaining = none)

include flag

/-- A monitor that is but a flag is left as it is by a check. -/
theorem isCancelled_watched : Tracks (Session.Watched m) isCancelled := fun s s' h => by
  obtain ⟨rfl, hs⟩ := h
  refine ⟨rfl, rfl, ?_⟩
  rw [isCancelled_eq, hs, Monitor.check, flag]
  split <;> rfl

theorem importWanted_watched (o : Options) : Tracks (Session.Watched m) (importWanted o) := by
  have checked : Tracks (Session.Watched m) isCancelled := isCancelled_watched flag
  have wanted {b : Bool} {stage : ImportM Unit} (h : Tracks (Session.Watched m) stage) :
      Tracks (Session.Watched m) (stageIf b stage) := by
    cases b with
    | false => exact .pure _
    | true => exact h
  have functions : Tracks (Session.Watched m) importFunctions :=
    prepare_tracks.bind fun _ => .getting (fun h => by rw [h.same]) fun _ =>
      importFunctionsFrom_tracks checked fun x _ =>
        .of_all x (fun h => by rw [h.same]) (fun h => by rw [h.same]) edit_watched count_watched
  have globals : Tracks (Session.Watched m) importGlobals :=
    prepare_tracks.bind fun _ => .getting (fun h => by rw [h.same]) fun _ =>
      importGlobalsFrom_tracks checked _
  exact (wanted functions).bind fun _ => wanted globals

end

theorem importItems_monitor (flag : s.monitor.remaining = none) :
    (importItems s).2.monitor = s.monitor :=
  (importWanted_watched flag {} s s ⟨rfl, rfl⟩).2.monitor

/-! ## Sessions whose types were imported -/

theorem wellTyped_of_holds (typed : d.WellTyped) {n : Node} (held : d.Holds n) : n.WellTyped := by
  obtain ⟨root, hroot, within⟩ := held
  have wanted : root.WellTyped := by
    rcases List.mem_append.mp hroot with h | h
    · exact typed.types root h
    · obtain ⟨file, hfile, h⟩ := List.mem_flatMap.mp h
      rcases List.mem_append.mp h with h | h
      · obtain ⟨f, hf, h⟩ := List.mem_flatMap.mp h
        have function := (typed.files file hfile).functions f hf
        rcases List.mem_cons.mp h with rfl | h
        · exact function.type
        · obtain ⟨v, hv, rfl⟩ := List.mem_map.mp h
          exact (function.locals v hv).2
      · obtain ⟨v, hv, rfl⟩ := List.mem_map.mp h
        exact ((typed.files file hfile).globals v hv).2
  clear hroot
  induction within with
  | self => exact wanted
  | part hk _ ih => exact ih (wanted.part hk)

/-- What may be done with a session and leaves all but types alone: types are asked for, and the work
may be cancelled. -/
inductive TypesAsked (s : Session) : Session → Prop where
  | none : TypesAsked s s
  | types {t : Session} (h : TypesAsked s t) : TypesAsked s (importTypes t).2
  | entry {t : Session} (h : TypesAsked s t) (index : Int) : TypesAsked s (typeAt index t).2
  | node {t : Session} (h : TypesAsked s t) {n : Node} (held : t.document.Holds n) {hint : Json}
      (hh : hint.IsName) : TypesAsked s (typeOf n hint t).2
  | variable_ {t : Session} (h : TypesAsked s t) {n : Node} (held : t.document.Holds n) :
      TypesAsked s (variableTypeOf (some n) t).2
  | monitor {t : Session} (h : TypesAsked s t) (m : Monitor) : TypesAsked s { t with monitor := m }

namespace TypesAsked

theorem frame (h : TypesAsked s t) : Frame (fun _ => True) s t := by
  have guarded {t u : Session} (h : GuardedFrame (fun _ => True) t u) : Frame (fun _ => True) t u :=
    h (.inl fun _ => trivial)
  induction h with
  | none => exact .refl s
  | types _ ih => exact ih.trans ((importTypes_frame fun _ => trivial).apply _)
  | entry _ index ih => exact ih.trans (guarded ((typeAt_frame _ index).apply _))
  | node _ _ _ ih => exact ih.trans (guarded ((typeOf_frame _ _).apply _))
  | variable_ _ _ ih => exact ih.trans (guarded ((variableTypeOf_frame _).apply _))
  | monitor _ m ih => exact ih.trans { Frame.refl _ with }

theorem reached (h : TypesAsked s t) (hs : Reached s) : Reached t := by
  induction h with
  | none => exact hs
  | types _ ih => exact ih.types
  | entry _ index ih => exact ih.entry index
  | node _ held hh ih => exact ih.node (wellTyped_of_holds ih.sound.1.typed held) hh
  | variable_ _ held ih => exact ih.variable_ (wellTyped_of_holds ih.sound.1.typed held)
  | monitor _ m ih => exact ih.monitor m

theorem unspoilt (h : TypesAsked s t) (numbered : s.document.IsNumbered)
    (hs : s.Unspoilt s.document pointerSize) : t.Unspoilt s.document pointerSize := by
  have kept {t u : Session} (ht : t.document = s.document)
      (h : Over s.document (StaysUnspoilt s.document pointerSize) t u)
      (hu : t.Unspoilt s.document pointerSize) : u.Unspoilt s.document pointerSize := (h ht).2 hu
  induction h with
  | none => exact hs
  | types h ih => exact kept h.frame.document ((importTypes_staysUnspoilt numbered).apply _) ih
  | entry h index ih =>
      have admits : ∀ n ∈ s.document.types, Admits (StaysUnspoilt s.document pointerSize)
          (fun σ => ¬ IsBarren s.document pointerSize σ) n :=
        fun _ hn => admits_of_holds numbered (Document.holds_of_mem_types hn)
      exact kept h.frame.document ((typeAt_accrues admits index).apply _) ih
  | node h held _ ih =>
      exact kept h.frame.document
        ((typeOf_staysUnspoilt numbered (h.frame.document ▸ held) _).apply _) ih
  | variable_ h held ih =>
      exact kept h.frame.document
        ((variableTypeOf_staysUnspoilt numbered (h.frame.document ▸ held)).apply _) ih
  | monitor _ m ih => exact ⟨ih.pointers, ih.counts, ih.barren⟩

end TypesAsked

theorem Session.IsListed.framed {may : TypeId → Prop} (h : s.IsListed) (hf : Frame may s t) :
    t.IsListed := by
  refine ⟨hf.prepared h.1, fun k hk => hf.entry h.1 k (h.2 k ?_)⟩
  rwa [hf.document] at hk

/-- A session over a document and on a program where its functions and globals may be imported again
and again. The program is as edits make it: its tables are in step, the types of its functions and
data are there, and no two are registered under one name. -/
structure Session.IsRepeatable (blocks : List (Int × Int)) (s : Session) : Prop extends s.IsNew where
  numbered : s.document.IsNumbered
  consistent : s.program.Consistent blocks
  types : HoldsTypes s.program
  distinct : s.program.registry.Distinct
  aligned : s.program.convention.alignment ≠ 0
  /-- No two definitions start at one address. -/
  apart : (definitions s.document).Pairwise Apart
  /-- No function starts where a definition does. -/
  free : ∀ x ∈ definitions s.document, ∀ entry, StartsAt x.1 entry →
    s.program.function? entry = none

/-- Once the types were imported. -/
theorem Session.IsNew.imported (h : s.IsNew) (numbered : s.document.IsNumbered)
    (before : TypesAsked s t) (uncancelled : (importTypes t).2.monitor.isCancelled = false)
    (after : TypesAsked (importTypes t).2 u) :
    u.Imported s.document s.program.pointerSize ∧ Frame (fun _ => True) s u := by
  have reached : Reached t := before.reached (.new h)
  have frame := before.types.frame
  have unspoilt := before.types.unspoilt numbered (h.unspoilt s.document)
  obtain ⟨sound, room⟩ := (after.reached reached.types).sound
  refine ⟨⟨sound, after.frame.document.trans frame.document, room, ?_, ?_⟩, frame.trans after.frame⟩
  · exact (importTypes_listed reached uncancelled).framed after.frame
  · rw [← frame.document] at unspoilt ⊢
    refine after.unspoilt ?_ unspoilt
    rw [frame.document]
    exact numbered

theorem HoldsTypes.framed {may : TypeId → Prop} (h : HoldsTypes s.program) (hf : Frame may s t) :
    HoldsTypes t.program := by
  have same : SameTables s.program t.program := hf.programs (E := SameTables)
  constructor
  · rw [same.functions]
    exact fun f hf' id hid => Nat.lt_of_lt_of_le (h.functions f hf' id hid) hf.size_le
  · rw [same.data]
    exact fun e he => Nat.lt_of_lt_of_le (h.data e he) hf.size_le

/-- A pass on a session whose types were imported ends, and what it leaves of them is permanent. -/
theorem Session.Imported.importWanted_ends (hs : s.Imported d pointerSize)
    (aligned : s.program.convention.alignment ≠ 0) (o : Options) :
    ∃ t, importWanted o s = (.ok (), t) ∧ Permanent s t := by
  have stands : s.Stands d := ⟨hs.sound, hs.document, aligned, Room.allows_of_eq_none hs.room _⟩
  have made (call : Call) {t : Session} (ht : t.Stands d) {stage : ImportM Unit}
      (ends : Runs stage t (fun _ u => u.Stands d) fun _ _ => False)
      (called : (call.make t) = (stage t).2) (wanted : Bool) :
      ∃ u, stageIf wanted stage t = (.ok (), u) ∧ u.Stands d ∧
        u = Call.makeAll t (if wanted then [call] else []) := by
    cases wanted with
    | false => exact ⟨t, rfl, ht, rfl⟩
    | true =>
        obtain ⟨⟨⟩, u, hu, hstands⟩ := ends.exists_ok
        refine ⟨u, hu, hstands, ?_⟩
        show u = call.make t
        rw [called, hu]
  obtain ⟨t, ht, stands_t, called⟩ := made .functions stands stands.importFunctions rfl
    o.importFunctions
  obtain ⟨u, hu, -, called'⟩ := made .globals stands_t stands_t.importGlobals rfl o.importGlobals
  have typed : ∀ call ∈ (if o.importFunctions then [Call.functions] else []) ++
      (if o.importGlobals then [Call.globals] else []), call.WellTyped := by
    intro call hcall
    rcases List.mem_append.mp hcall with h | h <;> split at h <;> simp_all [Call.WellTyped]
  have permanent := makeAll_permanent hs.sound hs.room hs.listed typed
  rw [Call.makeAll, List.foldl_append, ← Call.makeAll, ← Call.makeAll, ← called, ← called']
    at permanent
  refine ⟨u, ?_, permanent⟩
  rw [importWanted, Runs.bind_apply, ht]
  exact hu

/-- Once the types of a document have been imported, and that was not cancelled, its functions and
globals may be imported twice: both passes end, and what the second leaves is summed up as what the
first left, but for the order of the labels at one address. The work may be cancelled at any time by
the flag of its monitor. A monitor that cancels by itself must not begin to in the second pass. -/
theorem importItems_converges (h : s.IsRepeatable blocks) (before : TypesAsked s t)
    (uncancelled : (importTypes t).2.monitor.isCancelled = false)
    (after : TypesAsked (importTypes t).2 u)
    (steady : u.monitor.remaining = none ∨
      (importItems (importItems u).2).2.monitor.isCancelled = (importItems u).2.monitor.isCancelled) :
    ∃ first second, importItems u = (.ok (), first) ∧ importItems first = (.ok (), second) ∧
      ∀ keyText, SummedUpAlike keyText first.program second.program := by
  obtain ⟨imported, frame⟩ := h.toIsNew.imported h.numbered before uncancelled after
  have same : SameTables s.program u.program := frame.programs (E := SameTables)
  have aligned : u.program.convention.alignment ≠ 0 := frame.convention ▸ h.aligned
  have consistent : u.program.Consistent blocks :=
    same.consistent (by rw [frame.program]) h.consistent
  obtain ⟨first, (hfirst : importItems u = _), permanent₁⟩ := imported.importWanted_ends aligned {}
  have pass₁ := importWanted_works h.numbered {} imported consistent h.apart
      fun x hx _ _ starts hf => by
    rw [same.function?, h.free x hx _ starts] at hf
    cases hf
  rw [Works, Runs, importWanted_default, hfirst] at pass₁
  obtain ⟨imported₁, up₁, passed₁⟩ := pass₁
  obtain ⟨second, (hsecond : importItems first = _), permanent₂⟩ :=
    imported₁.importWanted_ends (up₁.convention ▸ aligned) {}
  refine ⟨first, second, hfirst, hsecond, fun keyText => ?_⟩
  have distinct₁ : first.program.registry.Distinct :=
    permanent₁.registry ▸ frame.distinct h.distinct
  cases cancelled : first.monitor.isCancelled with
  | true =>
      have idle := importWanted_of_cancelled {} imported₁.listed.1 cancelled
      obtain rfl : second = first := congrArg Prod.snd (hsecond.symm.trans idle)
      exact .of_parts imported₁.sound.program.arena imported₁.sound.naming
        (imported₁.sound.text distinct₁) rfl rfl (List.forall₂_same.mpr fun _ _ => .refl _) rfl rfl
  | false =>
      have goes : second.monitor.isCancelled = false := by
        rw [hfirst, hsecond] at steady
        rcases steady with flag | steady
        · have kept₁ := importItems_monitor flag
          rw [hfirst] at kept₁
          have kept₂ := importItems_monitor (s := first) (kept₁ ▸ flag)
          rw [hsecond] at kept₂
          rw [kept₂, cancelled]
        · exact steady.trans cancelled
      obtain ⟨t₁, made₁⟩ := passed₁ cancelled
      have inPlace := made₁.inPlace h.apart
      have pass₂ := importWanted_works h.numbered {} imported₁ made₁.consistent h.apart
        fun x hx _ _ starts hf =>
          (inPlace x hx).drafted starts hf imported₁.unspoilt.pointers
      rw [Works, Runs, importWanted_default, hsecond] at pass₂
      obtain ⟨imported₂, up₂, passed₂⟩ := pass₂
      obtain ⟨t₃, made₂⟩ := passed₂ goes
      have rerun : Rerun s.document s.program.pointerSize blocks (definitions s.document)
          (addressed s.document.globals) u t₁ first first t₃ second :=
        ⟨h.apart, made₁, made₂, .refl _, rfl, rfl, rfl⟩
      exact rerun.summedUpAlike (up₂.recalls imported₁.sound) imported₁.sound
        (made₁.holdsTypes (h.types.framed frame)) distinct₁
        (permanent₂.typesJson imported₁.sound imported₂.sound distinct₁ keyText)

/-- A variable of a type that the table has under this name. -/
def namedVariable (serial : Nat) (name type : String) (kind : Document.StorageKind) (place : Int) : Variable :=
  { chainGlobal with
    common := { serial, name := .text name }
    storage := { chainGlobal.storage with kind, globalAddress := place, stackOffset := place }
    type := .typeName { serial := serial + 1 } ⟨.text type, -1, none⟩ }

/-- A function with a parameter, two locals at one place of the stack, and a line number. -/
def namedFunction (serial : Nat) (name : String) (low high : Int) : FunctionDefinition where
  common := { serial, name := .text name }
  low := .int low
  high := .int high
  relativePath := .null
  type :=
    { common := { serial := serial + 1 }
      returnType := some (.typeName { serial := serial + 2 } ⟨.text "bp", -1, none⟩)
      parameters := some [namedVariable (serial + 3) "p" "a" .stack 8]
      modifier := .null
      isConstructor := false
      vtableIndex := -1 }
  locals := [namedVariable (serial + 5) "v" "b" .stack (-4), namedVariable (serial + 7) "w" "a" .stack (-4)]
  lineNumbers := [⟨low, 7⟩]
  breadcrumbs := []

/-- Two functions, and globals that reach into each other or lie on a function. -/
def steppingDocument : Document where
  types := mutualDocument.types
  files :=
    [{ common := { serial := 7 }
       path := .text "a.c"
       relativePath := .text "a.c"
       textAddress := 0
       functions := [namedFunction 10 "tick" 256 272, namedFunction 20 "tock" 512 500]
       globals :=
         [namedVariable 30 "g" "a" .global 2048, namedVariable 32 "h" "bp" .global 2050,
          namedVariable 34 "gcc2_compiled." "b" .global 256,
          namedVariable 36 "tick_alias" "b" .global 256]
       typeNumbers := {} }]
  size := 38

/-- A program with a function elsewhere, and labels where the document has items. -/
def steppingProgram : Program :=
  Operation.performAll { memory := [(0, 4096)] }
    [.createFunction (.text "main") (.ofInt 1024) none .analysis,
      .createLabel (.ofInt 256) (.text "timer") true, .createLabel (.ofInt 2050) (.text "table") true,
      .setComment 512 .eol (some "entry")]

def steppingSession : Session := { document := steppingDocument, program := steppingProgram }

theorem namedVariable_wellTyped (serial : Nat) (own type : String) (kind : Document.StorageKind)
    (place : Int) : Document.WellTypedVariable (namedVariable serial own type kind place) :=
  ⟨.inr ⟨own, rfl⟩, Document.Node.wellTyped_typeName (.inl rfl) (.inr ⟨type, rfl⟩)⟩

theorem namedFunction_wellTyped (serial : Nat) (own : String) (low high : Int) :
    Document.WellTypedFunction (namedFunction serial own low high) where
  name := .inr ⟨own, rfl⟩
  low := .inr ⟨low, rfl⟩
  high := .inr ⟨high, rfl⟩
  relativePath := .inl rfl
  type := by
    refine Document.Node.wellTyped_iff.mpr ⟨.inl rfl, ?_⟩
    have returns := Document.Node.wellTyped_typeName (c := { serial := serial + 2 })
      (r := ⟨.text "bp", -1, none⟩) (.inl rfl) (.inr ⟨"bp", rfl⟩)
    simpa [namedFunction, Node.parts, returns] using (namedVariable_wellTyped _ _ _ _ _).2
  parameters := by simpa [namedFunction] using (namedVariable_wellTyped _ _ _ _ _).1
  locals := by simp [namedFunction, namedVariable_wellTyped]
  breadcrumbs := nofun

theorem steppingDocument_wellTyped : steppingDocument.WellTyped := by
  refine ⟨mutualSession_isNew.document.types, ?_⟩
  simp only [steppingDocument, List.forall_mem_singleton]
  constructor
  · exact ⟨"a.c", rfl⟩
  · exact ⟨"a.c", rfl⟩
  · simp [namedFunction_wellTyped]
  · simp [namedVariable_wellTyped]

theorem steppingProgram_consistent : steppingProgram.Consistent [(0, 4096)] :=
  Operation.perform_consistent (Operation.perform_consistent (Operation.perform_consistent
    (Operation.perform_consistent (consistent_blank none _ _ [(0, 4096)] _) _) _) _) _

theorem steppingProgram_sameTypes : SameTypes { memory := [(0, 4096)] } steppingProgram :=
  (((Operation.perform_sameTypes _ _).trans (Operation.perform_sameTypes _ _)).trans
    (Operation.perform_sameTypes _ _)).trans (Operation.perform_sameTypes _ _)

theorem startsAt_namedFunction {serial : Nat} {own : String} {low high entry : Int} :
    StartsAt (namedFunction serial own low high) entry ↔ entry = low := startsAt_iff rfl

theorem steppingSession_isRepeatable : steppingSession.IsRepeatable [(0, 4096)] where
  document := steppingDocument_wellTyped
  program := steppingProgram_sameTypes.sound { Program.sound_empty with }
  naming := congrArg Arena.room steppingProgram_sameTypes.arena
  knowsPointerSize := rfl
  table := rfl
  isPrepared := rfl
  cache := rfl
  room := rfl
  numbered := Document.isNumbered_of_nodup (by decide +kernel)
  consistent := steppingProgram_consistent
  types := ⟨by decide +kernel, by decide +kernel⟩
  distinct := by
    show steppingProgram.registry.Distinct
    rw [steppingProgram_sameTypes.registry]
    exact Ledger.distinct_empty
  aligned := by decide +kernel
  apart := by
    simp only [steppingSession, steppingDocument, definitions, List.flatMap_cons, List.map_cons,
      List.map_nil, List.flatMap_nil, List.append_nil, List.pairwise_pair]
    intro entry hs hs'
    rw [startsAt_namedFunction] at hs hs'
    omega
  free := by
    simp only [steppingSession, steppingDocument, definitions, List.flatMap_cons, List.map_cons,
      List.map_nil, List.flatMap_nil, List.append_nil, List.forall_mem_cons, startsAt_namedFunction]
    refine ⟨?_, ?_, List.forall_mem_nil _⟩
    · rintro _ rfl
      decide +kernel
    · rintro _ rfl
      decide +kernel

/-- The labels of the name that is none are taken away where the function is named again, and stand
after the others once they are back. -/
theorem importItems_converges_stepping : ∃ first second,
    importItems (importTypes steppingSession).2 = (.ok (), first) ∧
      importItems first = (.ok (), second) ∧
      ∀ keyText, SummedUpAlike keyText first.program second.program :=
  importItems_converges steppingSession_isRepeatable .none (by decide +kernel) .none
    (.inl (by decide +kernel))

end Import

end StabsImport

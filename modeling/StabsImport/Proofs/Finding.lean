import StabsImport.Proofs.Mirrors

/-!
# A stage of types that finds its types

On a program that an import of the same document left, the stage of types finds each structure, union
and enumeration as long as none has outgrown its declared size. What it then fills them with mirrors
what the first stage filled them with. Main statement: `TypeStage.importTypes_mirrors`.
-/

namespace StabsImport.Import

open Document (Node)

variable {d : Document} {s s' t t' : Session} {k : Nat} {name : String} {shape : Shape} {id : TypeId}

/-! ## What registration leaves alone -/

/-- Only structures, unions and enumerations have types. -/
def ListsNominal (d : Document) (s : Session) : Prop :=
  ∀ k, ¬ IsNominalEntry d k → s.typeAt? k = none

/-- What is registered is as it was made: an enumeration, or a composite without members. -/
def RegistersInitial (s : Session) : Prop :=
  ∀ own x, s.program.registry.get? own = some x →
    ∃ own' shape, s.program.arena.get? x = some (.named own' shape) ∧ shape.IsInitial

theorem Asks.isNominalEntry (h : Asks d k name shape) : IsNominalEntry d k := by
  obtain ⟨node, hk, -, hshape⟩ := h
  refine ⟨node, hk, ?_⟩
  cases node with
  | enumeration | composite => rfl
  | _ => cases hshape

theorem IsNominalEntry.asks (typed : d.WellTyped) (h : IsNominalEntry d k) :
    ∃ name shape, Asks d k name shape := by
  obtain ⟨node, hk, hn⟩ := h
  obtain ⟨name, hname⟩ := entryName_text (typed.types node (List.mem_of_getElem? hk)).typed.name k
  cases node with
  | enumeration | composite => exact ⟨name, _, _, hk, hname, rfl⟩
  | _ => cases hn

theorem registerEntry_listsNominal (d : Document) :
    RegistersEach d fun _ => ListsNominal d := by
  refine registersEach_of (fun _ h => h) fun hs hg hasks hnew hin h j hj => ?_
  rw [Session.typeAt?_set, if_neg, (hnew.lists.before_gains hg).entry, h j hj]
  rintro ⟨rfl, -⟩
  exact hj hasks.isNominalEntry

theorem registerEntry_registersInitial (d : Document) :
    RegistersEach d fun _ => RegistersInitial := by
  refine registersEach_of (fun _ h => h) fun {_ s _ t _ _ _} hs hg hasks hnew _ h own x hx => ?_
  have hl := hnew.lists.before_gains hg
  rcases hl.listed hx with hx | ⟨rfl, -, own', hid⟩
  · obtain ⟨own', shape', hget, initial⟩ := h own x hx
    exact ⟨own', shape', (hl.kept (hs.program.lt_size hx)).trans hget, initial⟩
  · obtain ⟨node, -, -, hshape⟩ := hasks
    exact ⟨own', _, hid, isInitial_of_initialShape? hshape⟩

/-- No type is recorded. -/
def KeepsCache (s t : Session) : Prop := t.cache = s.cache

instance : Naming KeepsCache where
  refl _ := rfl
  trans h h' := h'.trans h
  report _ _ := rfl
  inside _ h := h
  pushNamed _ _ _ := rfl

theorem registerTypes_keepsCache : Preserves KeepsCache registerTypes := by
  have register {type : ImportM TypeId} (h : Preserves KeepsCache type) (index : Nat)
      (report : Fault → String) :
      Preserves KeepsCache (onTypeFault (do setEntry index (← edit (Program.addType (← type))))
        fun e => diagnose typesSource (report e)) := by
    refine .onTypeFault (h.bind fun id => Preserves.bind (fun s => ?_) fun _ => .modify fun _ => rfl)
      fun _ => .diagnose _ _
    rw [runs_edit]
    exact Runs.of_all (fun _ _ => rfl) fun _ _ => rfl
  have entry (index : Nat) (node : Node) : Preserves KeepsCache (registerEntry index node) := by
    cases node with
    | enumeration c constants => exact register (.newEnumeration _ _) index _
    | composite c isRecord bases fields members => exact register (.newShell _ _ _) index _
    | _ => exact .pure _
  have checked : Preserves KeepsCache isCancelled :=
    .get fun _ => Preserves.bind (R := KeepsCache) (.modify fun _ => rfl) fun _ => .pure _
  have prepared : Preserves KeepsCache prepare := by
    intro s
    rw [prepare, Runs.bind_iff, Runs.get_iff]
    split
    · exact rfl
    · split <;> exact rfl
  exact prepared.bind fun _ => .get fun _ => .registerFrom checked (fun k n _ => entry k n) 0

/-! ## A stage that was not cancelled -/

variable {shells shells' filled filled' : Session}

/-- What registration leads to, it being known. -/
theorem registerTypes_establishes (h : Reached s)
    (uncancelled : (importTypes s).2.monitor.isCancelled = false)
    (hreg : registerTypes s = (.ok true, shells)) {I : Nat → Session → Prop}
    (ignores : IgnoresMonitor I) (step : RegistersEach s.document I)
    (start : ∀ t, Gains s t → I 0 t) : I s.document.types.length shells := by
  obtain ⟨t, ht, -, -, hI⟩ := registerTypes_leads h uncancelled ignores step start
  obtain rfl : t = shells := (Prod.mk.inj (ht.symm.trans hreg)).2
  exact hI

/-- The stage of types on a new session: `shells` is the session in which all was registered,
`filled` the one it ended with. -/
structure TypeStage (s shells filled : Session) : Prop where
  new : s.IsNew
  uncancelled : filled.monitor.isCancelled = false
  stage : importTypes s = (.ok (), filled)
  registers : registerTypes s = (.ok true, shells)
  fills : fillFrom 0 s.document.types shells = (.ok (), filled)
  registered : After registration s shells
  after : After { cuts := True } shells filled
  listed : shells.IsListed
  nominal : ListsNominal s.document shells
  hosted : Hosted s.document s.document.types.length shells
  cache : shells.cache = {}
  registry : filled.program.registry = shells.program.registry

theorem importTypes_typeStage (h : s.IsNew)
    (uncancelled : (importTypes s).2.monitor.isCancelled = false) :
    ∃ shells filled, TypeStage s shells filled := by
  have reached : Reached s := .new h
  obtain ⟨shells, hreg, ha, listed, hosted⟩ := registerTypes_leads (I := Hosted s.document) reached
    uncancelled (fun h _ => h) (registerEntry_hosts _) fun _ _ _ hk => absurd hk (Nat.not_lt_zero _)
  obtain ⟨filled, hstage, hv, registry⟩ := importTypes_of_registerTypes reached hreg ha listed
  have nominal := registerTypes_establishes (I := fun _ => ListsNominal s.document) reached
    uncancelled hreg (fun h _ => h) (registerEntry_listsNominal _) fun t ht k _ => by
      rw [ht.entry, Session.typeAt?, h.table]
      rfl
  have cache : KeepsCache s (registerTypes s).2 := registerTypes_keepsCache.apply s
  rw [hreg] at cache
  rw [hstage] at uncancelled
  refine ⟨shells, filled, h, uncancelled, hstage, hreg, ?_, ha, hv, listed, nominal, hosted,
    cache.trans h.cache, registry⟩
  rw [importTypes_apply, hreg] at hstage
  exact hstage

namespace TypeStage

/-- Where nothing was registered that has members, no composite has any before they are filled. -/
theorem registersInitial (h : TypeStage s shells filled) (initial : RegistersInitial s) :
    RegistersInitial shells := by
  have uncancelled : (importTypes s).2.monitor.isCancelled = false := by
    rw [h.stage]
    exact h.uncancelled
  refine registerTypes_establishes (I := fun _ => RegistersInitial) (.new h.new) uncancelled
    h.registers (fun h _ => h) (registerEntry_registersInitial _) fun t ht own x hx => ?_
  rw [ht.registry] at hx
  obtain ⟨own', shape, hget, hshape⟩ := initial own x hx
  exact ⟨own', shape, ht.kept hget, hshape⟩

end TypeStage

/-- A stage over the same document, on a program in which all is registered that the first stage
registered and where it left its types. -/
structure Revisits (filled s' : Session) : Prop where
  document : s'.document = filled.document
  pointerSize : s'.program.pointerSize = filled.program.pointerSize
  registry : s'.program.registry = filled.program.registry
  kept : ∀ {x}, x < filled.program.arena.size →
    s'.program.arena.get? x = filled.program.arena.get? x

namespace TypeStage

variable (h : TypeStage s shells filled) (h' : TypeStage s' shells' filled')
  (revisit : Revisits filled s') (same : shells.program.SameSizes filled.program)

theorem document (h : TypeStage s shells filled) : filled.document = s.document :=
  h.after.document.trans h.registered.document

include h revisit same in
/-- What was hosted is hosted still. -/
theorem hosts {x : TypeId} {n : Nat} (hx : shells.program.Hosts name shape n x) :
    s'.program.Hosts name shape n x := by
  refine (hx.mono h.after.registry fun ho => same.serves_iff h.registered.sound.program
    h.after.evolves ho).mono (fun ho => revisit.registry ▸ ho) fun ho => Arena.serves_congr ?_
  exact revisit.kept (h.after.sound.program.lt_size ho)

include h h' revisit same

theorem finds : Finds s.document s'.program s.document.types.length shells' := by
  have hd : s'.document = s.document := revisit.document.trans h.document
  have uncancelled : (importTypes s').2.monitor.isCancelled = false := by
    rw [h'.stage]
    exact h'.uncancelled
  have found := registerTypes_establishes (I := Finds s'.document s'.program) (.new h'.new)
    uncancelled h'.registers (fun h _ => ⟨h.registry, h.kept, h.found⟩)
    (registerEntry_finds h'.new.program fun hk => ?_) fun t ht => ⟨ht.registry, fun hx =>
      (ht.kept (Array.getElem?_eq_getElem hx)).trans (Array.getElem?_eq_getElem hx).symm,
      fun hk => absurd hk (Nat.not_lt_zero _)⟩
  · rwa [hd] at found
  · rw [hd] at hk
    obtain ⟨id, n, -, hid⟩ := h.hosted _ hk.lt_length _ _ hk
    exact ⟨n, id, h.hosts revisit same hid⟩

end TypeStage

/-- Numbers part where the types registered in the two stages end. Only what is registered has a part
in what follows. -/
def renumbering (shells shells' : Session) : Renumbering where
  first := shells.program.arena
  second := shells'.program.arena
  live x := ∃ own, shells.program.registry.get? own = some x

namespace TypeStage

variable (h : TypeStage s shells filled) (h' : TypeStage s' shells' filled')
  (revisit : Revisits filled s') (same : shells.program.SameSizes filled.program)
  (initial : RegistersInitial shells)

theorem size_le_of_kept {a b : Arena} (kept : ∀ {x}, x < a.size → b.get? x = a.get? x) :
    a.size ≤ b.size :=
  le_of_forall_lt fun _ hx =>
    Arena.lt_size_of_get? ((kept hx).trans (Array.getElem?_eq_getElem hx))

include h h' revisit same initial

/-- A registered type is still what it was, or a composite of the same kind and size. -/
theorem resembles {own : Json} {x : TypeId} (hx : shells.program.registry.get? own = some x)
    (R : TypeId → TypeId → Prop) : ∃ t u, shells.program.arena.get? x = some t ∧
      shells'.program.arena.get? x = some u ∧ t.Resembles R u := by
  obtain ⟨own', shape, hget, hshape⟩ := initial own x hx
  obtain ⟨u, hu, evolved⟩ := h.after.evolves hget
  have hs' := (revisit.kept (Arena.lt_size_of_get? hu)).trans hu
  have hshells' := ((h.finds h' revisit same).kept (Arena.lt_size_of_get? hs')).trans hs'
  refine ⟨_, u, hget, hshells', ?_⟩
  rcases evolved with rfl | ⟨name, c, c', heq, rfl, hkind, -⟩
  · cases shape with
    | enumeration => exact .leaf rfl rfl
    | composite => exact .composite rfl rfl
    | _ => exact hshape.elim
  · cases heq
    exact .composite hkind.symm (same hx (Arena.composite?_eq_some.mpr ⟨_, hget⟩)
      (Arena.composite?_eq_some.mpr ⟨_, hu⟩)).symm

theorem mirror : (renumbering shells shells').Mirror shells.program.arena shells'.program.arena := by
  have filled_le : shells.program.arena.size ≤ filled.program.arena.size :=
    le_of_forall_lt fun _ hx => h.after.lt_size hx
  have parted : shells.program.arena.size ≤ shells'.program.arena.size :=
    (filled_le.trans (size_le_of_kept revisit.kept)).trans
      (size_le_of_kept (h.finds h' revisit same).kept)
  refine ⟨h.registered.sound.program.arena, h'.registered.sound.program.arena,
    h.registered.sound.naming, h'.registered.sound.naming, parted, Nat.le_refl _, ?_,
    fun x y hxy => ?_, fun _ _ => rfl, fun {x c} hlt hlive hc => ?_⟩
  · exact (Renumbering.apply_first (σ := renumbering shells shells')).symm
  · obtain ⟨own, hown⟩ := hxy.live hxy.lt_size
    obtain rfl : y = x := hxy.number.trans (Renumbering.apply_of_lt hxy.lt_size)
    exact h.resembles h' revisit same initial hown _
  · obtain ⟨own, hown⟩ := hlive
    obtain ⟨t, u, hx, hy, hr⟩ := h.resembles h' revisit same initial hown fun _ _ => True
    obtain ⟨name, hc'⟩ := Arena.composite?_eq_some.mp hc
    obtain rfl := Option.some.inj (hx.symm.trans hc')
    cases hr with
    | leaf _ plain => cases plain
    | @composite _ _ c' =>
        have there := Arena.composite?_eq_some.mpr ⟨name, hy⟩
        exact ⟨c', [], there, nofun, hc, there⟩

theorem mirrors : Mirrors (renumbering shells shells') shells shells' := by
  have sound := h.registered.sound
  have sound' := h'.registered.sound
  have hd : s'.document = s.document := revisit.document.trans h.document
  have document : shells'.document = shells.document :=
    h'.registered.document.trans (hd.trans h.registered.document.symm)
  refine
    { arenas := h.mirror h' revisit same initial
      typed := sound.typed
      document
      room := h.registered.room.trans h.new.room
      room' := h'.registered.room.trans h'.new.room
      knows := sound.knowsPointerSize
      knows' := sound'.knowsPointerSize
      pointerSize := h'.registered.pointerSize.trans (revisit.pointerSize.trans h.after.pointerSize)
      listed := h.listed
      prepared := h'.listed.1
      tables := ?_
      entries := fun k => ?_
      builtIns := fun c => ?_
      pointers := fun _ size => ?_
      arrays := fun _ count => ?_
      nodes := fun serial => ?_ }
  · rw [sound.prepared h.listed.1, sound'.prepared h'.listed.1, document]
  · by_cases hk : IsNominalEntry s.document k
    · obtain ⟨name, shape, asks⟩ := hk.asks h.new.document
      obtain ⟨id, n, hid, hosts⟩ := h.hosted k asks.lt_length _ _ asks
      obtain ⟨id', n', hid', hosts'⟩ := (h.finds h' revisit same).found asks.lt_length asks
      obtain rfl := (h.hosts revisit same hosts).eq hosts'
      have hlt := sound.entry_lt hid
      rw [hid, hid']
      exact .some ⟨hlt, fun _ => ⟨_, hosts.here⟩, (Renumbering.apply_of_lt hlt).symm⟩
    · rw [h.nominal k hk, h'.nominal k (hd ▸ hk)]
      exact .none
  all_goals
    rw [h.cache, h'.cache]
    exact .none

end TypeStage

/-! ## Filling -/

open Bond

variable {σ : Renumbering}

/-- The composite of an entry is filled in both. -/
theorem fillEntry_abreast (index : Nat) {node : Node} (typed : node.WellTyped) :
    (bond σ).Abreast s s' (fillEntry index node) (fillEntry index node) Any := by
  refine .get fun h => ?_
  have same := h.entries index
  unfold Session.typeAt? at same
  cases node with
  | composite c isRecord bases fields members =>
      revert same
      rcases s.table[index]? with _ | _ | x <;> rcases s'.table[index]? with _ | _ | y <;> intro same
      case some.some.some.some =>
        cases same with
        | some hxy =>
            obtain ⟨t, u, hx, hy, hr⟩ := h.arenas.types x y hxy
            have made :
                (s'.program.arena.composite? y).isSome = (s.program.arena.composite? x).isSome := by
              rw [Arena.composite?, Arena.composite?, hx, hy]
              cases hr <;> rfl
            dsimp only
            rw [made]
            split
            · exact Mirrors.concord.fillNode Mirrors.concord.typeAt hxy fun _ => typed
            · exact .pure trivial
      all_goals first | exact .pure trivial | cases same
  | _ => exact .pure trivial

/-- What a check that does not find the work cancelled leaves to be done. -/
theorem fillFrom_uncancelled {index : Nat} {node : Node} {rest : List Node}
    (h : (fillFrom index (node :: rest) s).2.monitor.isCancelled = false) :
    fillFrom index (node :: rest) s =
      (do fillEntry index node; fillFrom (index + 1) rest : ImportM Unit)
        { s with monitor := s.monitor.check.2 } := by
  have step : fillFrom index (node :: rest) s = (if s.monitor.check.1 then pure ()
      else do fillEntry index node; fillFrom (index + 1) rest : ImportM Unit)
        { s with monitor := s.monitor.check.2 } := rfl
  rw [step] at h ⊢
  split at h
  · next cancelled =>
      have found : s.monitor.check.2.isCancelled = false := h
      rw [Monitor.check_isCancelled, cancelled] at found
      cases found
  · next goes => rw [if_neg goes]

/-- The composites of entries are filled in both, unless the work is cancelled in one. -/
theorem fillFrom_abreast {index : Nat} {nodes : List Node} (typed : ∀ n ∈ nodes, n.WellTyped)
    (uncancelled : (fillFrom index nodes s).2.monitor.isCancelled = false)
    (uncancelled' : (fillFrom index nodes s').2.monitor.isCancelled = false) :
    (bond σ).Abreast s s' (fillFrom index nodes) (fillFrom index nodes) Any := by
  induction nodes generalizing s s' index with
  | nil => exact .pure trivial
  | cons node rest ih =>
      intro h
      have step := fillFrom_uncancelled uncancelled
      have step' := fillFrom_uncancelled uncancelled'
      rw [step, Runs.bind_apply] at uncancelled ⊢
      rw [step', Runs.bind_apply] at uncancelled' ⊢
      have checked : (bond σ).Onward s s' { s with monitor := s.monitor.check.2 }
          { s' with monitor := s'.monitor.check.2 } :=
        Mirrors.onward { h with listed := h.listed } rfl
      have filled := fillEntry_abreast index (typed node List.mem_cons_self)
        checked.related
      revert filled uncancelled uncancelled'
      generalize fillEntry index node { s with monitor := _ } = r,
        fillEntry index node { s' with monitor := _ } = r'
      rintro uncancelled uncancelled' (⟨onward, -⟩ | onward)
      · exact .after (checked.trans onward) (ih (fun n hn => typed n (List.mem_cons_of_mem _ hn))
          uncancelled uncancelled' onward.related)
      · exact .error (checked.trans onward)

/-- The second stage makes of what it found what the first made of it. -/
theorem TypeStage.importTypes_mirrors (h : TypeStage s shells filled)
    (h' : TypeStage s' shells' filled') (revisit : Revisits filled s')
    (same : shells.program.SameSizes filled.program) (initial : RegistersInitial shells) :
    (bond (renumbering shells shells')).Onward shells shells' filled filled' := by
  have hd : s'.document = s.document := revisit.document.trans h.document
  have uncancelled : (fillFrom 0 s.document.types shells).2.monitor.isCancelled = false := by
    rw [h.fills]
    exact h.uncancelled
  have uncancelled' : (fillFrom 0 s.document.types shells').2.monitor.isCancelled = false := by
    rw [← hd, h'.fills]
    exact h'.uncancelled
  have ends := fillFrom_abreast (fun n hn => h.new.document.types n hn) uncancelled uncancelled'
    (h.mirrors h' revisit same initial)
  rw [h.fills, ← hd, h'.fills] at ends
  cases ends with
  | ok onward => exact onward

end StabsImport.Import

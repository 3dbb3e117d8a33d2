import StabsImport.Import.Run
import StabsImport.Proofs.Hosting
import StabsImport.Proofs.Identities

/-!
# Importing the types again

A second stage of types, over the document and the program of the first, is to find all that the
first registered. It looks for a composite of the declared size, and compares with the size the
composite has by now. Main statement: `importTypes_repeats`, the second stage registers nothing as
long as no composite was made larger by its members, and one that is larger than declared is not
found.
-/

namespace StabsImport

namespace Program

variable {p q : Program} {shape : Shape} {x : TypeId}

/-- No registered composite of the one program is of another size in the other. -/
def SameSizes (p q : Program) : Prop :=
  ∀ {own x c c'}, p.registry.get? own = some x → p.arena.composite? x = some c →
    q.arena.composite? x = some c' → c'.size = c.size

/-- Of what is registered, the same will do as long as no sizes change. -/
theorem SameSizes.serves_iff (h : p.SameSizes q) (hs : p.Sound)
    (evolves : ∀ {id t}, p.arena.get? id = some t →
      ∃ t', q.arena.get? id = some t' ∧ Import.Evolves t t')
    {own : Json} (hx : p.registry.get? own = some x) :
    q.arena.Serves shape x ↔ p.arena.Serves shape x := by
  obtain ⟨t, ht⟩ : ∃ t, p.arena.get? x = some t :=
    ⟨_, Array.getElem?_eq_getElem (hs.lt_size hx)⟩
  obtain ⟨t', ht', rfl | ⟨own', c, c', rfl, rfl, hkind, -⟩⟩ := evolves ht
  · exact Arena.serves_congr (ht'.trans ht.symm)
  · have hsize : c'.size = c.size := h hx (Arena.composite?_eq_some.mpr ⟨own', ht⟩)
      (Arena.composite?_eq_some.mpr ⟨own', ht'⟩)
    have heq : Shape.Serves (.composite c') shape ↔ Shape.Serves (.composite c) shape := by
      cases shape with
      | composite d => simp only [Shape.Serves, hkind, hsize]
      | _ => exact Iff.rfl
    simp [Arena.Serves, ht, ht', heq]

end Program

namespace Import

open Document (Node)

variable {s t u : Session} {d : Document} {index : Nat} {name : String} {shape : Shape}
  {id : TypeId}

/-- What is registered for an entry: nothing, unless it is a structure, union or enumeration. -/
def initialShape? : Node → Option Shape
  | .enumeration _ constants => some (.enumeration enumerationSize (constantsOf constants))
  | .composite c isRecord _ _ _ =>
      some (.composite (.empty (kindOf isRecord) (declaredBytes c.sizeBits)))
  | _ => none

theorem distinct_constantsOf (constants : List (Int × Json)) :
    (constantsOf constants).Distinct := by
  have hfold (l : Ledger Json Int) (h : l.Distinct) :
      (constants.foldl (fun l k => if l.contains k.2 then l else l.put k.2 k.1) l).Distinct := by
    induction constants generalizing l with
    | nil => exact h
    | cons k rest ih =>
        rw [List.foldl_cons]
        split
        · exact ih l h
        · exact ih _ (h.put _ _)
  exact hfold {} Ledger.distinct_empty

theorem isInitial_of_initialShape? {node : Node} (h : initialShape? node = some shape) :
    shape.IsInitial := by
  cases node with
  | enumeration c constants =>
      cases h
      exact distinct_constantsOf constants
  | composite =>
      cases h
      exact rfl
  | _ => cases h

/-- A type of this name and shape is to be registered for an entry. -/
def Asks (d : Document) (k : Nat) (name : String) (shape : Shape) : Prop :=
  ∃ node, d.types[k]? = some node ∧ entryName node k = .text name ∧
    initialShape? node = some shape

theorem Asks.unique {name' : String} {shape' : Shape} {k : Nat} (h : Asks d k name shape)
    (h' : Asks d k name' shape') : name = name' ∧ shape = shape' := by
  obtain ⟨node, hk, hn, hs⟩ := h
  obtain ⟨node', hk', hn', hs'⟩ := h'
  obtain rfl : node = node' := Option.some.inj (hk.symm.trans hk')
  exact ⟨Json.text.inj (hn.symm.trans hn'), Option.some.inj (hs.symm.trans hs')⟩

/-! ## Registering -/

/-- What is registered, or found, is hosted. -/
theorem Session.Registers.hosts
    (lt_size : ∀ {own x}, s.program.registry.get? own = some x → x < s.program.arena.size)
    (initial : shape.IsInitial) (h : s.Registers name shape id t) :
    ∃ n, t.program.Hosts name shape n id := by
  have hl := h.lists
  obtain ⟨n, barred, h⟩ := h
  let pushed := s.push (.named (.text name) shape)
  have hnew : pushed.program.arena.get? s.program.arena.size = some (.named (.text name) shape) :=
    get?_push s _
  have same {x : TypeId} (hx : x < s.program.arena.size) :
      pushed.program.arena.get? x = t.program.arena.get? x := by
    rw [hl.kept hx]
    exact Arena.get?_push_of_lt _ _ hx
  refine ⟨n, fun m hm => ?_, ?_, ?_⟩
  · obtain ⟨other, ho, hr⟩ := barred m hm
    refine ⟨other, hl.registry ho, fun hserves => ?_⟩
    rw [← Arena.serves_congr (same (lt_size ho)), ← Arena.canReuse_initial hnew initial, hr]
      at hserves
    cases hserves
  · rcases h with ⟨ho, -, rfl⟩ | ⟨free, rfl, rfl⟩
    · exact ho
    · exact Ledger.get?_put_self _ _ _
  · rcases h with ⟨ho, hr, rfl⟩ | ⟨free, rfl, rfl⟩
    · exact (Arena.canReuse_initial hnew initial).mp hr
    · exact ⟨_, shape, Arena.get?_push_self _ _, initial.serves⟩

/-- Where a type is hosted already it is found, and nothing is registered. -/
theorem Session.Registers.of_hosts
    (lt_size : ∀ {own x}, s.program.registry.get? own = some x → x < s.program.arena.size)
    (initial : shape.IsInitial) (h : s.Registers name shape id t) {n : Nat} {x : TypeId}
    (hx : s.program.Hosts name shape n x) : id = x ∧ t.program.registry = s.program.registry := by
  have hl := h.lists
  have hx' : t.program.Hosts name shape n x :=
    hx.mono hl.registry fun ho => Arena.serves_congr (hl.kept (lt_size ho))
  obtain ⟨m, hid⟩ := h.hosts lt_size initial
  obtain rfl := hid.eq hx'
  obtain ⟨k, -, ⟨-, -, rfl⟩ | ⟨-, rfl, -⟩⟩ := h
  · exact ⟨rfl, rfl⟩
  · exact absurd (lt_size hx.here) (Nat.lt_irrefl _)

/-- What registering a type preserves is preserved by the registration of an entry. -/
theorem registersEach_of {I : Nat → Session → Prop}
    (skip : ∀ {index s}, (∀ name shape, ¬ Asks d index name shape) → I index s → I (index + 1) s)
    (step : ∀ {index s u t name shape id}, s.Sound → Gains s u → Asks d index name shape →
      u.Registers name shape id t → index < t.table.size → I index s →
      I (index + 1) { t with table := t.table.setIfInBounds index (some id) }) :
    RegistersEach d I := by
  intro s hs hd hp hr index node hnode
  have hnode' : s.document.types[index]? = some node := hd ▸ hnode
  have ht : node.WellTyped := hs.typed.types node (List.mem_of_getElem? hnode')
  obtain ⟨name, hname⟩ := entryName_text ht.typed.name index
  cases node with
  | enumeration c constants =>
      simp only [registerEntry, hname]
      refine (register_yields hp trivial (fun h => h) hnode'
        (hs.addEnumeration hr name c ht.typed.2) _).mono ?_ fun _ _ _ h => h
      rintro _ _ - ⟨hset, id, t, ⟨u, hg, hnew⟩, hin, rfl⟩
      exact ⟨fun _ => hset, step hs hg ⟨_, hnode, hname, rfl⟩ hnew hin⟩
  | composite c isRecord bases fields members =>
      simp only [registerEntry, hname]
      refine (register_yields hp trivial (fun h => h) hnode'
        (hs.addShell (Room.allows_of_le hr (by decide)) c isRecord bases fields members name)
        _).mono ?_ fun _ _ _ h => h
      rintro _ _ - ⟨hset, id, t, hnew, hin, rfl⟩
      exact ⟨fun _ => hset, step hs (.refl s) ⟨_, hnode, hname, rfl⟩ hnew hin⟩
  | _ =>
      refine .pure hs ⟨fun hn => absurd hn Bool.false_ne_true, skip ?_⟩
      rintro name shape ⟨node, hk, -, hshape⟩
      rw [hnode] at hk
      cases hk
      cases hshape

/-- The entries before one have the types that are hosted for them. -/
def Hosted (d : Document) (index : Nat) (s : Session) : Prop :=
  ∀ k < index, ∀ name shape, Asks d k name shape →
    ∃ id n, s.typeAt? k = some id ∧ s.program.Hosts name shape n id

theorem registerEntry_hosts (d : Document) : RegistersEach d (Hosted d) := by
  refine registersEach_of (fun unasked h k hk name shape ha => ?_)
    fun {index s u t name shape id} hs hg hasks hnew hin h k hk own own' ha => ?_
  · rcases Nat.lt_succ_iff_lt_or_eq.mp hk with hk | rfl
    · exact h k hk _ _ ha
    · exact absurd ha (unasked _ _)
  · have hl := hnew.lists.before_gains hg
    rcases Nat.lt_succ_iff_lt_or_eq.mp hk with hk | rfl
    · obtain ⟨x, n, hx, hosts⟩ := h k hk _ _ ha
      refine ⟨x, n, ?_, hosts.mono hl.registry fun ho =>
        Arena.serves_congr (hl.kept (hs.program.lt_size ho))⟩
      rw [Session.typeAt?_set, if_neg (by omega), hl.entry]
      exact hx
    · obtain ⟨rfl, rfl⟩ := ha.unique hasks
      obtain ⟨node, -, -, hshape⟩ := hasks
      obtain ⟨n, hosts⟩ := hnew.hosts (fun ho => Nat.lt_of_lt_of_le
        (hs.program.lt_size (hg.registry ▸ ho)) hg.size_le) (isInitial_of_initialShape? hshape)
      exact ⟨id, n, typeAt?_setEntry id hin, hosts⟩

/-- What is registered already is only found. -/
structure Finds (d : Document) (p : Program) (index : Nat) (s : Session) : Prop where
  registry : s.program.registry = p.registry
  kept : ∀ {x}, x < p.arena.size → s.program.arena.get? x = p.arena.get? x
  found : ∀ {k name shape}, k < index → Asks d k name shape →
    ∃ id n, s.typeAt? k = some id ∧ p.Hosts name shape n id

theorem registerEntry_finds {p : Program} (hp : p.Sound)
    (hosts : ∀ {k name shape}, Asks d k name shape → ∃ n id, p.Hosts name shape n id) :
    RegistersEach d (Finds d p) := by
  refine registersEach_of (fun unasked h => ?_) fun {index s u t name shape id} hs hg hasks hnew
    hin h => ?_
  · refine ⟨h.registry, h.kept, fun {k _ _} hk ha => ?_⟩
    rcases Nat.lt_succ_iff_lt_or_eq.mp hk with hk | rfl
    · exact h.found hk ha
    · exact absurd ha (unasked _ _)
  · have hl := hnew.lists.before_gains hg
    have hlt {own : Json} {x : TypeId} (ho : u.program.registry.get? own = some x) :
        x < u.program.arena.size :=
      Nat.lt_of_lt_of_le (hs.program.lt_size (hg.registry ▸ ho)) hg.size_le
    have stands {y : TypeId} (hy : y < p.arena.size) :
        ∃ o, p.arena.get? y = some o ∧ s.program.arena.get? y = some o :=
      ⟨_, Array.getElem?_eq_getElem hy, (h.kept hy).trans (Array.getElem?_eq_getElem hy)⟩
    obtain ⟨n, x, hx⟩ := hosts hasks
    have hx' : u.program.Hosts name shape n x := by
      refine hx.mono (fun ho => ?_) fun ho => Arena.serves_congr ?_
      · rw [hg.registry, h.registry]
        exact ho
      · obtain ⟨o, hpo, hso⟩ := stands (hp.lt_size ho)
        rw [hpo, hg.kept hso]
    have initial : shape.IsInitial := by
      obtain ⟨node, -, -, hshape⟩ := hasks
      exact isInitial_of_initialShape? hshape
    obtain ⟨rfl, hreg⟩ := hnew.of_hosts hlt initial hx'
    refine ⟨hreg.trans (hg.registry.trans h.registry), fun {y} hy => ?_, fun {k _ _} hk ha => ?_⟩
    · obtain ⟨o, hpo, hso⟩ := stands hy
      exact (hl.kept (Arena.lt_size_of_get? hso)).trans (hso.trans hpo.symm)
    · rcases Nat.lt_succ_iff_lt_or_eq.mp hk with hk | rfl
      · obtain ⟨y, m, hy, hosts⟩ := h.found hk ha
        refine ⟨y, m, ?_, hosts⟩
        rw [Session.typeAt?_set, if_neg (by omega), hl.entry]
        exact hy
      · obtain ⟨rfl, rfl⟩ := ha.unique hasks
        exact ⟨_, n, typeAt?_setEntry _ hin, hx⟩

/-! ## Filling -/

/-- Nothing is registered once everything is that is to be. -/
def KeepsRegistry (_ : TypeId → Prop) (s s' : Session) : Prop :=
  s.IsListed → s'.program.registry = s.program.registry ∧ s'.IsListed

instance : Framing KeepsRegistry where
  additive may :=
    { refl := fun _ h => ⟨rfl, h⟩
      trans := fun h h' hs =>
        have ht := h hs
        ⟨(h' ht.2).1.trans ht.1, (h' ht.2).2⟩
      push := fun _ _ h => ⟨rfl, h⟩
      report := fun _ _ h => ⟨rfl, h⟩
      share := fun _ _ _ h => ⟨rfl, h⟩
      inside := fun _ h hs => h hs }
  quiet h hs := by
    refine ⟨h.registry, h.prepared hs.1, fun k hk => ?_⟩
    rw [h.document] at hk
    exact h.entry hs.1 k (hs.2 k hk)
  fresh _ h hs := h hs

instance : FramesEntries KeepsRegistry where
  entries {may s index node _} hnode hunset he := by
    by_cases hs : s.IsListed
    · refine resolvePlain_frame he index ?_ s
      cases hn : node.isNominal with
      | false => rfl
      | true => exact absurd hunset (hs.2 _ ⟨node, hnode, hn⟩)
    · exact Runs.of_all (fun _ _ h => absurd h hs) fun _ _ h => absurd h hs

/-! ## The stage of types -/

/-- Filling ends, takes nothing back and registers nothing. -/
theorem importTypes_of_registerTypes (h : Reached s) {shells : Session}
    (hreg : registerTypes s = (.ok true, shells)) (ha : After registration s shells)
    (listed : shells.IsListed) :
    ∃ filled, importTypes s = (.ok (), filled) ∧ After { cuts := True } shells filled ∧
      filled.program.registry = shells.program.registry := by
  have hroom : shells.room = none := ha.room.trans h.sound.2
  have hready : Ready s.document (fun _ => False) shells := ⟨ha.sound, ha.document, nofun⟩
  obtain ⟨_, filled, hfill, hv, -⟩ := (fillFrom_yields (Filling.ignoresMonitor s.document 0 _)
    (fillEntry_yields 0 (.inl trivial)) hready (Room.allows_of_eq_none hroom _) (.all _)).exists_ok
  refine ⟨filled, ?_, hv, ?_⟩
  · rw [importTypes_apply, hreg]
    exact hfill
  · have hkeeps : Preserves (KeepsRegistry fun _ => True) (fillFrom 0 s.document.types) :=
      fillFrom_frame (fun _ => trivial) 0 _
    have hfilled := hkeeps.apply shells
    rw [hfill] at hfilled
    exact (hfilled listed).1

/-- The session of a second run over the document, on the program a session left. -/
def Session.anew (s : Session) (o : Options) : Session := sessionOf none s.document o s

theorem Session.Sound.anew (hs : s.Sound) (o : Options) : (s.anew o).IsNew where
  document := hs.typed
  program := hs.program
  naming := hs.naming
  knowsPointerSize := hs.knowsPointerSize
  table := rfl
  isPrepared := rfl
  cache := rfl
  room := rfl

/-- What a second stage of types finds: `shells` is the session in which the first had registered
all there is to register, `filled` the one it ended with, `again` the one the second ended with. -/
structure Repeats (shells filled again : Session) : Prop where
  /-- As long as no composite is of another size than it was registered with, nothing is registered
  and every structure, union and enumeration has the type it had. -/
  found : shells.program.SameSizes filled.program →
    again.program.registry = filled.program.registry ∧
      ∀ {k name shape}, Asks filled.document k name shape → again.typeAt? k = filled.typeAt? k
  /-- An entry whose composite is of another size than it declares has another composite. -/
  outgrown : ∀ {k name kind size id c},
    Asks filled.document k name (.composite (.empty kind size)) → filled.typeAt? k = some id →
    filled.program.arena.composite? id = some c → size ≠ 0 → c.size ≠ size →
    again.typeAt? k ≠ some id

theorem Asks.lt_length {k : Nat} (h : Asks d k name shape) : k < d.types.length := by
  obtain ⟨_, hk, -⟩ := h
  exact (List.getElem?_eq_some_iff.mp hk).1

/-- What the first stage of types registered the second finds again if its size has not changed, and
does not find if its size is not the declared one. -/
theorem importTypes_repeats (h : Reached s) (o : Options)
    (uncancelled : (importTypes s).2.monitor.isCancelled = false)
    (uncancelled' : (importTypes ((importTypes s).2.anew o)).2.monitor.isCancelled = false) :
    ∃ shells filled again, registerTypes s = (.ok true, shells) ∧
      importTypes s = (.ok (), filled) ∧ importTypes (filled.anew o) = (.ok (), again) ∧
      Repeats shells filled again := by
  obtain ⟨shells, hreg, ha, listed, hosted⟩ := registerTypes_leads (I := Hosted s.document) h
    uncancelled (fun h _ => h) (registerEntry_hosts _) fun _ _ _ hk => absurd hk (Nat.not_lt_zero _)
  obtain ⟨filled, hfirst, hv, hkept⟩ := importTypes_of_registerTypes h hreg ha listed
  rw [hfirst] at uncancelled'
  have hd : filled.document = s.document := hv.document.trans ha.document
  have hnew : Reached (filled.anew o) := .new (hv.sound.anew o)
  obtain ⟨shells', hreg', ha', listed', hosted'⟩ := registerTypes_leads
    (I := Hosted filled.document) hnew uncancelled' (fun h _ => h) (registerEntry_hosts _)
    fun _ _ _ hk => absurd hk (Nat.not_lt_zero _)
  obtain ⟨again, hsecond, hv', hkept'⟩ := importTypes_of_registerTypes hnew hreg' ha' listed'
  have entry {k : Nat} {id : TypeId} (he : shells.typeAt? k = some id) :
      filled.typeAt? k = some id := (hv.entry he).resolve_right fun hr => hr.1
  have entry' {k : Nat} {id : TypeId} (he : shells'.typeAt? k = some id) :
      again.typeAt? k = some id := (hv'.entry he).resolve_right fun hr => hr.1
  refine ⟨shells, filled, again, hreg, hfirst, hsecond, ?_⟩
  constructor
  · intro same
    have hosts {k : Nat} {name : String} {shape : Shape} (hk : Asks filled.document k name shape) :
        ∃ id n, filled.typeAt? k = some id ∧ filled.program.Hosts name shape n id := by
      rw [hd] at hk
      obtain ⟨id, n, he, hid⟩ := hosted _ hk.lt_length _ _ hk
      exact ⟨id, n, entry he,
        hid.mono hv.registry fun ho => same.serves_iff ha.sound.program hv.evolves ho⟩
    have hfinds : RegistersEach filled.document (Finds filled.document filled.program) :=
      registerEntry_finds hv.sound.program fun hk =>
        have ⟨id, n, _, hid⟩ := hosts hk
        ⟨n, id, hid⟩
    obtain ⟨found, hreg'', -, -, hfound⟩ := registerTypes_leads
      (I := Finds filled.document filled.program) hnew uncancelled'
      (fun h _ => ⟨h.registry, h.kept, h.found⟩) hfinds fun t ht => ⟨ht.registry, fun hx =>
        (ht.kept (Array.getElem?_eq_getElem hx)).trans (Array.getElem?_eq_getElem hx).symm,
        fun hk => absurd hk (Nat.not_lt_zero _)⟩
    obtain rfl : found = shells' := (Prod.mk.inj (hreg''.symm.trans hreg')).2
    refine ⟨hkept'.trans hfound.registry, fun {k name shape} hk => ?_⟩
    obtain ⟨id, n, he, hid⟩ := hosts hk
    obtain ⟨id', n', he', hid'⟩ := hfound.found hk.lt_length hk
    rw [he, entry' he', hid'.eq hid]
  · intro k name kind size id c hk hid hc hsize hne he
    obtain ⟨id', n, he', hid'⟩ := hosted' _ hk.lt_length _ _ hk
    obtain rfl : id = id' := Option.some.inj (he.symm.trans (entry' he'))
    have hframe : Frame (fun _ => False) (filled.anew o) shells' := by
      have hf : Frame (fun _ => False) (filled.anew o) (registerTypes (filled.anew o)).2 :=
        registerTypes_frame.apply _
      rw [hreg'] at hf
      exact hf
    obtain ⟨own, hg⟩ := Arena.composite?_eq_some.mp hc
    obtain ⟨own', shape', hg', hserves⟩ :=
      (Arena.serves_congr (hframe.kept (hv.sound.entry_lt hid) nofun)).mp hid'.serves
    rw [show (filled.anew o).program = filled.program from rfl, hg] at hg'
    cases hg'
    exact hserves.2.elim hsize fun hc => hne hc.symm

/-- A structure of one byte with a member of four. -/
def outgrownSession : Session where
  document :=
    { types :=
        [.composite { serial := 0, name := .text "S", sizeBits := 8 } true []
          [.builtIn { serial := 1, name := .text "a", relativeOffset := 0 } .signed32] []]
      size := 2 }
  program := {}

/-- The second stage makes the structure again, under the name of a conflict. -/
theorem importTypes_outgrows :
    let filled := (importTypes outgrownSession).2
    let again := (importTypes (filled.anew {})).2
    filled.typeAt? 0 = some 0 ∧ filled.program.registry.keys = [.text "S"] ∧
      again.typeAt? 0 = some 2 ∧
      again.program.registry.keys = [.text "S", .text "S.conflict"] := by
  decide +kernel

/-- A structure with a member of a structure that declares no size and comes later. -/
def unsizedSession : Session where
  document :=
    { types :=
        [.composite { serial := 0, name := .text "A", sizeBits := 32 } true []
           [.typeName { serial := 1, name := .text "b", relativeOffset := 0 }
             ⟨.text "B", -1, none⟩] [],
         .composite { serial := 2, name := .text "B" } true []
           [.builtIn { serial := 3, name := .text "x", relativeOffset := 0 } .signed32] []]
      size := 4 }
  program := {}

/-- How long the members of an entry's composite are. -/
def Session.lengthsOf (s : Session) (k : Nat) : List Int :=
  match (s.typeAt? k).bind s.program.arena.composite? with
  | some c => c.components.map (·.length)
  | none => []

-- what declares no size is found again whatever its size is, but then the member is longer
example :
    let filled := (importTypes unsizedSession).2
    let again := (importTypes (filled.anew {})).2
    again.program.registry.keys = [.text "A", .text "B"] ∧ filled.lengthsOf 0 = [1] ∧
      again.lengthsOf 0 = [4] := by
  decide +kernel

end Import

end StabsImport

import StabsImport.Proofs.Agreement
import StabsImport.Proofs.Repetition
import StabsImport.Proofs.Stagewise

/-!
# Types once imported stay as they are

The later stages, and all that asks for a type, still make types and fill the composites they make.
But once the types of a document have been imported every structure, union and enumeration of the
table has its type, so nothing reaches one that is registered. Main statement:
`importTypes_permanent`, about any calls that follow an import of types.
-/

namespace StabsImport

open Document (Node)

/-! ## Types that are kept -/

theorem TypeObject.Matches.self {R : TypeId → TypeId → Prop} {t : TypeObject}
    (h : ∀ x ∈ t.leads, R x x) : t.Matches R t := by
  have all {xs : List TypeId} (hx : ∀ x ∈ xs, R x x) : List.Forall₂ R xs xs :=
    List.forall₂_same.mpr hx
  cases t with
  | pointer target size => exact .pointer (h target (by simp [TypeObject.leads, TypeObject.links]))
  | array element count => exact .array (h element (by simp [TypeObject.leads, TypeObject.links]))
  | named name shape =>
      cases shape with
      | signature returns parameters =>
          refine .signature (h returns (by simp [TypeObject.leads, TypeObject.links])) (all fun x hx => h x ?_)
          simp [TypeObject.leads, TypeObject.links, hx]
      | composite c =>
          refine .composite ⟨rfl, rfl, List.forall₂_same.mpr fun m hm => ?_⟩
          exact ⟨rfl, h m.type (List.mem_map_of_mem hm), rfl, rfl, rfl, rfl⟩
      | _ => exact .leaf rfl

namespace Arena

variable {a b : Arena}

theorem Sound.leads_lt (h : a.Sound) {id x : TypeId} {t : TypeObject} (ht : a.get? id = some t)
    (hx : x ∈ t.leads) : x < a.size := by
  have linked (hl : x ∈ t.links) : x < a.size :=
    Nat.lt_trans (h.linked ht x hl) (lt_size_of_get? ht)
  cases t with
  | named name shape =>
      cases shape with
      | composite c =>
          obtain ⟨m, hm, rfl⟩ := List.mem_map.mp hx
          exact h.placed ht m hm
      | _ => exact linked hx
  | _ => exact linked hx

/-- Types that are kept lead to types that are kept. -/
theorem isMatching_of_kept (ha : a.Sound) (kept : ∀ {id}, id < a.size → b.get? id = a.get? id) :
    IsMatching a b fun x y => x = y ∧ x < a.size := by
  rintro x _ ⟨rfl, hx⟩
  have hget : a.get? x = some a.objects[x] := Array.getElem?_eq_getElem hx
  exact ⟨_, _, hget, (kept hx).trans hget, .self fun y hy => ⟨rfl, ha.leads_lt hget hy⟩⟩

/-- So they look the same for good. -/
theorem portrait_of_kept (ha : a.Sound) (hb : b.Sound) (room : a.room = none)
    (room' : b.room = none) (kept : ∀ {id}, id < a.size → b.get? id = a.get? id) {id : TypeId}
    (h : id < a.size) : b.portrait id = a.portrait id :=
  ((isMatching_of_kept ha kept).portrait_eq ha hb room room' ⟨rfl, h⟩).symm

end Arena

namespace Import

open Program (MovesWithin)

variable {s t : Session} {may : TypeId → Prop}

/-! ## Calls -/

/-- What may be asked of an import once it has begun. A type may be asked for where there is no
node. -/
inductive Call where
  | functions
  | globals
  | entry (index : Int)
  | type (node : Option Node) (hint : Json)
  | variable_ (node : Option Node)

namespace Call

/-- The session a call leaves behind, whatever it ends with. -/
def make (s : Session) : Call → Session
  | functions => (importFunctions s).2
  | globals => (importGlobals s).2
  | entry index => (typeAt index s).2
  | type node hint => (optionalTypeOf node hint s).2
  | variable_ node => (variableTypeOf node s).2

def makeAll (s : Session) (calls : List Call) : Session := calls.foldl make s

/-- The nodes that are handed over are as those of a document. -/
def WellTyped : Call → Prop
  | type node hint => (∀ n ∈ node, n.WellTyped) ∧ hint.IsName
  | variable_ node => ∀ n ∈ node, n.WellTyped
  | _ => True

/-- A relation that leads on from step to step leads over a call if it does over all that the stages
do and over all resolution. -/
theorem make_preserves {R : Session → Session → Prop} [Naming R] (h : Staged SameTypes R)
    (entries : ∀ index, Preserves R (typeAt index)) (s : Session) (call : Call) :
    R s (call.make s) := by
  have functions (d : Document.FunctionDefinition) (file : Document.SourceFile) :
      FunctionEdits SameTypes d file :=
    { make := fun _ => KeepsTypes.ite (Program.keepsTypes_createFunction _ _ _ _)
        (Program.keepsTypes_createFunction _ _ _ _)
      drop := fun _ => KeepsTypes.get.bind fun p => keepsTypes_dropStale _ _ _
      rename := fun _ => Program.keepsTypes_renameFunction _ _ _
      comment := fun _ => Program.keepsTypes_editFunction _ _
      returns := fun _ _ => Program.keepsTypes_setReturnType _ _
      parameters := fun _ _ => Program.keepsTypes_replaceParameters _ _
      lines := keepsTypes_forM (fun _ => Program.keepsTypes_setComment _ _ _) _
      inlined := keepsTypes_forM (fun _ => Program.keepsTypes_setComment _ _ _) _
      locals := fun _ _ _ _ => Program.keepsTypes_addLocal _ _ _ _ }
  have globals (v : Document.Variable) : GlobalEdits SameTypes v :=
    ⟨fun _ _ => Program.keepsTypes_createData _ _ _ _, Program.keepsTypes_createLabel _ _ _⟩
  cases call with
  | functions => exact (h.importFunctions fun x _ _ => h.functionWork (functions x.1 x.2)).snd
  | globals => exact (h.importGlobals (fun v => h.placeGlobal (globals v)) s).snd
  | entry index => exact (entries index).apply s
  | type node hint =>
      cases node with
      | none => exact Stepwise.refl s
      | some n => exact (h.typed n hint).apply s
  | variable_ node =>
      cases node with
      | none =>
          have missing : Preserves R (variableTypeOf none) :=
            .onTypeFault ((Preserves.throw _).bind fun _ => .sizedType _) fun _ =>
              (Preserves.diagnose _ _).bind fun _ => .undefined1
          exact missing.apply s
      | some n => exact (h.varied n).apply s

theorem makeAll_preserves {R : Session → Session → Prop} [Naming R] (h : Staged SameTypes R)
    (entries : ∀ index, Preserves R (typeAt index)) (s : Session) (calls : List Call) :
    R s (makeAll s calls) := by
  induction calls generalizing s with
  | nil => exact Stepwise.refl s
  | cons call rest ih => exact Stepwise.trans (make_preserves h entries s call) (ih _)

/-- A call on a sound session takes nothing back. -/
theorem make_after (hs : s.Sound) (hr : s.room = none) {call : Call} (hc : call.WellTyped) :
    After { cuts := True } s (call.make s) := by
  have allows (n : Nat) : s.room.allows n = true := Room.allows_of_eq_none hr n
  have hl := settles_of_cuts s.document fun _ => False
  cases call with
  | functions => exact (importFunctions_leads hl hs.ready hr).after
  | globals => exact (importGlobals_leads hl hs.ready hr).after
  | entry index => exact (typeAt_yields hl hs.ready (allows _)).after
  | type node hint =>
      cases node with
      | none => exact .refl hs
      | some n => exact (typeOf_yields hl (hc.1 n rfl) hs.ready hc.2 (allows _)).after
  | variable_ node =>
      cases node with
      | none =>
          have missing : Yields { cuts := True } (optionalTypeOf none .null) s (fun _ _ => False)
              TypeFault := .throw hs rfl
          have made : Yields _ _ _ _ NoFault :=
            variableType_yields (allows _) missing fun _ _ h => h
          exact made.after
      | some n =>
          have made : Yields _ _ _ _ NoFault :=
            variableTypeOf_yields hl (hc n rfl) hs.ready (allows _)
          exact made.after

theorem makeAll_after (hs : s.Sound) (hr : s.room = none) {calls : List Call}
    (hc : ∀ call ∈ calls, call.WellTyped) : After { cuts := True } s (makeAll s calls) := by
  induction calls generalizing s with
  | nil => exact .refl hs
  | cons call rest ih =>
      have hfirst := make_after hs hr (hc call List.mem_cons_self)
      exact hfirst.trans (ih hfirst.sound (hfirst.room.trans hr)
        fun c hm => hc c (List.mem_cons_of_mem _ hm))

end Call

/-! ## Frozen types -/

/-- Once every structure, union and enumeration of the table has its type, nothing is registered,
and of the types that are there only such change as may. -/
def Frozen (may : TypeId → Prop) (s s' : Session) : Prop :=
  s.IsListed → s'.program.registry = s.program.registry ∧
    s.program.arena.size ≤ s'.program.arena.size ∧
    (∀ {id}, id < s.program.arena.size → ¬ may id →
      s'.program.arena.get? id = s.program.arena.get? id) ∧ s'.IsListed

theorem Frozen.of_types {s' : Session} (document : s'.document = s.document)
    (table : s'.table = s.table) (prepared : s'.isPrepared = s.isPrepared)
    (types : s'.program.registry = s.program.registry ∧
      s'.program.arena = s.program.arena) : Frozen may s s' := by
  intro hs
  refine ⟨types.1, Nat.le_of_eq (congrArg Arena.size types.2.symm), fun _ _ => by rw [types.2], ?_⟩
  simpa only [Session.IsListed, Session.typeAt?, document, table, prepared] using hs

theorem Frozen.fresh {u : Session} {id : TypeId} (h : Frozen may s t)
    (hid : s.program.arena.size ≤ id) (h' : Frozen (fun k => may k ∨ k = id) t u) :
    Frozen may s u := by
  intro hs
  obtain ⟨hr, hle, hkept, ht⟩ := h hs
  obtain ⟨hr', hle', hkept', hu⟩ := h' ht
  refine ⟨hr'.trans hr, Nat.le_trans hle hle', fun {k} hk hm => ?_, hu⟩
  have hne : ¬ (may k ∨ k = id) := by
    rintro (hm' | rfl)
    · exact hm hm'
    · omega
  exact (hkept' (Nat.lt_of_lt_of_le hk hle) hne).trans (hkept hk hm)

theorem Frozen.mono {wide : TypeId → Prop} (h : Frozen may s t) (sub : ∀ id, may id → wide id) :
    Frozen wide s t := fun hs =>
  have ⟨hr, hle, hkept, ht⟩ := h hs
  ⟨hr, hle, fun hk hm => hkept hk fun hm' => hm (sub _ hm'), ht⟩

theorem Frozen.of_quiet (h : Quiet may s t) : Frozen may s t := by
  intro hs
  refine ⟨h.registry, h.size_le, fun hk hm => h.kept hk hm, h.prepared hs.1, fun k hk => ?_⟩
  rw [h.document] at hk
  exact h.entry hs.1 k (hs.2 k hk)

instance : Framing Frozen where
  additive _ :=
    { refl := fun _ => .of_types rfl rfl rfl ⟨rfl, rfl⟩
      trans := fun h h' => h.fresh (Nat.le_refl _) (h'.mono fun _ => .inl)
      push := fun s t => .of_quiet (Additive.push s t)
      report := fun _ _ => .of_types rfl rfl rfl ⟨rfl, rfl⟩
      share := fun _ _ _ => .of_types rfl rfl rfl ⟨rfl, rfl⟩
      inside := fun _ h hs => h hs }
  quiet := .of_quiet
  fresh {_ s _} t h := (Frozen.of_quiet (Additive.push s t)).fresh (Nat.le_refl _) h

/-- No structure, union or enumeration of the table is resolved again. -/
instance : FramesEntries Frozen where
  entries _ s index node _ hnode hunset he := by
    by_cases hs : s.IsListed
    · refine resolvePlain_frame he index ?_ s
      cases hn : node.isNominal with
      | false => rfl
      | true => exact absurd hunset (hs.2 _ ⟨node, hnode, hn⟩)
    · exact Runs.of_all (fun _ _ h => absurd h hs) fun _ _ h => absurd h hs

theorem frozen_staged : Staged SameTypes (Frozen may) where
  edited h := .of_types rfl rfl rfl ⟨h.registry, h.arena⟩
  counted _ _ := .of_types rfl rfl rfl ⟨rfl, rfl⟩
  prepared := prepare_quiet.framing
  checked := isCancelled_quiet.framing
  typed := typeOf_frame
  varied := variableTypeOf_frame
  pointed := .pointerTo

/-! ## After an import of types -/

/-- What any calls leave of the types that are there, and of the table. -/
structure Permanent (s t : Session) : Prop where
  registry : t.program.registry = s.program.registry
  /-- Registered or not, a type is the same object, and looks the same. -/
  types : ∀ {id}, id < s.program.arena.size →
    t.program.arena.get? id = s.program.arena.get? id ∧
      t.program.arena.portrait id = s.program.arena.portrait id
  registered : ∀ {name id}, s.program.registry.get? name = some id → id < s.program.arena.size
  entries : ∀ {k id}, s.typeAt? k = some id → t.typeAt? k = some id ∧ id < s.program.arena.size

/-- Where every structure, union and enumeration has its type no call changes any type. -/
theorem makeAll_permanent (hs : s.Sound) (hr : s.room = none) (listed : s.IsListed)
    {calls : List Call} (hc : ∀ call ∈ calls, call.WellTyped) :
    Permanent s (Call.makeAll s calls) := by
  have ha := Call.makeAll_after hs hr hc
  have hfrozen : Frozen (fun _ => False) s (Call.makeAll s calls) :=
    Call.makeAll_preserves frozen_staged (typeAt_frame _) s calls
  obtain ⟨hregistry, -, hkept, -⟩ := hfrozen listed
  have kept {id : TypeId} (hid : id < s.program.arena.size) := hkept hid not_false
  refine ⟨hregistry, fun hid => ⟨kept hid, ?_⟩, hs.program.lt_size, fun he => ⟨?_, hs.entry_lt he⟩⟩
  · exact Arena.portrait_of_kept hs.program.arena ha.sound.program.arena hs.naming
      ha.sound.naming kept hid
  · exact (ha.entry he).resolve_right fun hr => hr.1

theorem Session.IsListed.after {L : Scope} (h : s.IsListed) (ha : After L s t) : t.IsListed := by
  refine ⟨ha.prepared h.1, fun k hk hunset => ?_⟩
  rw [ha.document] at hk
  exact h.2 k hk (ha.unset hunset)

/-- An import of types that was not cancelled gives every structure, union and enumeration its
type. -/
theorem importTypes_listed (h : Reached s)
    (uncancelled : (importTypes s).2.monitor.isCancelled = false) :
    (importTypes s).2.IsListed := by
  obtain ⟨shells, hreg, ha, listed, -⟩ := registerTypes_leads (I := Hosted s.document) h uncancelled
    (fun h _ => h) (registerEntry_hosts _) fun _ _ _ hk => absurd hk (Nat.not_lt_zero _)
  obtain ⟨filled, hfilled, hv, -⟩ := importTypes_of_registerTypes h hreg ha listed
  rw [hfilled]
  exact listed.after hv

/-- Once the types of a document were imported, and that was not cancelled, no calls change the
registered types, what any type looks like, or an entry of the table that has its type. -/
theorem importTypes_permanent (h : Reached s)
    (uncancelled : (importTypes s).2.monitor.isCancelled = false) {calls : List Call}
    (hc : ∀ call ∈ calls, call.WellTyped) :
    Permanent (importTypes s).2 (Call.makeAll (importTypes s).2 calls) :=
  have ⟨hs, hr⟩ := h.types.sound
  makeAll_permanent hs hr (importTypes_listed h uncancelled) hc

/-- A structure without a name, with one of the table in it. -/
def nestingNode : Node :=
  .composite { serial := 8 } true []
    [.typeName { serial := 9, name := .text "first", relativeOffset := 0 } ⟨.text "a", -1, none⟩] []

theorem nestingNode_wellTyped : nestingNode.WellTyped := by
  refine Document.Node.wellTyped_composite (.inl rfl) _ ?_ _
  simpa using Document.Node.wellTyped_typeName (.inr ⟨_, rfl⟩) (.inr ⟨_, rfl⟩)

/-- Both stages, an entry, and the structure that stands outside the table, more than once. -/
def mutualCalls : List Call :=
  [.functions, .entry 2, .type (some nestingNode) .null, .globals, .variable_ (some nestingNode),
    .type none .null, .functions]

theorem mutualCalls_wellTyped : ∀ call ∈ mutualCalls, call.WellTyped := by
  have node : ∀ n ∈ some nestingNode, n.WellTyped := by
    simpa using nestingNode_wellTyped
  simp only [mutualCalls, List.forall_mem_cons]
  exact ⟨trivial, trivial, ⟨node, .inl rfl⟩, trivial, node, ⟨nofun, .inl rfl⟩, trivial, nofun⟩

theorem importTypes_permanent_mutual :
    Permanent (importTypes mutualSession).2
      (Call.makeAll (importTypes mutualSession).2 mutualCalls) :=
  importTypes_permanent (.new mutualSession_isNew) (by decide +kernel) mutualCalls_wellTyped

end Import

end StabsImport

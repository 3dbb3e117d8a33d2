import StabsImport.Proofs.Termination

/-!
# Cycles through structures

Once the first phase of the type stage is over, every structure, union and enumeration of the table
has its type, and every reference that leads to one answers that very type, in all that follows.
So only circles among the other entries could come back to an entry in the course of resolution.
-/

namespace StabsImport.Import

open Document (Node TypeReference FunctionDefinition SourceFile)

variable {s t : Session} {α : Type}

/-- What resolution and the later stages make of a session without ever cutting a loop. -/
def Later (s t : Session) : Prop := After { cuts := False } s t

theorem prepare_of_isPrepared (h : t.isPrepared = true) : prepare t = (.ok (), t) := by
  rw [prepare, Runs.bind_apply]
  show (if t.isPrepared = true then pure () else _ : ImportM Unit) t = _
  rw [if_pos h]
  rfl

theorem inside_of_unlimited (hr : s.room = none) (ht : t.room = none) (calls : Nat)
    {m : ImportM α} {r : Except Fault α} (h : m s = (r, t)) : inside calls m s = (r, t) := by
  obtain ⟨d, p, j, mo, k, mi, o, ta, ip, ca, st, room⟩ := s
  obtain ⟨d', p', j', mo', k', mi', o', ta', ip', ca', st', room'⟩ := t
  subst hr ht
  simp only [inside, Room.allows_none, if_true, Room.inside_none, h]

theorem Session.Sound.isPrepared (hs : t.Sound) {k : Nat} {id : TypeId}
    (h : t.typeAt? k = some id) : t.isPrepared = true := by
  cases hp : t.isPrepared with
  | true => rfl
  | false => simp [Session.typeAt?, hs.unprepared hp] at h

theorem knownEntry_of_entry (hs : t.Sound) {k : Nat} {id : TypeId} (h : t.typeAt? k = some id)
    (opened : List Nat) : knownEntry? opened k t = (.ok (some id), t) := by
  have hk := Session.typeAt?_eq_some.mp h
  have hlt : k < t.table.size := (Array.getElem?_eq_some_iff.mp hk).1
  have hin : (decide ((k : Int) < 0) || decide ((t.table.size : Int) ≤ k)) = false := by
    simp only [Bool.or_eq_false_iff, decide_eq_false_iff_not]
    omega
  refine Runs.eq_ok ?_
  rw [ knownEntry?, Runs.bind_iff]
  refine Runs.of_eq (prepare_of_isPrepared (hs.isPrepared h)) ?_
  rw [Runs.bind_iff, Runs.get_iff]
  simp only [hin, Bool.false_eq_true, if_false, Int.toNat_natCast, hk, Runs.pure_iff, and_self]

/-- An entry that has a type answers it, and nothing else happens. -/
theorem typeAtWithin_of_entry (hs : t.Sound) (hr : t.room = none) {k : Nat} {id : TypeId}
    (h : t.typeAt? k = some id) (budget : Nat) (opened : List Nat) :
    typeAtWithin budget opened k t = (.ok id, t) := by
  have hk := knownEntry_of_entry hs h opened
  cases budget with
  | zero =>
      refine inside_of_unlimited hr hr 1 (Runs.eq_ok ?_)
      rw [Runs.bind_iff]
      exact Runs.of_eq hk ⟨rfl, rfl⟩
  | succ budget =>
      refine inside_of_unlimited hr hr 1 (Runs.eq_ok ?_)
      rw [Runs.bind_iff]
      exact Runs.of_eq hk ⟨rfl, rfl⟩

theorem typeAt_of_entry (hs : t.Sound) (hr : t.room = none) {k : Nat} {id : TypeId}
    (h : t.typeAt? k = some id) : typeAt k t = (.ok id, t) :=
  typeAtWithin_of_entry hs hr h t.document.types.length []

/-- A reference that leads to an entry answers what that entry does. -/
theorem createType_of_enter {enter : Int → ImportM TypeId} (hp : t.isPrepared = true)
    (hr : t.room = none) {r : TypeReference} (hname : r.typeName.IsName) (hv : r.isVoid = false)
    {k : Nat} {id : TypeId} (he : entryOf? t.document r = some (k : Int))
    (enters : enter k t = (.ok id, t)) (c : Document.Common) (hint : Json) :
    createType enter (.typeName c r) hint t = (.ok id, t) := by
  have hl : lookUp r t = (.ok (some (k : Int)), t) := by
    refine Runs.eq_ok ?_
    rw [lookUp, Runs.bind_iff]
    refine Runs.of_eq (prepare_of_isPrepared hp) ?_
    rw [Runs.bind_iff, Runs.get_iff]
    simp only [hname.isKey, Bool.not_true, Bool.and_false, Bool.false_and, Bool.false_eq_true,
      if_false]
    exact ⟨he, rfl⟩
  rw [createType]
  refine inside_of_unlimited hr hr 2 (Runs.eq_ok ?_)
  have hv : ¬ (decide (r.typeName = .text "void") && r.number.isNone) = true := by
    rw [Bool.not_eq_true]
    exact hv
  rw [resolveReference, if_neg hv, Runs.bind_iff]
  refine Runs.of_eq (inside_of_unlimited hr hr 2 rfl) ?_
  rw [Runs.bind_iff]
  refine Runs.of_eq hl ?_
  exact Runs.of_eq enters ⟨rfl, rfl⟩

theorem createType_of_entry (hs : t.Sound) (hr : t.room = none) {r : TypeReference}
    (hname : r.typeName.IsName) (hv : r.isVoid = false) {k : Nat} {id : TypeId}
    (he : entryOf? t.document r = some (k : Int)) (h : t.typeAt? k = some id)
    (budget : Nat) (opened : List Nat) (c : Document.Common) (hint : Json) :
    createType (typeAtWithin budget opened) (.typeName c r) hint t = (.ok id, t) :=
  createType_of_enter (hs.isPrepared h) hr hname hv he
    (typeAtWithin_of_entry hs hr h budget opened) c hint

/-- A type that is registered for an entry may stand in the place of a member. -/
theorem Session.IsRegistered.solid {node : Node} {id : TypeId} (h : t.IsRegistered node id) :
    (t.program.arena.extent id).solid = t.program.arena.extent id := by
  obtain ⟨own, shape, hg, hfits, -⟩ := h
  rw [Arena.extent_named hg, Extent.solid, if_neg]
  intro he
  cases shape with
  | void => cases node <;> exact hfits
  | _ => cases he

/-- So a field that is a reference to one is placed with that very type, or refused. -/
theorem fillFields_of_entry (hs : t.Sound) (hr : t.room = none) {r : TypeReference}
    (hname : r.typeName.IsName) (hv : r.isVoid = false) {k : Nat} {node : Node} {id : TypeId}
    (he : entryOf? t.document r = some (k : Int)) (h : t.typeAt? k = some id)
    (registered : t.IsRegistered node id) {shell : TypeId} {owner : Json} {composite : Composite}
    (hshell : t.program.arena.get? shell = some (.named owner (.composite composite)))
    (index : Nat) (c : Document.Common) :
    (fillFields typeAt shell index [.typeName c r] t).2.program.arena.get? shell =
      some (.named owner (.composite ((Member.field index (.typeName c r)).place composite id
        (t.program.arena.extent id)))) := by
  let field := Node.typeName c r
  have allows (n : Nat) : t.room.allows n = true := Room.allows_of_eq_none hr n
  have hinside : ({ t with room := t.room.inside 1 } : Session) = t := by
    cases t
    cases hr
    rfl
  have placed {u : Session} (hu : Puts (.field index field) shell id t u) :
      u.program.arena.get? shell = some (.named owner (.composite
        ((Member.field index field).place composite id (t.program.arena.extent id)))) := by
    obtain ⟨own, v, hg, hstands, rfl⟩ := hu owner composite hshell
    rw [Member.placed, registered.solid] at hstands ⊢
    rw [View.StandsFor, if_pos rfl] at hstands
    rw [hstands]
    exact Arena.get?_set_self _ (Arena.lt_size_of_get? (hg.kept hshell))
  have hplace : Yields { cuts := True } (placeField shell field (fieldName field index) id) t _ _ :=
    hs.placeField ⟨owner, composite, hshell, rfl⟩ (hs.entry_lt h) index field
  have hmade (hint : Json) : createType typeAt field hint t = (.ok id, t) :=
    createType_of_enter (hs.isPrepared h) hr hname hv he (typeAt_of_entry hs hr h) c hint
  have howner : Yields { cuts := True } (typeName shell) t _ NoFault := hs.typeName shell
  obtain ⟨shown, _, hshown, -, rfl, -⟩ := howner.exists_ok
  refine Runs.snd (P := fun u : Session => u.program.arena.get? shell = _) ?_
  rw [fillFields.eq_3 _ _ _ _ _ (fun _ _ _ h => by cases h), Runs.bind_iff, runs_onTypeFault,
    runs_inside, if_pos (allows 1), hinside, Runs.bind_iff]
  refine Runs.of_eq hshown ?_
  rw [Runs.bind_iff]
  refine Runs.of_eq (hmade _) ?_
  simp only [fillFields_nil, Runs.pure_iff]
  refine Runs.mono hplace (fun _ _ h => ?_) fun e u h => ?_
  · have hkept := placed h.2
    exact hkept
  · have hkept := placed h.2.2
    have hreport : Preserves Gains (reportField shell (fieldName field index) e) :=
      .reportField _ _ _
    rw [if_pos h.2.1]
    exact Runs.mono (hreport _) (fun _ _ hg => hg.kept hkept) fun _ _ hg => hg.kept hkept

/-- What holds of a session, of the one in which all its shells are registered, and of the one in
which they are filled. -/
structure CyclesClosed (s shells filled : Session) : Prop where
  /-- Every structure, union and enumeration has a registered type of its own kind. -/
  nominal : ∀ {k node}, s.document.types[k]? = some node → node.isNominal = true →
    ∃ id, shells.typeAt? k = some id ∧ filled.typeAt? k = some id ∧ filled.IsRegistered node id
  /-- A reference to it answers that very type from there on. -/
  resolves : ∀ {t}, Later shells t → ∀ {r : TypeReference} {k : Nat} {id}, r.typeName.IsName →
    r.isVoid = false → entryOf? s.document r = some (k : Int) → IsNominalEntry s.document k →
    shells.typeAt? k = some id → ∀ budget opened c hint,
    createType (typeAtWithin budget opened) (.typeName c r) hint t = (.ok id, t)
  /-- A field that is a reference to it is placed with that very type, or refused. -/
  placed : ∀ {t}, Later shells t → ∀ {r : TypeReference} {k : Nat} {id}, r.typeName.IsName →
    r.isVoid = false → entryOf? s.document r = some (k : Int) → IsNominalEntry s.document k →
    shells.typeAt? k = some id → ∀ {shell owner composite},
    t.program.arena.get? shell = some (.named owner (.composite composite)) → ∀ index c,
    (fillFields typeAt shell index [.typeName c r] t).2.program.arena.get? shell =
      some (.named owner (.composite ((Member.field index (.typeName c r)).place composite id
        (t.program.arena.extent id))))
  later : Later shells filled
  fillEntry : ∀ {t}, Later shells t → ∀ {k node}, s.document.types[k]? = some node →
    Later shells (fillEntry k node t).2
  /-- So does every session in the course of a fill, with some of the members placed. -/
  fill : ∀ {t}, Later shells t → ∀ {c isRecord bases fields members},
    (Node.composite c isRecord bases fields members).WellTyped →
    ∀ {id}, t.IsComposite id (kindOf isRecord) → ∀ i j,
    Later shells (fill typeAt id isRecord (bases.take i) (fields.take j) t).2
  typeAt : ∀ {t}, Later shells t → ∀ index, Later shells (typeAt index t).2
  typeOf : ∀ {t}, Later shells t → ∀ {node : Node}, node.WellTyped →
    Later shells (typeOf node .null t).2
  importFunctions : ∀ {t}, Later shells t → Later shells (importFunctions t).2
  /-- In the course of the stage some of the functions are made, and some of the parameters and the
  locals of the next one. -/
  functions : ∀ {t}, Later shells t → ∀ n,
    Later shells (importFunctionsFrom ((definitions s.document).take n) t).2
  parameters : ∀ {t}, Later shells t → ∀ {x}, x ∈ definitions s.document → ∀ n,
    Later shells (parametersOf ((x.1.type.parameters.getD []).take n) t).2
  locals : ∀ {t}, Later shells t → ∀ {x}, x ∈ definitions s.document → ∀ entry n,
    Later shells (addLocals entry ((stackLocals x.1).entries.take n) t).2
  importGlobals : ∀ {t}, Later shells t → Later shells (importGlobals t).2
  globals : ∀ {t}, Later shells t → ∀ n,
    Later shells (importGlobalsFrom ((s.document.files.flatMap (·.globals)).take n) t).2
  /-- No loop is cut before, either. -/
  journal : ∃ notices, filled.journal.toList = s.journal.toList ++ notices ∧
    ∀ n ∈ notices, ¬ IsLoopNotice n
  /-- Over a regular document the types are what their nodes describe, with the members and the
  references among them. -/
  described : ∀ pointerSize, Listing s.document pointerSize registration 0 s → NoLoop filled →
    Orderly s.document pointerSize { cuts := False } {} filled

theorem Later.entry {k : Nat} {id : TypeId} (h : Later s t) (he : s.typeAt? k = some id) :
    t.typeAt? k = some id :=
  (Extends.entry h.toExtends he).resolve_right fun hr => hr.1

/-- What is left between the phases and at the end of an import of types that is not cancelled, if
no circles lead through plain entries only. -/
theorem importTypes_phases (hs : s.Sound) (hr : s.room = none) (acyclic : IsAcyclic s.document)
    (uncancelled : (importTypes s).2.monitor.isCancelled = false) :
    ∃ shells filled, registerTypes s = (.ok true, shells) ∧ importTypes s = (.ok (), filled) ∧
      After registration s shells ∧ Ready s.document (IsNominalEntry s.document) shells ∧
      Later shells filled ∧ ∀ pointerSize, Listing s.document pointerSize registration 0 s →
        NoLoop filled → Orderly s.document pointerSize { cuts := False } {} filled := by
  have allows (n : Nat) {t : Session} (ht : t.room = s.room) : t.room.allows n = true :=
    Room.allows_of_eq_none (ht.trans hr) n
  have listing (pointerSize : Int) := registerTypes_yields
    (Listing.ignoresMonitor s.document pointerSize _) (registerEntry_yields _ _) hs (allows _ rfl)
  obtain ⟨done, u, hreg, ha, hdone⟩ := (listing 0).exists_ok
  rw [importTypes_apply, hreg] at uncancelled ⊢
  cases done with
  | false =>
      simp only [Bool.false_eq_true, if_false] at hdone
      rw [hdone] at uncancelled
      cases uncancelled
  | true =>
      simp only [if_true] at hdone
      have hready : Ready s.document (IsNominalEntry s.document) u :=
        ⟨ha.sound, ha.document, hdone.1⟩
      have hsettles : Settles s.document (IsNominalEntry s.document) False :=
        .inr ⟨acyclic, fun _ h => h⟩
      have filling (pointerSize : Int) := fillFrom_yields
        (Filling.ignoresMonitor s.document pointerSize _) (fillEntry_yields _ hsettles) hready
        (allows _ ha.room) (.all _)
      obtain ⟨_, v, hfill, hv, -⟩ := (filling 0).exists_ok
      refine ⟨u, v, rfl, hfill, ha, hready, hv, fun pointerSize hl hloop => ?_⟩
      obtain ⟨_, u', hreg', -, hdone'⟩ := (listing pointerSize).exists_ok
      obtain ⟨_, v', hfill', -, hdone''⟩ := (filling pointerSize).exists_ok
      rw [hreg] at hreg'
      rw [hfill] at hfill'
      cases hreg'
      cases hfill'
      simp only [if_true] at hdone'
      have hlist := hdone'.2.1 fun _ hg => hl.gains hg
      dsimp only at uncancelled
      rw [hfill] at uncancelled
      rw [Nat.zero_add] at hdone''
      exact (hdone'' uncancelled hloop (.of_listing hlist hdone.1 fun _ h => h)).done
        (Nat.le_refl _)

/-- An import of types that is not cancelled closes every circle through a structure, a union or an
enumeration, if there are no others. -/
theorem importTypes_cyclesClosed (h : Reached s) (acyclic : IsAcyclic s.document)
    (uncancelled : (importTypes s).2.monitor.isCancelled = false) :
    ∃ shells filled, registerTypes s = (.ok true, shells) ∧ importTypes s = (.ok (), filled) ∧
      CyclesClosed s shells filled := by
  obtain ⟨hs, hr⟩ := h.sound
  obtain ⟨u, v, hreg, himp, ha, hready, hv, described⟩ :=
    importTypes_phases hs hr acyclic uncancelled
  have hsettles : Settles s.document (IsNominalEntry s.document) False :=
    .inr ⟨acyclic, fun _ h => h⟩
  have hroom : u.room = none := ha.room.trans hr
  have allows (n : Nat) {t : Session} (ht : Later u t) : t.room.allows n = true := by
    rw [Extends.room ht.toExtends, hroom]
    rfl
  have onward {t : Session} (ht : Later u t) : Ready s.document (IsNominalEntry s.document) t :=
    hready.after ht
  have leads {t : Session} (ht : Later u t) {α : Type} {m : ImportM α} {ok : α → Prop}
      (bad : Fault → Prop) (h : Stage.Leads ⟨s.document, IsNominalEntry s.document, False,
        t.program.convention⟩ (stageNeed s.document) m bad ok) : Later u (m t).2 :=
    After.trans ht (h (onward ht).holds (allows _ ht)).after
  have fits (convention : CallingConvention) {x : FunctionDefinition × SourceFile}
      (hx : x ∈ definitions s.document) :
      FunctionFits ⟨s.document, IsNominalEntry s.document, False, convention⟩
        (stageNeed s.document) x.1 :=
    definitionFits hs.typed rfl (Nat.le_refl _) hx
  refine ⟨u, v, hreg, himp, ?_⟩
  constructor
  · intro k node hnode hnom
    cases hk : u.typeAt? k with
    | none => exact absurd hk (hready.set k ⟨node, hnode, hnom⟩)
    | some id =>
        exact ⟨id, rfl, hv.entry hk, hv.sound.nominal (hv.entry hk)
          (by rw [Extends.document hv.toExtends, ha.document]; exact hnode) hnom⟩
  · intro t ht r k id hname hvoid he hnom hk budget opened c hint
    refine createType_of_entry ht.sound ((Extends.room ht.toExtends).trans hroom) hname hvoid ?_
      (ht.entry hk) budget opened c hint
    rw [(onward ht).document]
    exact he
  · intro t ht r k id hname hvoid he hnom hk shell owner composite hshell index c
    obtain ⟨node, hnode, hn⟩ := hnom
    have he' := ht.entry hk
    rw [← (onward ht).document] at he hnode
    exact fillFields_of_entry ht.sound ((Extends.room ht.toExtends).trans hroom) hname hvoid he he'
      (ht.sound.nominal he' hnode hn) hshell index c
  · exact hv
  · intro t ht k node hnode
    have hf : Yields _ _ _ _ NoFault :=
      fillEntry_yields 0 hsettles (onward ht) (allows _ ht) hnode
    exact After.trans ht hf.after
  · intro t ht c isRecord bases fields members hn id hid i j
    have hf : Yields _ _ _ _ NoFault :=
      fill_ends hsettles (hn.take i j) (onward ht) hid (allows _ ht)
    exact After.trans ht hf.after
  · intro t ht index
    exact After.trans ht (typeAt_yields hsettles (onward ht) (allows _ ht)).after
  · intro t ht node hn
    exact After.trans ht (typeOf_yields hsettles hn (onward ht) (.inl rfl) (allows _ ht)).after
  · intro t ht
    exact After.trans ht (importFunctions_leads hsettles (onward ht)
      ((Extends.room ht.toExtends).trans hroom)).after
  · intro t ht n
    exact leads ht _ (importFunctionsFrom_leads hsettles fun x hx =>
      fits _ (List.mem_of_mem_take hx))
  · intro t ht x hx n
    exact leads ht (fun _ => True) (parametersOf_leads hsettles fun v hv =>
      (fits _ hx).parameters (List.mem_of_mem_take hv))
  · intro t ht x hx entry n
    exact leads ht (fun _ => True) (addLocals_leads hsettles entry
      (fits t.program.convention hx).reports fun v hv =>
      (fits _ hx).stackLocals (List.mem_of_mem_take hv))
  · intro t ht
    exact After.trans ht (importGlobals_leads hsettles (onward ht)
      ((Extends.room ht.toExtends).trans hroom)).after
  · intro t ht n
    refine leads ht (fun _ => True) (importGlobalsFrom_leads hsettles fun v hv => ?_)
    obtain ⟨file, hfile, hmem⟩ := List.mem_flatMap.mp (List.mem_of_mem_take hv)
    exact globalFits hs.typed hfile hmem
  · obtain ⟨ns, hn, hl⟩ := ha.journal
    obtain ⟨ns', hn', hl'⟩ := hv.journal
    refine ⟨ns ++ ns', by rw [hn', hn, List.append_assoc], fun n hm hloop => ?_⟩
    rcases List.mem_append.mp hm with hm | hm
    · exact hl n hm hloop
    · exact hl' n hm hloop
  · exact described

/-- A structure and a union that point to each other, one of them by way of a named pointer. -/
def mutualDocument : Document where
  types :=
    [.composite { serial := 0, name := .text "a", sizeBits := 32 } true []
       [.typeName { serial := 1, name := .text "b", relativeOffset := 0 }
         ⟨.text "bp", -1, none⟩] [],
     .composite { serial := 2, name := .text "b", sizeBits := 32 } false []
       [.pointer { serial := 3, name := .text "a" } true
         (.typeName { serial := 4 } ⟨.text "a", -1, none⟩)] [],
     .pointer { serial := 5, name := .text "bp" } true
       (.typeName { serial := 6 } ⟨.text "b", -1, none⟩)]
  size := 7

def mutualSession : Session := { document := mutualDocument, program := {} }

theorem mutualSession_isNew : mutualSession.IsNew := by
  have name (t : String) : (Json.text t).IsName := .inr ⟨t, rfl⟩
  have unnamed : Json.null.IsName := .inl rfl
  refine .of_document ⟨?_, nofun⟩
  simp only [mutualDocument, List.forall_mem_cons]
  refine ⟨Node.wellTyped_composite (name _) _ ?_ _, Node.wellTyped_composite (name _) _ ?_ _,
    Node.wellTyped_pointer (name _) _ (Node.wellTyped_typeName unnamed (name _)), nofun⟩
  · simpa using Node.wellTyped_typeName (name _) (name _)
  · simpa using Node.wellTyped_pointer (name _) _ (Node.wellTyped_typeName unnamed (name _))

theorem mutualDocument_acyclic : IsAcyclic mutualDocument := by
  -- the only entry of the sort leads to a structure
  have third {k : Nat} (h : IsPlainEntry mutualDocument k) : k = 2 := by
    obtain ⟨node, hn, hp⟩ := h
    match k, hn with
    | 0, rfl => cases hp
    | 1, rfl => cases hp
    | 2, _ => rfl
  have none (i j : Nat) : ¬ PlainMentions mutualDocument i j := by
    rintro ⟨hi, hj, node, hn, r, ⟨c, hr⟩, -, he⟩
    obtain rfl := third hi
    obtain rfl := third hj
    cases hn
    cases hr with
    | part hp hw =>
        cases List.mem_singleton.mp hp
        cases hw with
        | self => exact absurd he (by decide +kernel)
        | part hp _ => cases hp
  intro i h
  cases h with
  | single h => exact none _ _ h
  | tail _ h => exact none _ _ h

theorem importTypes_cyclesClosed_mutual :
    ∃ shells filled, registerTypes mutualSession = (.ok true, shells) ∧
      importTypes mutualSession = (.ok (), filled) ∧ CyclesClosed mutualSession shells filled :=
  importTypes_cyclesClosed (.new mutualSession_isNew) mutualDocument_acyclic (by decide +kernel)

end StabsImport.Import

import StabsImport.Proofs.Shells

/-!
# What the type stage does

First every structure, union and enumeration of the table gets its type, whatever it had before.
Then the structures and unions are filled, and from there on no entry is given another type. A
session that is new is orderly in between, and again at the end.
-/

namespace StabsImport

namespace Monitor

/-- A check answers whether the work is cancelled from there on. -/
theorem check_isCancelled (m : Monitor) : m.check.2.isCancelled = m.check.1 := by
  unfold check
  split
  · next h => exact h
  · next h =>
      split
      · simpa using h
      · rfl
      · simpa using h

end Monitor

namespace Import

open Document (Node Base)

variable {s : Session} {d : Document} {isSet : Nat → Prop} {C : Prop}
  {bad : Fault → Session → Prop}

theorem After.monitor {L : Scope} (hs : s.Sound) (m : Monitor) :
    After L s { s with monitor := m } where
  toExtends := { Extends.refl s with }
  sound := { hs with }

theorem Gains.monitor (s : Session) (m : Monitor) : Gains s { s with monitor := m } :=
  ⟨rfl, rfl, fun h => h, rfl, fun _ => rfl, rfl, List.prefix_rfl⟩

theorem isCancelled_yields {L : Scope} (hs : s.Sound) :
    Yields L isCancelled s
      (fun b s' => b = s'.monitor.isCancelled ∧ ∃ m, s' = { s with monitor := m }) bad := by
  refine Yields.get ?_
  refine (Yields.modify (P := fun _ s' => s' = { s with monitor := s.monitor.check.2 })
    (After.monitor hs _) rfl).bind ?_
  rintro _ t ht rfl
  exact .pure ht.sound ⟨(Monitor.check_isCancelled _).symm, _, rfl⟩

/-- What is said of a session, up to an entry of the table, is not changed by a check of the
monitor. -/
def IgnoresMonitor (I : Nat → Session → Prop) : Prop :=
  ∀ {k s}, I k s → ∀ m, I k { s with monitor := m }

/-- The nodes stand in the table from an entry on. -/
def StandFrom (d : Document) (index : Nat) (nodes : List Node) : Prop :=
  nodes <+: d.types.drop index

namespace StandFrom

variable {index : Nat} {node : Node} {rest : List Node}

theorem head (h : StandFrom d index (node :: rest)) : d.types[index]? = some node := by
  obtain ⟨more, hmore⟩ := h
  rw [← List.head?_drop, ← hmore]
  rfl

theorem tail (h : StandFrom d index (node :: rest)) : StandFrom d (index + 1) rest := by
  obtain ⟨more, hmore⟩ := h
  refine ⟨more, ?_⟩
  rw [← List.tail_drop, ← hmore]
  rfl

theorem all (d : Document) : StandFrom d 0 d.types := List.prefix_rfl

theorem take (d : Document) (n : Nat) : StandFrom d 0 (d.types.take n) := List.take_prefix n _

end StandFrom

/-- What is registered for an entry becomes its type, whether or not it had one before. -/
theorem register_yields {L : Scope} (hp : s.isPrepared = true) (hrep : L.replaces) {index : Nat}
    (hfree : ¬ L.isOpen index) {node : Node} (hnode : s.document.types[index]? = some node)
    {type : ImportM TypeId} {P : TypeId → Session → Prop}
    (h : Yields L (do edit (Program.addType (← type))) s
      (fun id t => t.IsRegistered node id ∧ P id t) NoFault) (handle : Fault → ImportM Unit) :
    Yields L (onTypeFault (do setEntry index (← edit (Program.addType (← type)))) handle) s
      (fun _ s' => s'.typeAt? index ≠ none ∧ ∃ id t, P id t ∧ index < t.table.size ∧
        s' = { t with table := t.table.setIfInBounds index (some id) }) NoFault := by
  refine Yields.onTypeFault_of_noFault ?_
  rw [← bind_assoc]
  refine h.bind ?_
  rintro id t ht ⟨hreg, hid⟩
  have hlt : index < t.table.size := by
    rw [ht.sound.prepared (ht.prepared hp), ht.document]
    exact (List.getElem?_eq_some_iff.mp hnode).1
  refine (setEntry_yields ht.sound (.inr hrep) hfree hreg.lt_size (ht.document ▸ hnode)
    fun _ => hreg).mono ?_ fun _ _ _ h => h
  rintro _ _ - rfl
  refine ⟨?_, id, t, hid, hlt, rfl⟩
  rw [typeAt?_setEntry id hlt]
  nofun

/-- In the course of registration no loop is cut. -/
abbrev registration : Scope := { cuts := False, replaces := True }

/-- To register an entry gives it a type, if it is to have one, and preserves this. -/
def RegistersEach (d : Document) (I : Nat → Session → Prop) : Prop :=
  ∀ ⦃s⦄, s.Sound → s.document = d → s.isPrepared = true → s.room.allows reportingCalls = true →
    ∀ {index node}, d.types[index]? = some node →
      Yields registration (registerEntry index node) s
        (fun _ s' => (node.isNominal = true → s'.typeAt? index ≠ none) ∧
          (I index s → I (index + 1) s')) NoFault

theorem registerEntry_yields (d : Document) (pointerSize : Int) :
    RegistersEach d (Listing d pointerSize registration) := by
  intro s hs hd hp hr index node hnode
  have hnode' : s.document.types[index]? = some node := hd ▸ hnode
  have ht : node.WellTyped := hs.typed.types node (List.mem_of_getElem? hnode')
  obtain ⟨name, hname⟩ := entryName_text ht.typed.name index
  have free (h : Listing d pointerSize registration index s) :
      s.program.registry.get? (.text name) = none := by
    rw [← hname]
    exact h.orderly.free hnode (h.unset index (Nat.le_refl _))
  cases node with
  | enumeration c constants =>
      simp only [registerEntry, hname]
      refine (register_yields hp trivial (fun h => h) hnode'
        (hs.addEnumeration hr name c ht.typed.2) _).mono ?_ fun _ _ _ h => h
      rintro _ _ - ⟨hset, id, t, hnew, hin, rfl⟩
      refine ⟨fun _ => hset, fun h => ?_⟩
      obtain ⟨u, hg, hnew⟩ := hnew
      obtain ⟨rfl, rfl⟩ := hnew.of_free (by rw [hg.registry]; exact free h)
      refine (h.gains hg).enlist hnode rfl hname (fun h => h) hin ?_ fun _ hg => .enumeration hg
      rintro ⟨_, _, _, _, _, hc⟩
      rw [hnode] at hc
      cases hc
  | composite c isRecord bases fields members =>
      simp only [registerEntry, hname]
      refine (register_yields hp trivial (fun h => h) hnode'
        (hs.addShell (Room.allows_of_le hr (by decide)) c isRecord bases fields members name)
        _).mono ?_ fun _ _ _ h => h
      rintro _ _ - ⟨hset, id, t, hnew, hin, rfl⟩
      refine ⟨fun _ => hset, fun h => ?_⟩
      obtain ⟨rfl, rfl⟩ := hnew.of_free (free h)
      refine h.enlist hnode rfl hname (fun h => h) hin (fun _ => ⟨_, rfl⟩) fun hw hg => ?_
      have hw := hw ⟨c, isRecord, bases, fields, members, hnode⟩
      exact .composite hg rfl rfl (fun _ => rfl) fun h => absurd hw h
  | _ => exact .pure hs ⟨nofun, fun h => h.skip⟩

/-- Unless it is cancelled, the first phase gives every structure, union and enumeration its type,
and what the registration of each entry preserves holds at its end. -/
theorem registerFrom_yields {I : Nat → Session → Prop} (ignores : IgnoresMonitor I)
    (step : RegistersEach d I) (hs : s.Sound) (hd : s.document = d) (hp : s.isPrepared = true)
    (hr : s.room.allows reportingCalls = true) {index : Nat} {nodes : List Node}
    (hnodes : StandFrom d index nodes) :
    Yields registration (registerFrom index nodes) s
      (fun done s' => if done then
          (∀ k < index + nodes.length, index ≤ k → IsNominalEntry d k → s'.typeAt? k ≠ none) ∧
            (I index s → I (index + nodes.length) s')
        else s'.monitor.isCancelled = true) NoFault := by
  induction nodes generalizing s index with
  | nil =>
      refine .pure hs ?_
      rw [if_pos rfl]
      exact ⟨fun k hk hle => absurd hle (by simp at hk; omega), fun h => h⟩
  | cons node rest ih =>
      refine (isCancelled_yields hs).bind ?_
      rintro b t ht ⟨hb, m, rfl⟩
      cases b with
      | true => exact .pure ht.sound hb.symm
      | false =>
          refine (step ht.sound hd hp hr hnodes.head).bind ?_
          rintro _ u hu ⟨hset, hstep⟩
          refine (ih hu.sound (hu.document.trans hd) (hu.prepared hp) (by rw [hu.room]; exact hr)
            hnodes.tail).mono ?_ fun _ _ _ h => h
          intro done v hv hdone
          cases done with
          | false => exact hdone
          | true =>
              simp only [if_true] at hdone ⊢
              rw [show index + (node :: rest).length = index + 1 + rest.length by
                rw [List.length_cons]; omega]
              refine ⟨fun k hlt hk hnom => ?_, fun h => hdone.2 (hstep (ignores h m))⟩
              rcases Nat.eq_or_lt_of_le hk with rfl | hk
              · obtain ⟨n, hn, hn'⟩ := hnom
                rw [hnodes.head] at hn
                cases hn
                exact fun he => hset hn' (hv.unset he)
              · exact hdone.1 k hlt hk hnom

/-- The room to fill any composite of a document. -/
def fillNeed (d : Document) : Nat := nodeNeed (tableNeed d) (Node.heightOfNodes d.types)

theorem reportingCalls_le_fillNeed (d : Document) : reportingCalls ≤ fillNeed d := by
  have := reportingCalls_le_tableNeed d
  unfold fillNeed nodeNeed
  omega

/-- To fill an entry preserves this. -/
def FillsEach (d : Document) (isSet : Nat → Prop) (C : Prop) (I : Nat → Session → Prop) : Prop :=
  ∀ ⦃s⦄, Ready d isSet s → s.room.allows (fillNeed d) = true →
    ∀ {index node}, d.types[index]? = some node →
      Yields { cuts := C } (fillEntry index node) s
        (fun _ s' => NoLoop s' → I index s → I (index + 1) s') NoFault

theorem fillEntry_yields (pointerSize : Int) (hl : Settles d isSet C) :
    FillsEach d isSet C (Filling d pointerSize { cuts := C }) := by
  intro s hs hr index node hnode
  have hnode' : s.document.types[index]? = some node := hs.document ▸ hnode
  have ht : node.WellTyped := hs.sound.typed.types node (List.mem_of_getElem? hnode')
  have he : Enters d pointerSize { cuts := C } isSet (fun _ => True) (tableNeed d) typeAt :=
    typeAt_enters hl
  refine Yields.get ?_
  split
  · next c isRecord bases fields members shell hshell =>
      have hshell := Session.typeAt?_eq_some.mpr hshell
      have hreg := hs.sound.nominal hshell hnode' rfl
      split
      · refine (fill_yields he (reportingCalls_le_tableNeed d) ht (fun _ _ => trivial) hs
          hreg.isComposite (Room.allows_of_le hr ?_)).mono ?_ fun _ _ _ h => h
        · have hh := Node.height_le_heightOfNodes (List.mem_of_getElem? hnode)
          unfold fillNeed nodeNeed
          omega
        · intro _ u hu hfill hl h
          exact h.fill hnode hshell rfl hfill hu hl
      · next hc =>
          obtain ⟨name, made, hg, -⟩ := hreg.isComposite
          exact absurd (by simp [Arena.composite?, hg, TypeObject.composite?]) hc
  · next hother =>
      refine .pure hs.sound fun _ h => h.skip ?_
      rintro ⟨c, isRecord, bases, fields, members, hc⟩
      rw [hnode, Option.some.injEq] at hc
      cases he : s.typeAt? index with
      | none => exact h.set index ⟨_, hnode, by rw [hc]; rfl⟩ he
      | some shell =>
          exact hother c isRecord bases fields members shell hc (Session.typeAt?_eq_some.mp he)

/-- Unless it is cancelled, what the filling of each entry preserves holds after the second
phase. -/
theorem fillFrom_yields {I : Nat → Session → Prop} (ignores : IgnoresMonitor I)
    (step : FillsEach d isSet C I) (hs : Ready d isSet s)
    (hr : s.room.allows (fillNeed d) = true) {index : Nat} {nodes : List Node} (hnodes : StandFrom d index nodes) :
    Yields { cuts := C } (fillFrom index nodes) s
      (fun _ s' => s'.monitor.isCancelled = false → NoLoop s' → I index s →
        I (index + nodes.length) s') NoFault := by
  induction nodes generalizing s index with
  | nil => exact .pure hs.sound fun _ _ h => h
  | cons node rest ih =>
      refine (isCancelled_yields hs.sound).bind ?_
      rintro b t ht ⟨hb, m, rfl⟩
      have hs' := hs.after ht
      cases b with
      | true =>
          refine .pure ht.sound fun hc => ?_
          rw [← hb] at hc
          cases hc
      | false =>
          refine (step hs' hr hnodes.head).bind ?_
          intro _ u hu hstep
          refine (ih (hs'.after hu) (by rw [hu.room]; exact hr) hnodes.tail).mono ?_
            fun _ _ _ h => h
          intro _ v hv hdone hc hl h
          rw [show index + (node :: rest).length = index + 1 + rest.length by
            rw [List.length_cons]; omega]
          exact hdone hc hl (hstep (hl.before hv.journal_prefix) (ignores h m))

theorem Listing.ignoresMonitor (d : Document) (pointerSize : Int) (L : Scope) :
    IgnoresMonitor (Listing d pointerSize L) :=
  fun h m => h.gains (.monitor _ m)

theorem Filling.ignoresMonitor (d : Document) (pointerSize : Int) (L : Scope) :
    IgnoresMonitor (Filling d pointerSize L) :=
  fun h m => h.gains (.monitor _ m)

/-- The first phase of the stage, from a table that may not be there yet. -/
def registerTypes : ImportM Bool := do
  prepare
  registerFrom 0 (← get).document.types

theorem runs_prepare (s : Session) :
    Runs prepare s (fun _ s' => s'.document = s.document) fun _ s' => s'.document = s.document := by
  rw [prepare, Runs.bind_iff, Runs.get_iff]
  split
  · exact rfl
  · split <;> exact rfl

theorem registerTypes_yields {I : Nat → Session → Prop} (ignores : IgnoresMonitor I)
    (step : RegistersEach s.document I) (hs : s.Sound) (hr : s.room.allows reportingCalls = true) :
    Yields registration registerTypes s
      (fun done s' => if done then
          (∀ k, IsNominalEntry s.document k → s'.typeAt? k ≠ none) ∧
            ((∀ t, Gains s t → I 0 t) → I s.document.types.length s') ∧ s'.isPrepared = true
        else s'.monitor.isCancelled = true) NoFault := by
  refine hs.prepare.bind ?_
  rintro _ t ht ⟨hp, hg⟩
  refine Yields.get ?_
  rw [ht.document]
  refine (registerFrom_yields ignores step ht.sound ht.document hp (by rw [ht.room]; exact hr)
    (.all s.document)).mono ?_ fun _ _ _ h => h
  intro done u hu h
  cases done with
  | false => exact h
  | true =>
      simp only [if_true, Nat.zero_add] at h ⊢
      refine ⟨fun k hk => h.1 k ?_ (Nat.zero_le k) hk, fun hl => h.2 (hl t hg), hu.prepared hp⟩
      obtain ⟨node, hn, -⟩ := hk
      exact (List.getElem?_eq_some_iff.mp hn).1

theorem importTypes_apply (s : Session) :
    importTypes s =
      match registerTypes s with
      | (.ok true, s') => fillFrom 0 s.document.types s'
      | (.ok false, s') => (.ok (), s')
      | (.error e, s') => (.error e, s') := by
  have hd := runs_prepare s
  unfold importTypes registerTypes
  simp only [Runs, Runs.bind_apply,
    show ∀ t, (get : ImportM Session) t = (.ok t, t) from fun _ => rfl] at hd ⊢
  rcases hp : prepare s with ⟨_ | _, t⟩
  · rfl
  · rw [hp] at hd
    rw [← hd]
    dsimp only
    rcases registerFrom 0 t.document.types t with ⟨_ | done, u⟩
    · rfl
    · cases done <;> rfl

/-- The stage always ends. -/
theorem importTypes_yields (hs : s.Sound) (hr : s.room.allows (fillNeed s.document) = true) :
    Yields { cuts := True, replaces := True } importTypes s (fun _ _ => True) NoFault := by
  obtain ⟨done, t, hreg, ha, -⟩ := (registerTypes_yields (Listing.ignoresMonitor s.document 0 _)
    (registerEntry_yields _ 0) hs (Room.allows_of_le hr (reportingCalls_le_fillNeed _))).exists_ok
  have ha' : After { cuts := True, replaces := True } s t :=
    ha.mono (fun h => h.elim) (fun _ h => h) fun h => h
  rw [Yields, Runs, importTypes_apply, hreg]
  cases done with
  | false => exact ⟨ha', trivial⟩
  | true =>
      have hs' : Ready s.document (fun _ => False) t := ⟨ha.sound, ha.document, fun _ h => h.elim⟩
      have hl : Settles s.document (fun _ => False) True := .inl trivial
      obtain ⟨_, u, hfill, hu, -⟩ := (fillFrom_yields (Filling.ignoresMonitor s.document 0 _)
        (fillEntry_yields 0 hl) hs' (by rw [ha.room]; exact hr) (.all _)).exists_ok
      dsimp only
      rw [hfill]
      exact ⟨ha'.trans (hu.mono (fun h => h) (fun _ h => h) fun h => h.elim), trivial⟩

end Import

end StabsImport

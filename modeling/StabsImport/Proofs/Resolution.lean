import StabsImport.Proofs.Walk

/-!
# Resolution

An entry is opened at most once on the way to a type, so the recursion over entries is on the
number of those not open yet. Where an open entry is met again a loop is cut, and unless that
happens every entry ends up with the type that it describes.
-/

namespace StabsImport.Import

open Document (Node Base Variable TypeReference)

variable {L : Scope} {s s' : Session} {d : Document} {pointerSize : Int}
  {bad : Fault → Session → Prop} {isSet : Nat → Prop}

theorem Session.IsRegistered.lt_size {n : Node} {id : TypeId} (h : s.IsRegistered n id) :
    id < s.program.arena.size := by
  obtain ⟨_, _, hg, _⟩ := h
  exact Arena.lt_size_of_get? hg

theorem Session.IsRegistered.isComposite {c : Document.Common} {isRecord : Bool}
    {bases : List Base} {fields members : List Node} {id : TypeId}
    (h : s.IsRegistered (.composite c isRecord bases fields members) id) :
    s.IsComposite id (kindOf isRecord) := by
  obtain ⟨name, shape, hg, hf, _⟩ := h
  cases shape with
  | composite k => exact ⟨name, k, hg, hf⟩
  | _ => cases hf

/-! ## Entries of the table -/

theorem setEntry_yields (hs : s.Sound) {index : Nat} {id : TypeId}
    (hunset : s.typeAt? index = none ∨ L.replaces) (hfree : ¬ L.isOpen index)
    (hid : id < s.program.arena.size) {node : Node}
    (hnode : s.document.types[index]? = some node)
    (nominal : node.isNominal = true → s.IsRegistered node id) :
    Yields L (setEntry index id) s
      (fun _ s' => s' = { s with table := s.table.setIfInBounds index (some id) }) bad := by
  refine .modify (After.enter hs hunset hfree hid fun n hn hnom => ?_) rfl
  rw [hnode] at hn
  cases hn
  exact nominal hnom

section

variable {may : Int → Prop} {entering : Nat} {enter : Int → ImportM TypeId} {index : Nat}

theorem resolveEntry_plain (enter : Int → ImportM TypeId) (index : Nat) {node : Node}
    (h : node.isNominal = false) :
    resolveEntry enter index node = do
      let id ← onTypeFault (createType enter node (entryName node index)) fun e => do
        diagnose typesSource
          s!"Failed to create type {(entryName node index).plain}: {e.message}"
        undefined1
      setEntry index id
      return id := by
  cases node with
  | enumeration | composite => cases h
  | _ => rfl

/-- An entry that was resolved has the type it answered, unless types are replaced. -/
def Taken (d : Document) (pointerSize : Int) (L : Scope) (index : Nat) (s : Session) (id : TypeId)
    (s' : Session) : Prop :=
  Entrance d pointerSize L index s id s' ∧ (s'.typeAt? index = some id ∨ L.replaces)

/-- An enumeration of the table is registered. -/
theorem resolveEnumeration_yields {c : Document.Common} {constants : List (Int × Json)}
    (hnode : d.types[index]? = some (.enumeration c constants)) (hs : Ready d isSet s)
    (hp : s.isPrepared = true) (hunset : s.typeAt? index = none) (hfree : ¬ L.isOpen index)
    (hr : s.room.allows reportingCalls = true) :
    Yields L (resolveEntry enter index (.enumeration c constants)) s
      (Taken d pointerSize L index s) NoFault := by
  have hnode' : s.document.types[index]? = some (.enumeration c constants) := hs.document ▸ hnode
  have ht : (Node.enumeration c constants).WellTyped :=
    hs.sound.typed.types _ (List.mem_of_getElem? hnode')
  obtain ⟨name, hname⟩ := entryName_text ht.typed.name index
  simp only [resolveEntry, hname]
  refine Yields.bind ((Yields.onTypeFault_of_noFault
    (hs.sound.addEnumeration hr name c ht.typed.2)).keepsOpen hunset) ?_
  rintro id t ha ⟨⟨hreg, hnew⟩, hunset'⟩
  have hin : index < t.table.size := by
    rw [ha.sound.prepared (ha.prepared hp), ha.document]
    exact (List.getElem?_eq_some_iff.mp hnode').1
  refine Yields.bind (setEntry_yields ha.sound (.inl hunset') hfree hreg.lt_size
    (ha.document ▸ hnode') fun _ => hreg) ?_
  rintro _ u hu rfl
  refine .pure hu.sound
    ⟨⟨hreg.lt_size, .of_orderly fun w ho => ?_⟩, .inl (typeAt?_setEntry id hin)⟩
  obtain ⟨v, hg, hnew⟩ := hnew
  obtain ⟨rfl, rfl⟩ := hnew.of_free (by rw [hg.registry, ← hname]; exact ho.free hnode hunset)
  exact .enterEnumeration hnode hname hg hunset hfree hin

/-- A structure or union of the table is registered and then filled. -/
theorem resolveComposite_yields {c : Document.Common} {isRecord : Bool} {bases : List Base}
    {fields members : List Node}
    (hnode : d.types[index]? = some (.composite c isRecord bases fields members))
    (he : Enters d pointerSize (L.opening index) isSet may entering enter)
    (hmay : ∀ j, LeadsTo d (.composite c isRecord bases fields members) j → may j)
    (hn : reportingCalls ≤ entering) (hs : Ready d isSet s) (hp : s.isPrepared = true)
    (hunset : s.typeAt? index = none) (hfree : ¬ L.isOpen index)
    (hr : s.room.allows (nodeNeed entering
      (Node.composite c isRecord bases fields members).height) = true) :
    Yields L (resolveEntry enter index (.composite c isRecord bases fields members)) s
      (Taken d pointerSize L index s) NoFault := by
  have hnode' : s.document.types[index]? = some (.composite c isRecord bases fields members) :=
    hs.document ▸ hnode
  have ht : (Node.composite c isRecord bases fields members).WellTyped :=
    hs.sound.typed.types _ (List.mem_of_getElem? hnode')
  obtain ⟨name, hname⟩ := entryName_text ht.typed.name index
  have hn' : 11 ≤ entering := hn
  have hr3 : s.room.allows 3 = true := Room.allows_of_le hr (by unfold nodeNeed; omega)
  simp only [resolveEntry, hname]
  rw [← bind_assoc]
  refine Yields.bind ((hs.sound.addShell hr3 c isRecord bases fields members name).keepsOpen
    hunset) ?_
  rintro shell t ha ⟨⟨hreg, hnew⟩, hunset'⟩
  have hin : index < t.table.size := by
    rw [ha.sound.prepared (ha.prepared hp), ha.document]
    exact (List.getElem?_eq_some_iff.mp hnode').1
  refine Yields.bind (setEntry_yields ha.sound (.inl hunset') hfree hreg.lt_size
    (ha.document ▸ hnode') fun _ => hreg) ?_
  intro _ u hu hu'
  refine Yields.bind (Yields.of_opening (fill_yields he hn ht hmay ((hs.after ha).after hu)
    (hu.isComposite hreg.isComposite) (by rw [hu.room, ha.room]; exact hr))) ?_
  intro _ v hv hfill
  have hset : v.typeAt? index = some shell ∨ L.replaces :=
    (hv.entry (hu' ▸ typeAt?_setEntry shell hin)).imp_right And.left
  refine .pure hv.sound
    ⟨⟨hv.lt_size (hu.lt_size hreg.lt_size), .of_orderly fun w ho => ?_⟩, hset⟩
  obtain ⟨rfl, rfl⟩ := hnew.of_free (by rw [← hname]; exact ho.free hnode hunset)
  subst hu'
  exact .enterComposite hnode hname hunset hfree hin rfl hfill

/-- Any other entry takes what its node describes, or a placeholder. -/
theorem resolvePlain_yields {node : Node} (hnode : d.types[index]? = some node)
    (plain : node.isNominal = false)
    (he : Enters d pointerSize (L.opening index) isSet may entering enter)
    (hmay : ∀ j, LeadsTo d node j → may j) (hn : reportingCalls ≤ entering)
    (hs : Ready d isSet s) (hp : s.isPrepared = true) (hunset : s.typeAt? index = none)
    (hfree : ¬ L.isOpen index) (hr : s.room.allows (nodeNeed entering node.height) = true) :
    Yields L (resolveEntry enter index node) s (Taken d pointerSize L index s) NoFault := by
  have hnode' : s.document.types[index]? = some node := hs.document ▸ hnode
  have ht : node.WellTyped := hs.sound.typed.types _ (List.mem_of_getElem? hnode')
  have hname := entryName_text ht.typed.name index
  have hrep : s.room.allows reportingCalls = true :=
    Room.allows_of_le hr (by unfold nodeNeed; omega)
  rw [resolveEntry_plain enter index plain]
  refine Yields.bind (P := fun id t => (id < t.program.arena.size ∧
    Orders d pointerSize (L.opening index) node.serials s t fun w =>
      Made d pointerSize w t index node id) ∧ t.typeAt? index = none) ?_ ?_
  · refine Yields.keepsOpen (Yields.onTypeFault ((creates he hn ht hmay hs (.inr hname) hr).mono ?_
      fun _ _ _ h => h) (fun _ _ h => h.1) ?_) hunset
    · rintro id t - ⟨hid, ho⟩
      refine ⟨hid, ho.mono fun w _ => ?_⟩
      rintro ⟨e, hd⟩
      exact .plain plain hd
    · rintro e t ha ⟨-, ho⟩
      refine (undefinedFor_yields ha.sound (by rw [ha.room]; exact hrep) fun h =>
        absurd h ?_).mono ?_ fun _ _ _ h => h
      · refine not_isLoopNotice_of_head ?_
        simp [toString, String.toList_append]
      · rintro id u - ⟨hg, hid, -⟩
        exact ⟨Arena.lt_size_of_get? hid, ho.gains hg fun w _ ho hb =>
          .missing plain hb (ho.holds hid rfl)⟩
  · rintro id t ha ⟨⟨hid, ho⟩, hunset'⟩
    have hin : index < t.table.size := by
      rw [ha.sound.prepared (ha.prepared hp), ha.document]
      exact (List.getElem?_eq_some_iff.mp hnode').1
    refine Yields.bind (setEntry_yields ha.sound (.inl hunset') hfree hid (ha.document ▸ hnode')
      fun h => absurd h (by simp [plain])) ?_
    rintro _ u hu rfl
    exact .pure hu.sound ⟨⟨hid, .enterPlain hnode plain hunset hfree hin hunset' ho⟩,
      .inl (typeAt?_setEntry id hin)⟩

/-- An entry that is not open takes a type, with whatever it leads to entered while it is. -/
theorem resolveEntry_yields {node : Node} (hnode : d.types[index]? = some node)
    (he : Enters d pointerSize (L.opening index) isSet may entering enter)
    (hmay : ∀ j, LeadsTo d node j → may j) (hn : reportingCalls ≤ entering)
    (hs : Ready d isSet s) (hp : s.isPrepared = true) (hunset : s.typeAt? index = none)
    (hfree : ¬ L.isOpen index) (hr : s.room.allows (nodeNeed entering node.height) = true) :
    Yields L (resolveEntry enter index node) s (Taken d pointerSize L index s) NoFault := by
  cases node with
  | enumeration c constants =>
      have hrep : s.room.allows reportingCalls = true :=
        Room.allows_of_le hr (by unfold nodeNeed; omega)
      exact resolveEnumeration_yields hnode hs hp hunset hfree hrep
  | composite c isRecord bases fields members =>
      exact resolveComposite_yields hnode he hmay hn hs hp hunset hfree hr
  | _ => exact resolvePlain_yields hnode rfl he hmay hn hs hp hunset hfree hr

end

/-- What an entry in range answers is its type, unless it is open. -/
def Answers (d : Document) (opened : List Nat) (index : Int) (id : TypeId) (s : Session) : Prop :=
  0 ≤ index → index.toNat < d.types.length → index.toNat ∉ opened →
    s.typeAt? index.toNat = some id

/-- What is known of an entry is its type. Of one in range, without a type and not open, nothing
is known. -/
def IsKnown (d : Document) (pointerSize : Int) (L : Scope) (opened : List Nat) (index : Int)
    (s s' : Session) : Option TypeId → Prop
  | some id => Entrance d pointerSize L index s id s' ∧ Answers d opened index id s'
  | none => Gains s s' ∧ s'.isPrepared = true ∧ 0 ≤ index ∧ index.toNat < d.types.length ∧
      s'.typeAt? index.toNat = none ∧ index.toNat ∉ opened

theorem knownEntry_yields (hs : s.Sound) (hd : s.document = d)
    (hr : s.room.allows reportingCalls = true) {opened : List Nat} {index : Int}
    (hloop : 0 ≤ index → index.toNat < d.types.length → s.typeAt? index.toNat = none →
      index.toNat ∈ opened → L.cuts) :
    Yields L ( knownEntry? opened index) s
      (fun r s' => IsKnown d pointerSize L opened index s s' r) bad := by
  refine hs.prepare.bind ?_
  rintro _ t ht ⟨hp, hg⟩
  refine Yields.get ?_
  have hsize : t.table.size = d.types.length := by
    rw [ht.sound.prepared hp, ht.document, hd]
  have hr : t.room.allows reportingCalls = true := by
    rw [ht.room]
    exact hr
  have placeholder (source message : String)
      (h : IsLoopNotice (.diagnostic source message) → L.cuts)
      (ho : ∀ id u, Gains s u → u.program.arena.get? id = some (.undefinedOf 1) →
        .diagnostic source message ∈ u.journal.toList →
        Orders d pointerSize L [] s u fun w => Resolved d u w index id)
      (ha : ∀ id u, Answers d opened index id u) :
      Yields L (do diagnose source message; return some (← undefined1)) t
        (fun r s' => IsKnown d pointerSize L opened index s s' r) bad := by
    rw [show (do diagnose source message; return some (← undefined1) : ImportM (Option TypeId)) =
      (do diagnose source message; undefined1) >>= fun id => pure (some id) by rw [bind_assoc]]
    refine (undefinedFor_yields ht.sound hr h).bind ?_
    rintro id u hu ⟨hg', hid, hn⟩
    exact .pure hu.sound ⟨⟨Arena.lt_size_of_get? hid, ho id u (hg.trans hg') hid hn⟩, ha id u⟩
  dsimp only
  split
  · next hout =>
      simp only [Bool.or_eq_true, decide_eq_true_eq] at hout
      refine placeholder _ _ (fun h => absurd h (not_isLoopNotice_of_last ?_)) ?_ ?_
      · simp [toString, String.toList_append, List.getLast?_cons, List.getLast?_append]
      · intro id u hg' hid _
        exact .of_gains hg' fun w ho => .inr ⟨by rw [← hsize]; exact hout, ho.holds hid rfl⟩
      · intro id u hi hlt _
        omega
  · next hin =>
      have hin' : 0 ≤ index ∧ index.toNat < d.types.length := by
        simp only [Bool.or_eq_true, decide_eq_true_eq] at hin
        omega
      split
      · next id hid =>
          have hid := Session.typeAt?_eq_some.mpr hid
          refine .pure ht.sound
            ⟨⟨ht.sound.entry_lt hid, .of_gains hg fun w _ => .inl ?_⟩, fun _ _ _ => hid⟩
          exact ⟨index.toNat, (Int.toNat_of_nonneg hin'.1).symm, hin'.2, hid⟩
      · next hnone =>
          have hunset : t.typeAt? index.toNat = none := by
            cases he : t.typeAt? index.toNat with
            | none => rfl
            | some id => exact absurd (Session.typeAt?_eq_some.mp he) (hnone id)
          split
          · next hmem =>
              refine placeholder _ _
                (fun _ => hloop hin'.1 hin'.2 (ht.unset hunset) (by simpa using hmem)) ?_
                fun _ _ _ _ hclosed => absurd (by simpa using hmem) hclosed
              intro id u _ _ hn hl
              exact absurd ⟨index, rfl⟩ (hl _ hn)
          · next hmem =>
              exact .pure ht.sound ⟨hg, hp, hin'.1, hin'.2, hunset, by simpa using hmem⟩

/-! ## Loops -/

def IsPlainEntry (d : Document) (k : Nat) : Prop :=
  ∃ node, d.types[k]? = some node ∧ node.isNominal = false

def IsNominalEntry (d : Document) (k : Nat) : Prop :=
  ∃ node, d.types[k]? = some node ∧ node.isNominal = true

/-- One entry mentions another if a reference in its node leads there. -/
def Mentions (d : Document) (i j : Nat) : Prop :=
  ∃ node, d.types[i]? = some node ∧ LeadsTo d node j

def PlainMentions (d : Document) (i j : Nat) : Prop :=
  IsPlainEntry d i ∧ IsPlainEntry d j ∧ Mentions d i j

/-- No entry that is neither a structure, nor a union, nor an enumeration leads to itself over
others of that sort. -/
def IsAcyclic (d : Document) : Prop := ∀ i, ¬ Relation.TransGen (PlainMentions d) i i

/-- The open entries lead to this one, and only plain ones are ever opened. -/
structure Chain (d : Document) (isSet : Nat → Prop) (opened : List Nat) (index : Int) : Prop where
  acyclic : IsAcyclic d
  nominal : ∀ k, IsNominalEntry d k → isSet k
  leads : ∀ k ∈ opened, 0 ≤ index → IsPlainEntry d index.toNat →
    Relation.TransGen (PlainMentions d) k index.toNat

theorem Chain.plain {opened : List Nat} {index : Int} (h : Chain d isSet opened index)
    (hs : Ready d isSet s) {node : Node} (hnode : d.types[index.toNat]? = some node)
    (hunset : s.typeAt? index.toNat = none) : IsPlainEntry d index.toNat := by
  cases hn : node.isNominal with
  | false => exact ⟨node, hnode, hn⟩
  | true => exact absurd hunset (hs.set _ (h.nominal _ ⟨node, hnode, hn⟩))

theorem Chain.not_mem {opened : List Nat} {index : Int} (h : Chain d isSet opened index)
    (hi : 0 ≤ index) (hp : IsPlainEntry d index.toNat) : index.toNat ∉ opened :=
  fun hm => h.acyclic _ (h.leads _ hm hi hp)

theorem Chain.cons {opened : List Nat} {index j : Int} (h : Chain d isSet opened index)
    (hi : 0 ≤ index) (hp : IsPlainEntry d index.toNat) {node : Node}
    (hnode : d.types[index.toNat]? = some node) (hj : LeadsTo d node j) :
    Chain d isSet (index.toNat :: opened) j where
  acyclic := h.acyclic
  nominal := h.nominal
  leads k hk hj' hpj := by
    have hm : PlainMentions d index.toNat j.toNat :=
      ⟨hp, hpj, node, hnode, by rw [Int.toNat_of_nonneg hj']; exact hj⟩
    rcases List.mem_cons.mp hk with rfl | hk
    · exact .single hm
    · exact .tail (h.leads k hk hi hp) hm

/-- The room to resolve an entry while so many others are not open. -/
def entryNeed (d : Document) (unopened : Nat) : Nat :=
  12 + unopened * (4 * Node.heightOfNodes d.types + 3)

theorem entryNeed_succ (d : Document) (unopened : Nat) :
    entryNeed d (unopened + 1) =
      1 + nodeNeed (entryNeed d unopened) (Node.heightOfNodes d.types) := by
  simp only [entryNeed, nodeNeed, Nat.add_one_mul]
  omega

theorem knownEntry_chain (pointerSize : Int) {cuts : Prop} {opened : List Nat} {index : Int}
    (hs : Ready d isSet s) (hr : s.room.allows reportingCalls = true)
    (hloop : cuts ∨ Chain d isSet opened index) :
    Yields { cuts, isOpen := (· ∈ opened) } ( knownEntry? opened index) s
      (fun r s' => IsKnown d pointerSize { cuts, isOpen := (· ∈ opened) } opened index s s' r)
      bad := by
  refine knownEntry_yields hs.sound hs.document hr fun hi hin hunset hmem => ?_
  rcases hloop with hc | hc
  · exact hc
  · exact absurd hmem (hc.not_mem hi (hc.plain hs (List.getElem?_eq_getElem hin) hunset))

theorem Yields.entrance_inside {calls : Nat} {m : ImportM TypeId} {opened : List Nat}
    {index : Int} (hr : s.room.allows calls = true)
    (h : Yields L m { s with room := s.room.inside calls }
      (fun id t => Entrance d pointerSize L index { s with room := s.room.inside calls } id t ∧
        Answers d opened index id t) NoFault) :
    Yields L (Import.inside calls m) s
      (fun id t => Entrance d pointerSize L index s id t ∧ Answers d opened index id t) NoFault :=
  .inside hr (h.mono (fun _ _ _ h => ⟨⟨h.1.1, h.1.2.inside⟩, h.2⟩) fun _ _ _ h => h)

/-- Every entry leads to a type while those not open can all be opened. -/
theorem typeAtWithin_yields {cuts : Prop} {budget : Nat} {opened : List Nat} {index : Int}
    (hs : Ready d isSet s) (hnodup : opened.Nodup) (hlt : ∀ k ∈ opened, k < d.types.length)
    (hbudget : d.types.length ≤ budget + opened.length)
    (hloop : cuts ∨ Chain d isSet opened index)
    (hr : s.room.allows (entryNeed d budget) = true) :
    Yields { cuts, isOpen := (· ∈ opened) } (typeAtWithin budget opened index) s
      (fun id t => Entrance d pointerSize { cuts, isOpen := (· ∈ opened) } index s id t ∧
        Answers d opened index id t) NoFault := by
  induction budget generalizing opened index s with
  | zero =>
      rw [typeAtWithin]
      refine Yields.entrance_inside (Room.allows_of_le hr (by simp [entryNeed])) ?_
      refine (knownEntry_chain pointerSize (hs.inside (s.room.inside 1))
        (Room.allows_inside (Room.allows_of_le hr ?_)) hloop).bind ?_
      · simp [entryNeed, reportingCalls]
      · intro known t ht hk
        cases known with
        | some id => exact .pure ht.sound hk
        | none =>
            obtain ⟨-, -, hi, hin, hunset, hmem⟩ := hk
            -- all entries are open, so this one is
            have hsub : index.toNat :: opened ⊆ List.range d.types.length := fun k hk => by
              rcases List.mem_cons.mp hk with rfl | hk
              · exact List.mem_range.mpr hin
              · exact List.mem_range.mpr (hlt k hk)
            have hle := (List.nodup_cons.mpr ⟨hmem, hnodup⟩).length_le_of_subset hsub
            simp only [List.length_cons, List.length_range] at hle
            omega
  | succ budget ih =>
      rw [entryNeed_succ] at hr
      rw [typeAtWithin]
      refine Yields.entrance_inside (Room.allows_of_le hr (by omega)) ?_
      have hneed : reportingCalls ≤ entryNeed d budget := by simp [entryNeed, reportingCalls]; omega
      refine (knownEntry_chain pointerSize (hs.inside (s.room.inside 1))
        (Room.allows_inside (Room.allows_of_le hr ?_)) hloop).bind ?_
      · unfold nodeNeed
        omega
      · intro known t ht hk
        have hs' := (hs.inside (s.room.inside 1)).after ht
        cases known with
        | some id => exact .pure ht.sound hk
        | none =>
            obtain ⟨hg, hp, hi, hin, hunset, hmem⟩ := hk
            refine Yields.get ?_
            rw [hs'.document, List.getElem?_eq_getElem hin]
            have hnode : d.types[index.toNat]? = some d.types[index.toNat] :=
              List.getElem?_eq_getElem hin
            have he : Enters d pointerSize
                (Scope.opening { cuts, isOpen := (· ∈ opened) } index.toNat) isSet
                (LeadsTo d d.types[index.toNat]) (entryNeed d budget)
                (typeAtWithin budget (index.toNat :: opened)) := by
              intro u j hu hr hj
              rw [show Scope.opening { cuts, isOpen := (· ∈ opened) } index.toNat =
                { cuts, isOpen := (· ∈ index.toNat :: opened) } by simp [Scope.opening]]
              refine (ih hu (List.nodup_cons.mpr ⟨hmem, hnodup⟩) ?_ ?_ ?_ hr).mono
                (fun _ _ _ h => h.1) fun _ _ _ h => h
              · intro k hk
                rcases List.mem_cons.mp hk with rfl | hk
                · exact hin
                · exact hlt k hk
              · rw [List.length_cons]
                omega
              · exact hloop.imp_right fun hc =>
                  hc.cons hi (hc.plain hs' hnode hunset) hnode hj
            refine (resolveEntry_yields hnode he (fun _ h => h) hneed hs' hp hunset hmem ?_).mono
              ?_ fun _ _ _ h => h
            · rw [ht.room]
              refine Room.allows_inside (Room.allows_of_le hr ?_)
              have hh := Node.height_le_heightOfNodes (List.getElem_mem hin)
              unfold nodeNeed
              omega
            · rintro id u - ⟨⟨hid, ho⟩, hset⟩
              rw [Int.toNat_of_nonneg hi] at ho
              exact ⟨⟨hid, .after_gains hg ho⟩, fun _ _ _ => hset.resolve_right fun h => h⟩

/-- The room to resolve any entry of a document. -/
def tableNeed (d : Document) : Nat := entryNeed d d.types.length

theorem reportingCalls_le_tableNeed (d : Document) : reportingCalls ≤ tableNeed d := by
  simp only [tableNeed, entryNeed, reportingCalls]
  omega

/-- Loops are cut, or there are none to cut. -/
def Settles (d : Document) (isSet : Nat → Prop) (cuts : Prop) : Prop :=
  cuts ∨ IsAcyclic d ∧ ∀ k, IsNominalEntry d k → isSet k

variable {C : Prop}

theorem typeAt_enters (hl : Settles d isSet C) :
    Enters d pointerSize { cuts := C } isSet (fun _ => True) (tableNeed d) typeAt := by
  intro s index hs hr _
  refine Yields.get ?_
  rw [hs.document, show ({ cuts := C } : Scope) = { cuts := C, isOpen := (· ∈ []) } by simp]
  have hc : C ∨ Chain d isSet [] index := hl.imp_right fun h => ⟨h.1, h.2, by simp⟩
  exact (typeAtWithin_yields hs List.nodup_nil (by simp) (by simp) hc hr).mono
    (fun _ _ _ h => h.1) fun _ _ _ h => h

/-- Outside all resolution no entry is open, so any in range takes the type it answers. -/
theorem typeAt_answers (hl : Settles d isSet C) (hs : Ready d isSet s) {k : Nat}
    (hk : k < d.types.length) (hr : s.room.allows (tableNeed d) = true) :
    Yields { cuts := C } (typeAt k) s (fun id s' => s'.typeAt? k = some id) NoFault := by
  refine Yields.get ?_
  rw [hs.document, show ({ cuts := C } : Scope) = { cuts := C, isOpen := (· ∈ []) } by simp]
  have hc : C ∨ Chain d isSet [] k := hl.imp_right fun h => ⟨h.1, h.2, by simp⟩
  have hy : Yields { cuts := C, isOpen := (· ∈ []) } (typeAtWithin d.types.length [] k) s
      (fun id t => Entrance d 0 _ k s id t ∧ Answers d [] k id t) NoFault :=
    typeAtWithin_yields hs List.nodup_nil (by simp) (by simp) hc hr
  exact hy.mono (fun _ _ _ h => h.2 (Int.natCast_nonneg k) hk List.not_mem_nil) fun _ _ _ h => h

theorem typeAt_yields (hl : Settles d isSet C) (hs : Ready d isSet s) {index : Int}
    (hr : s.room.allows (tableNeed d) = true) :
    Yields { cuts := C } (typeAt index) s (fun id s' => id < s'.program.arena.size) NoFault := by
  have he : Enters d 0 { cuts := C } isSet (fun _ => True) (tableNeed d) typeAt := typeAt_enters hl
  exact (he hs hr trivial).mono (fun _ _ _ h => h.1) fun _ _ _ h => h

theorem typeOf_creates (hl : Settles d isSet C) {node : Node} (ht : node.WellTyped) :
    Creates d pointerSize { cuts := C } isSet (tableNeed d) typeAt node :=
  creates (typeAt_enters hl) (reportingCalls_le_tableNeed d) ht fun _ _ => trivial

theorem typeOf_yields (hl : Settles d isSet C) {node : Node} (ht : node.WellTyped)
    (hs : Ready d isSet s) {hint : Json} (hh : hint.IsName)
    (hr : s.room.allows (nodeNeed (tableNeed d) node.height) = true) :
    Yields { cuts := C } (typeOf node hint) s (fun id s' => id < s'.program.arena.size)
      TypeFault := by
  have hc : Creates d 0 { cuts := C } isSet (tableNeed d) typeAt node := typeOf_creates hl ht
  exact (hc hs hh hr).mono (fun _ _ _ h => h.1) fun _ _ _ h => h.1

theorem fill_ends (hl : Settles d isSet C) {c : Document.Common} {isRecord : Bool}
    {bases : List Base} {fields members : List Node}
    (ht : (Node.composite c isRecord bases fields members).WellTyped) {shell : TypeId}
    (hs : Ready d isSet s) (hshell : s.IsComposite shell (kindOf isRecord))
    (hr : s.room.allows (nodeNeed (tableNeed d)
      (Node.composite c isRecord bases fields members).height) = true) :
    Yields { cuts := C } (fill typeAt shell isRecord bases fields) s (fun _ _ => True) bad := by
  have he : Enters d 0 { cuts := C } isSet (fun _ => True) (tableNeed d) typeAt := typeAt_enters hl
  exact (fill_yields he (reportingCalls_le_tableNeed d) ht (fun _ _ => trivial) hs hshell hr).mono
    (fun _ _ _ _ => trivial) fun _ _ _ h => h

theorem variableTypeOf_yields (hl : Settles d isSet C) {node : Node} (ht : node.WellTyped)
    (hs : Ready d isSet s)
    (hr : s.room.allows (nodeNeed (tableNeed d) node.height) = true) :
    Yields { cuts := C } (variableTypeOf (some node)) s (fun id s' => id < s'.program.arena.size)
      bad := by
  have hc : Creates d 0 { cuts := C } isSet (tableNeed d) typeAt node := typeOf_creates hl ht
  refine (variableType_yields (Room.allows_of_le hr ?_) (hc hs (.inl rfl) hr)
    fun _ _ h => h.1).mono (fun _ _ _ h => h.1) fun _ _ _ h => h
  have := reportingCalls_le_tableNeed d
  unfold nodeNeed
  omega

end StabsImport.Import

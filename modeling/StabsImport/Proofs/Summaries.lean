import Mathlib.Data.List.Forall2
import StabsImport.Program.Summary
import StabsImport.Proofs.Frames
import StabsImport.Proofs.Reordering

/-!
# Summaries of the types

A summary lists the registered types by name. What it says of a type is told by what the type and
its members look like, so types that match are summed up alike. The types of a table are therefore
summed up in the same way whatever its order. Main statement: `importTypes_reorders`.
-/

namespace StabsImport

/-! ## Types in a summary -/

namespace Arena

variable {a b : Arena} {x y : TypeId} {R : TypeId → TypeId → Prop}

namespace HasNames

theorem componentJson_ok (h : a.HasNames) (c : Component) : ∃ j, a.componentJson c = .ok j := by
  obtain ⟨s, hs⟩ := h c.type
  exact ⟨_, by simp only [componentJson, hs, bind, Except.bind, pure, Except.pure]; rfl⟩

theorem contentJson_ok (h : a.HasNames) (keyText : Json → String) (t : TypeObject) :
    ∃ fields, a.contentJson keyText t = .ok fields := by
  unfold contentJson
  split
  · exact ⟨_, rfl⟩
  · next c =>
      have hcomponents : ∀ m ∈ c.components, ∃ j, a.componentJson m = .ok j :=
        fun m _ => h.componentJson_ok m
      obtain ⟨js, hjs⟩ := exists_mapM_ok hcomponents
      exact ⟨_, by simp only [hjs, bind, Except.bind, pure, Except.pure]; rfl⟩
  · exact ⟨_, rfl⟩

/-- Every type can be summed up. -/
theorem toJson_ok (h : a.HasNames) (keyText : Json → String) (x : TypeId) :
    ∃ j, a.toJson keyText x = .ok j := by
  obtain ⟨s, hs⟩ := h x
  obtain ⟨fields, hf⟩ := h.contentJson_ok keyText ((a.get? x).getD default)
  exact ⟨_, by simp only [toJson, hs, hf, bind, Except.bind, pure, Except.pure]; rfl⟩

end HasNames

namespace IsMatching

variable (ha : a.Sound) (hb : b.Sound) (h : IsMatching a b R)

include ha hb h

theorem contentJson_eq (room : a.room = none) (room' : b.room = none) (keyText : Json → String)
    {t u : TypeObject} (hm : t.Matches R u) :
    a.contentJson keyText t = b.contentJson keyText u := by
  have component {m n : Component} (hmn : m.Matches R n) :
      a.componentJson m = b.componentJson n := by
    have hbits : m.isBitField = n.isBitField := by
      rw [Component.isBitField, Component.isBitField, hmn.bitSize]
    simp only [componentJson, hbits, h.name_eq ha hb room room' hmn.type, hmn.offset, hmn.length,
      hmn.name, hmn.bitSize, hmn.bitOffset]
  cases hm with
  | @leaf t hl =>
      cases t with
      | named name shape =>
          cases shape with
          | composite c =>
              obtain ⟨_, _, components⟩ := c
              obtain rfl : components = [] := List.map_eq_nil_iff.mp hl
              rfl
          | _ => rfl
      | _ => rfl
  | composite hc =>
      have hcomponents := mapM_congr hc.components fun m _ n _ hmn => component hmn
      simp only [contentJson, hcomponents]
  | _ => rfl

/-- Related types are summed up alike. -/
theorem toJson_eq (room : a.room = none) (room' : b.room = none) (keyText : Json → String)
    (hxy : R x y) : a.toJson keyText x = b.toJson keyText y := by
  obtain ⟨t, u, hx, hy, hm⟩ := h x y hxy
  simp only [toJson, hx, hy, Option.getD_some, hm.kind, h.name_eq ha hb room room' hxy,
    h.length_eq ha hb hxy, h.contentJson_eq ha hb room room' keyText hm]

end IsMatching

end Arena

/-! ## Names in order -/

namespace Program

/-- Lists of codes in lexical order. -/
def leLists (a b : List Nat) : Bool := !decide (b < a)

theorem leLists_iff {a b : List Nat} : leLists a b = true ↔ ¬ b < a := by
  rw [leLists, Bool.not_eq_true', decide_eq_false_iff_not]

theorem leLists_trans {a b c : List Nat} (hab : leLists a b) (hbc : leLists b c) : leLists a c := by
  rw [leLists_iff, List.not_lt] at *
  exact List.le_trans hab hbc

theorem leLists_total (a b : List Nat) : leLists a b || leLists b a := by
  rw [Bool.or_eq_true, leLists_iff, leLists_iff, List.not_lt, List.not_lt]
  exact List.le_total a b

theorem leLists_antisymm {a b : List Nat} (hab : leLists a b) (hba : leLists b a) : a = b := by
  rw [leLists_iff, List.not_lt] at *
  exact List.le_antisymm hab hba

/-- What is sorted by codes stands in one order only. -/
theorem mergeSort_codes {xs ys : List (List Nat)} (h : xs.Perm ys) :
    xs.mergeSort leLists = ys.mergeSort leLists := by
  have ordered (l : List (List Nat)) : (l.mergeSort leLists).Pairwise fun a b => leLists a b := by
    refine List.pairwise_mergeSort (fun _ _ _ hab hbc => ?_) (fun a b => ?_) l
    · exact leLists_trans hab hbc
    · exact leLists_total a b
  have hperm : (xs.mergeSort leLists).Perm (ys.mergeSort leLists) :=
    (List.mergeSort_perm xs _).trans (h.trans (List.mergeSort_perm ys _).symm)
  exact hperm.eq_of_pairwise (fun _ _ _ _ => leLists_antisymm) (ordered xs) (ordered ys)

variable {ν : Type} {l l' : Ledger Json ν}

theorem sorted_codes (text : l.keys.all isText = true) :
    (l.sorted leText).map (·.1.codes) = (l.entries.map (·.1.codes)).mergeSort leLists := by
  have isText_of_mem {e : Json × ν} (he : e ∈ l.entries) : isText e.1 = true :=
    List.all_eq_true.mp text e.1 (List.mem_map_of_mem he)
  refine List.map_mergeSort fun e he e' he' => ?_
  have h := isText_of_mem he
  have h' := isText_of_mem he'
  match e, e', h, h' with
  | (.text s, _), (.text t, _), _, _ => rfl

/-- Tables under the same names are gone through in the same order. -/
theorem forall₂_sorted (text : l.keys.all isText = true) (text' : l'.keys.all isText = true)
    (same : (l.entries.map (·.1.codes)).Perm (l'.entries.map (·.1.codes))) :
    List.Forall₂ (fun e e' => e.1.codes = e'.1.codes) (l.sorted leText) (l'.sorted leText) := by
  rw [← List.forall₂_map_right_iff, ← List.forall₂_map_left_iff, List.forall₂_eq_eq_eq,
    sorted_codes text, sorted_codes text', mergeSort_codes same]

theorem byName_of_text (text : l.keys.all isText = true) : byName l = .ok (l.sorted leText) := by
  rw [byName, if_pos]
  rw [text, Bool.or_true]

/-! ## Types by name -/

variable {p : Program}

theorem typesJson_of_text (text : p.registry.keys.all isText = true) (keyText : Json → String) :
    p.typesJson keyText = (p.registry.sorted leText).mapM
      (fun e => p.arena.toJson keyText e.2) >>= fun js => .ok (.list js) := by
  rw [typesJson, byName_of_text text]
  rfl

theorem typesJson_ok (text : p.registry.keys.all isText = true) (hp : p.arena.Sound)
    (room : p.arena.room = none) (keyText : Json → String) :
    ∃ js, p.typesJson keyText = .ok (.list js) := by
  have htypes : ∀ e ∈ p.registry.sorted leText, ∃ j, p.arena.toJson keyText e.2 = .ok j :=
    fun e _ => (hp.hasNames room).toJson_ok keyText e.2
  obtain ⟨js, hjs⟩ := exists_mapM_ok htypes
  exact ⟨js, by rw [typesJson_of_text text, hjs]; rfl⟩

/-- A summary has what each registered type is summed up as, and nothing else. -/
theorem mem_typesJson (text : p.registry.keys.all isText = true) {keyText : Json → String}
    {js : List Json} (h : p.typesJson keyText = .ok (.list js)) {j : Json} :
    j ∈ js ↔ ∃ e ∈ p.registry.entries, p.arena.toJson keyText e.2 = .ok j := by
  rw [typesJson_of_text text] at h
  cases hm : (p.registry.sorted leText).mapM fun e => p.arena.toJson keyText e.2 with
  | error e => rw [hm] at h; cases h
  | ok ks =>
      rw [hm] at h
      cases h
      rw [mem_mapM_ok hm]
      simp only [Ledger.sorted, List.mem_mergeSort]

end Program

namespace Import

open Document (Node)

variable {d d' : Document} {pointerSize : Int} {s t : Session}

/-! ## What is registered -/

/-- The structures, unions and enumerations of the table have types, and these are what is
registered, each under the name of its entry. -/
structure Catalogues (d : Document) (s : Session) : Prop where
  distinct : s.program.registry.Distinct
  listed : ∀ {name id}, s.program.registry.get? name = some id ↔
    ∃ (k : Nat) (node : Node), d.types[k]? = some node ∧ node.isNominal = true ∧
      node.name = name ∧ s.typeAt? k = some id
  set : ∀ {k : Nat} {node : Node}, d.types[k]? = some node → node.isNominal = true →
    ∃ id, s.typeAt? k = some id

namespace Catalogues

theorem of_mem (h : Catalogues d s) {e : Json × TypeId} (he : e ∈ s.program.registry.entries) :
    ∃ (k : Nat) (node : Node), d.types[k]? = some node ∧ node.isNominal = true ∧
      node.name = e.1 ∧ s.typeAt? k = some e.2 :=
  h.listed.mp (h.distinct.get?_of_mem he)

theorem text (h : Catalogues d s) (hd : IsNamed d) :
    s.program.registry.keys.all Program.isText = true := by
  refine List.all_eq_true.mpr fun name hname => ?_
  obtain ⟨e, he, rfl⟩ := List.mem_map.mp hname
  obtain ⟨k, node, hk, -, hn, -⟩ := h.of_mem he
  obtain ⟨t, ht, -⟩ := hd.text node (List.mem_of_getElem? hk)
  rw [← hn, ht]
  rfl

theorem mem_codes (h : Catalogues d s) (hd : IsNamed d) {c : List Nat} :
    c ∈ s.program.registry.entries.map (·.1.codes) ↔
      ∃ node ∈ d.types, node.isNominal = true ∧ node.name.codes = c := by
  rw [List.mem_map]
  constructor
  · rintro ⟨e, he, rfl⟩
    obtain ⟨k, node, hk, hnom, hn, -⟩ := h.of_mem he
    exact ⟨node, List.mem_of_getElem? hk, hnom, congrArg Json.codes hn⟩
  · rintro ⟨node, hmem, hnom, rfl⟩
    obtain ⟨k, hk⟩ := List.getElem?_of_mem hmem
    obtain ⟨id, hid⟩ := h.set hk hnom
    obtain ⟨e, he, hs, -⟩ :=
      Ledger.exists_entry_of_get? (h.listed.mpr ⟨k, node, hk, hnom, rfl, hid⟩)
    obtain ⟨t, ht, -⟩ := hd.text node hmem
    rw [ht] at hs ⊢
    exact ⟨e, he, congrArg Json.codes (Json.same_text_iff.mp hs)⟩

theorem nodup_codes (h : Catalogues d s) (hd : IsNamed d) :
    (s.program.registry.entries.map (·.1.codes)).Nodup := by
  refine List.pairwise_map.mpr ((List.pairwise_map.mp h.distinct).imp_of_mem ?_)
  intro e e' he he' hne hc
  obtain ⟨j, m, hj, -, hm, -⟩ := h.of_mem he
  obtain ⟨k, n, hk, -, hn, -⟩ := h.of_mem he'
  rw [← hm, ← hn] at hc hne
  obtain rfl := hd.eq_of_codes hj hk hc
  rw [hj] at hk
  cases hk
  rw [Key.same_self] at hne
  cases hne

/-- Two sessions that give entries types which are summed up alike have the same summary. -/
theorem typesJson_eq (h : Catalogues d s) (h' : Catalogues d t) (hd : IsNamed d)
    (keyText : Json → String)
    (same : ∀ {k : Nat} {node : Node} {x y}, d.types[k]? = some node → node.isNominal = true →
      s.typeAt? k = some x → t.typeAt? k = some y →
      s.program.arena.toJson keyText x = t.program.arena.toJson keyText y) :
    s.program.typesJson keyText = t.program.typesJson keyText := by
  have hperm := (List.perm_ext_iff_of_nodup (h.nodup_codes hd) (h'.nodup_codes hd)).mpr fun c =>
    (h.mem_codes hd).trans (h'.mem_codes hd).symm
  have hsorted := Program.forall₂_sorted (h.text hd) (h'.text hd) hperm
  have hmap := mapM_congr hsorted (f := fun e => s.program.arena.toJson keyText e.2)
    (g := fun e => t.program.arena.toJson keyText e.2) fun e he e' he' hc => by
      obtain ⟨j, m, hj, hnom, hm, hx⟩ := h.of_mem (List.mem_mergeSort.mp he)
      obtain ⟨k, n, hk, -, hn, hy⟩ := h'.of_mem (List.mem_mergeSort.mp he')
      rw [← hm, ← hn] at hc
      obtain rfl := hd.eq_of_codes hj hk hc
      exact same hj hnom hx hy
  rw [Program.typesJson_of_text (h.text hd), Program.typesJson_of_text (h'.text hd), hmap]

/-- What is registered can be summed up. -/
theorem typesJson_ok (h : Catalogues d s) (hd : IsNamed d) (hs : s.Sound)
    (keyText : Json → String) : ∃ j, s.program.typesJson keyText = .ok j := by
  obtain ⟨js, hjs⟩ := Program.typesJson_ok (h.text hd) hs.program.arena hs.naming keyText
  exact ⟨_, hjs⟩

/-- What is registered over one table is over another order of it. -/
theorem readOver (h : Catalogues d' s) (hr : Reorders d d') {place : Nat → Nat}
    (hplace : ∀ k node, d.types[k]? = some node → d'.types[place k]? = some node) :
    Catalogues d (s.readOver d place) where
  distinct := h.distinct
  listed {name id} := by
    refine h.listed.trans ⟨?_, ?_⟩
    · rintro ⟨j, node, hj, hnom, hn, he⟩
      obtain ⟨k, hk⟩ := hr.exists_entry hj
      exact ⟨k, node, hk, hnom, hn, (hr.carries (s := s) hplace).entry hj hk he⟩
    · rintro ⟨k, node, hk, hnom, hn, he⟩
      rw [typeAt?_readOver (typeAt?_readOver_eq_some he)] at he
      exact ⟨place k, node, hplace k node hk, hnom, hn, he⟩
  set {k node} hk hnom := by
    obtain ⟨id, he⟩ := h.set (hplace k node hk) hnom
    exact ⟨id, (hr.carries (s := s) hplace).entry (hplace k node hk) hk he⟩

end Catalogues

/-! ## The stage of types -/

/-- A table that says the same in every order: entries are known and referred to by name, nodes are
told apart by their numbers, and structures and unions hold their members. -/
structure IsOrderFree (d : Document) (pointerSize : Int) : Prop extends IsNamed d where
  serials : (Node.serialsOfNodes d.types).Nodup
  fit : MembersFit d pointerSize

namespace IsOrderFree

theorem regular (h : IsOrderFree d pointerSize) : Regular d pointerSize where
  names hj hk he := h.eq_of_entryName hj hk he
  serials := h.serials
  fit := h.fit

theorem perm (h : IsOrderFree d pointerSize) (hp : d'.types.Perm d.types) :
    IsOrderFree d' pointerSize where
  toIsNamed := h.toIsNamed.perm hp
  serials := by
    have hs := h.serials
    rw [Regular.serialsOfNodes_eq] at hs ⊢
    exact (hp.flatMap_right _).nodup_iff.mpr hs
  fit := Reorders.membersFit ⟨hp, h.toIsNamed⟩ h.fit

end IsOrderFree

/-- What a session over a new program comes to when the types are imported. -/
theorem Session.IsImportable.catalogues (h : s.IsImportable) (quiet : NoLoop s)
    (hd : IsOrderFree s.document s.program.pointerSize) :
    ∃ filled, importTypes s = (.ok (), filled) ∧ filled.Sound ∧
      Orderly s.document s.program.pointerSize { cuts := False } {} filled ∧
      Catalogues s.document filled := by
  obtain ⟨shells, filled, -, himp, ha, hshells, hv, horderly⟩ :=
    importTypes_phases h.isNew.sound h.isNew.room h.acyclic h.uncancelled
  have hloop : NoLoop filled := (quiet.after ha fun h => h).after hv fun h => h
  have ho := horderly s.program.pointerSize
    (h.isNew.listing h.empty hd.regular registration) hloop
  have hready := hshells.after hv
  have hframe : Frame (fun _ => True) s (importTypes s).2 :=
    (importTypes_frame fun _ => trivial).apply s
  rw [himp] at hframe
  have set {k : Nat} {node : Node} (hk : s.document.types[k]? = some node)
      (hnom : node.isNominal = true) : ∃ id, filled.typeAt? k = some id :=
    Option.ne_none_iff_exists'.mp (hready.set k ⟨node, hk, hnom⟩)
  refine ⟨filled, himp, hv.sound, ho, ?_, ?_, set⟩
  · refine hframe.distinct ?_
    rw [h.empty]
    exact Ledger.distinct_empty
  · intro name id
    constructor
    · intro hr
      obtain ⟨k, node, hk, hnom, hn, he⟩ := ho.registered hr
      rw [hd.entryName_eq (List.mem_of_getElem? hk)] at hn
      exact ⟨k, node, hk, hnom, hn, he⟩
    · rintro ⟨k, node, hk, hnom, rfl, he⟩
      obtain ⟨own, _, hg, -, hr⟩ := hv.sound.nominal he (hready.document.symm ▸ hk) hnom
      obtain ⟨_, hg', -⟩ := (ho.made hk he).named hnom
      rw [hg, Option.some.injEq, TypeObject.named.injEq] at hg'
      rw [← hd.entryName_eq (List.mem_of_getElem? hk) k, ← hg'.1]
      exact hr

/-- A session over another table. -/
def Session.withTypes (s : Session) (types : List Node) : Session :=
  { s with document.types := types }

theorem Session.IsImportable.withTypes (h : s.IsImportable) (hd : IsNamed s.document)
    {types : List Node} (perm : types.Perm s.document.types)
    (uncancelled : (importTypes (s.withTypes types)).2.monitor.isCancelled = false) :
    (s.withTypes types).IsImportable where
  isNew :=
    have hd := h.isNew.document
    { h.isNew with document := ⟨fun n hn => hd.types n (perm.mem_iff.mp hn), hd.files⟩ }
  empty := h.empty
  acyclic := Reorders.isAcyclic ⟨perm, hd⟩ h.acyclic
  uncancelled := uncancelled

/-- However the table is put in order, an import sums up its types in the same way: under the same
names, with the same sizes and members. -/
theorem importTypes_reorders (h : s.IsImportable) (quiet : NoLoop s)
    (hd : IsOrderFree s.document s.program.pointerSize) {types : List Node}
    (perm : types.Perm s.document.types)
    (uncancelled : (importTypes (s.withTypes types)).2.monitor.isCancelled = false)
    (keyText : Json → String) :
    ∃ filled filled' j, importTypes s = (.ok (), filled) ∧
      importTypes (s.withTypes types) = (.ok (), filled') ∧
      filled.program.typesJson keyText = .ok j ∧ filled'.program.typesJson keyText = .ok j := by
  let t := s.withTypes types
  have hr : Reorders s.document t.document := ⟨perm, hd.toIsNamed⟩
  obtain ⟨filled, himp, hs, ho, hc⟩ := h.catalogues quiet hd
  obtain ⟨filled', himp', hs', ho', hc'⟩ :=
    (h.withTypes hd.toIsNamed perm uncancelled).catalogues quiet (hd.perm hr.perm)
  obtain ⟨place, hplace⟩ := hr.exists_place
  -- both sessions are read over the one table
  have hmatching := SameType.isMatching ho (hr.orderly hplace hd.regular ho')
  have hsame := hc.typesJson_eq (hc'.readOver hr hplace) hd.toIsNamed keyText fun hk hnom hx hy =>
    hmatching.toJson_eq hs.program.arena hs'.program.arena hs.naming hs'.naming keyText
      (.entry hk hnom hx hy)
  obtain ⟨j, hj⟩ := hc.typesJson_ok hd.toIsNamed hs keyText
  exact ⟨filled, filled', j, himp, himp', hj, hsame.symm.trans hj⟩

theorem mutualDocument_isOrderFree : IsOrderFree mutualDocument 4 where
  text := by
    simp only [mutualDocument, List.forall_mem_cons]
    exact ⟨⟨_, rfl, by decide⟩, ⟨_, rfl, by decide⟩, ⟨_, rfl, by decide⟩, List.forall_mem_nil _⟩
  codes := by decide
  byName := by
    simp only [mutualDocument, List.forall_mem_cons]
    refine ⟨Node.refersByName_composite _ _ ?_ _, Node.refersByName_composite _ _ ?_ _,
      Node.refersByName_pointer _ _ (Node.refersByName_typeName rfl), List.forall_mem_nil _⟩
    · simpa using Node.refersByName_typeName rfl
    · simpa using Node.refersByName_pointer _ _ (Node.refersByName_typeName rfl)
  serials := mutualDocument_regular.serials
  fit := mutualDocument_regular.fit

theorem importTypes_reorders_mutual :
    ∃ filled filled' j, importTypes mutualSession = (.ok (), filled) ∧
      importTypes (mutualSession.withTypes mutualDocument.types.reverse) = (.ok (), filled') ∧
      filled.program.typesJson Arena.keyText = .ok j ∧
      filled'.program.typesJson Arena.keyText = .ok j :=
  importTypes_reorders mutualSession_isImportable nofun mutualDocument_isOrderFree
    (List.reverse_perm _) (by decide +kernel) _

/-- A session over the table in reverse order. -/
def Session.reversed (s : Session) : Session := s.withTypes s.document.types.reverse

/-- In reverse order the table is not summed up in the same way. -/
def Session.DependsOnOrder (s : Session) : Prop :=
  (importTypes s.reversed).2.monitor.isCancelled = false ∧
    ∃ j, (importTypes s).2.program.typesJson Arena.keyText = .ok j ∧
      (importTypes s.reversed).2.program.typesJson Arena.keyText ≠ .ok j

/-- A registered type that is summed up as none is in the other order tells the orders apart. -/
theorem Session.IsImportable.dependsOnOrder (h : s.IsImportable)
    (uncancelled : (importTypes s.reversed).2.monitor.isCancelled = false)
    (text : (importTypes s).2.program.registry.keys.all Program.isText = true)
    (text' : (importTypes s.reversed).2.program.registry.keys.all Program.isText = true)
    {e : Json × TypeId} (mem : e ∈ (importTypes s).2.program.registry.entries)
    (apart : ∀ e' ∈ (importTypes s.reversed).2.program.registry.entries,
      (importTypes s.reversed).2.program.arena.toJson Arena.keyText e'.2 ≠
        (importTypes s).2.program.arena.toJson Arena.keyText e.2) : s.DependsOnOrder := by
  obtain ⟨hs, hr⟩ := (Reached.types (.new h.isNew)).sound
  obtain ⟨js, hjs⟩ := Program.typesJson_ok text hs.program.arena hs.naming Arena.keyText
  refine ⟨uncancelled, _, hjs, fun hjs' => ?_⟩
  obtain ⟨j, hj⟩ := (hs.program.arena.hasNames hs.naming).toJson_ok Arena.keyText e.2
  have hmem := (Program.mem_typesJson text hjs).mpr ⟨e, mem, hj⟩
  obtain ⟨e', he', hj'⟩ := (Program.mem_typesJson text' hjs').mp hmem
  exact apart e' he' (hj'.trans hj.symm)

theorem grownDocument_isNamed : IsNamed grownDocument where
  text := by
    simp only [grownDocument, List.forall_mem_cons]
    exact ⟨⟨_, rfl, by decide⟩, ⟨_, rfl, by decide⟩, List.forall_mem_nil _⟩
  codes := by decide
  byName := by
    simp only [grownDocument, List.forall_mem_cons]
    refine ⟨Node.refersByName_composite _ _ ?_ _, Node.refersByName_composite _ _ ?_ _,
      List.forall_mem_nil _⟩
    · simp only [List.forall_mem_cons]
      exact ⟨Node.refersByName_typeName rfl, Node.refersByName_builtIn _ _, List.forall_mem_nil _⟩
    · simp only [List.forall_mem_cons]
      exact ⟨Node.refersByName_builtIn _ _, Node.refersByName_builtIn _ _, List.forall_mem_nil _⟩

theorem sharedDocument_isNamed : IsNamed sharedDocument where
  text := by
    simp only [sharedDocument, List.forall_mem_cons]
    exact ⟨⟨_, rfl, by decide⟩, ⟨_, rfl, by decide⟩, List.forall_mem_nil _⟩
  codes := by decide
  byName := by
    simp only [sharedDocument, List.forall_mem_cons]
    refine ⟨Node.refersByName_composite _ _ ?_ _, Node.refersByName_composite _ _ ?_ _,
      List.forall_mem_nil _⟩
    · simpa using Node.refersByName_composite _ _ (by simp) _
    · simpa using Node.refersByName_composite _ _ (by simp) _

/-- The order counts where a structure outgrows its size, since it is placed with the size it has by
then, and where two structures share a node without a name, since the first of them names it. -/
theorem importTypes_dependsOnOrder :
    (grownSession.IsImportable ∧ IsNamed grownDocument ∧ grownSession.DependsOnOrder) ∧
      (sharedSession.IsImportable ∧ IsNamed sharedDocument ∧ sharedSession.DependsOnOrder) := by
  refine ⟨⟨grownSession_isImportable, grownDocument_isNamed, ?_⟩, sharedSession_isImportable,
    sharedDocument_isNamed, ?_⟩
  · exact grownSession_isImportable.dependsOnOrder (by decide +kernel) (by decide +kernel)
      (by decide +kernel) (e := (.text "A", 0)) (by decide +kernel) (by decide +kernel)
  · exact sharedSession_isImportable.dependsOnOrder (by decide +kernel) (by decide +kernel)
      (by decide +kernel) (e := (.text "A", 0)) (by decide +kernel) (by decide +kernel)

end Import

end StabsImport

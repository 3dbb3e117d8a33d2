import Mathlib.Logic.Relation
import StabsImport.Proofs.Agreement

/-!
# Tables in another order

Where the entries of a table have names of their own and are referred to by name only, a node
describes the same type in whatever order the table stands: a reference leads to the same entry,
wherever that is. So a session over one table can be read as one over another order of it.
-/

namespace StabsImport

/-- The codes that a name is put in order by. -/
def Json.codes : Json → List Nat
  | .text t => Text.codes t
  | _ => []

namespace Import

open Document (Node Base Variable TypeReference)

variable {d d' : Document} {pointerSize : Int}

/-- Every entry of the table is named and has a name of its own, and references in it are by name
only. -/
structure IsNamed (d : Document) : Prop where
  text : ∀ n ∈ d.types, ∃ t, n.name = .text t ∧ t ≠ ""
  codes : (d.types.map (·.name.codes)).Nodup
  byName : ∀ n ∈ d.types, n.RefersByName

namespace IsNamed

variable {j k : Nat} {m n node : Node} {name : Json}

theorem perm (h : IsNamed d) (hp : d'.types.Perm d.types) : IsNamed d' where
  text n hn := h.text n (hp.mem_iff.mp hn)
  codes := (hp.map _).nodup_iff.mpr h.codes
  byName n hn := h.byName n (hp.mem_iff.mp hn)

theorem entryName_eq (h : IsNamed d) (hn : node ∈ d.types) (k : Nat) :
    entryName node k = node.name := by
  obtain ⟨t, ht, hne⟩ := h.text node hn
  rw [entryName, nameOr, ht, if_pos]
  simpa [Json.holds] using hne

theorem eq_of_codes (h : IsNamed d) (hj : d.types[j]? = some m) (hk : d.types[k]? = some n)
    (he : m.name.codes = n.name.codes) : j = k := by
  have hlt : j < (d.types.map (·.name.codes)).length := by
    rw [List.length_map]
    exact (List.getElem?_eq_some_iff.mp hj).1
  refine (List.getElem?_inj hlt h.codes).mp ?_
  rw [List.getElem?_map, List.getElem?_map, hj, hk, Option.map_some, Option.map_some, he]

theorem eq_of_node (h : IsNamed d) (hj : d.types[j]? = some node) (hk : d.types[k]? = some node) :
    j = k := h.eq_of_codes hj hk rfl

theorem eq_of_entryName (h : IsNamed d) (hj : d.types[j]? = some m) (hk : d.types[k]? = some n)
    (he : entryName m j = entryName n k) : j = k := by
  rw [h.entryName_eq (List.mem_of_getElem? hj), h.entryName_eq (List.mem_of_getElem? hk)] at he
  exact h.eq_of_codes hj hk (congrArg Json.codes he)

theorem eq_of_same (h : IsNamed d) (hj : d.types[j]? = some m) (hk : d.types[k]? = some n)
    (hm : Key.same m.name name = true) (hn : Key.same n.name name = true) : j = k := by
  obtain ⟨t, ht, -⟩ := h.text n (List.mem_of_getElem? hk)
  have he : Key.same m.name (.text t) = true := Key.same_trans hm (by rw [Key.same_comm, ← ht, hn])
  exact h.eq_of_codes hj hk (by rw [Json.same_text_iff.mp he, ht])

/-- A name leads to the entry of that name. -/
theorem entryNamed?_eq_some (h : IsNamed d) : entryNamed? d name = some k ↔
    name.holds = true ∧ ∃ node, d.types[k]? = some node ∧ Key.same node.name name = true := by
  have entry {p : Node × Nat}
      (hp : p ∈ d.types.zipIdx.filter fun p => Key.same p.1.name name) :
      d.types[p.2]? = some p.1 ∧ Key.same p.1.name name = true := by
    obtain ⟨hm, hs⟩ := List.mem_filter.mp hp
    exact ⟨List.mem_zipIdx_iff_getElem?.mp hm, hs⟩
  cases hh : name.holds with
  | false => simp [entryNamed?, hh]
  | true =>
      have hlast : entryNamed? d name =
          (d.types.zipIdx.filter fun p => Key.same p.1.name name).getLast?.map (·.2) := by
        rw [entryNamed?, hh]
        rfl
      rw [hlast, Option.map_eq_some_iff]
      simp only [true_and]
      constructor
      · rintro ⟨p, hp, rfl⟩
        exact ⟨p.1, entry (List.mem_of_getLast? hp)⟩
      · rintro ⟨node, hk, hs⟩
        have hmem : (node, k) ∈ d.types.zipIdx.filter fun p => Key.same p.1.name name :=
          List.mem_filter.mpr ⟨List.mem_zipIdx_iff_getElem?.mpr hk, hs⟩
        cases hl : (d.types.zipIdx.filter fun p => Key.same p.1.name name).getLast? with
        | none =>
            rw [List.getLast?_eq_none_iff.mp hl] at hmem
            cases hmem
        | some p =>
            obtain ⟨hp, hs'⟩ := entry (List.mem_of_getLast? hl)
            exact ⟨p, rfl, h.eq_of_same hp hk hs' hs⟩

end IsNamed

/-- One table is another in a different order, and says by name what it refers to. -/
structure Reorders (d d' : Document) : Prop where
  perm : d'.types.Perm d.types
  named : IsNamed d

namespace Reorders

variable {j k : Nat} {node : Node} {r : TypeReference} {n : Node} {e : Extent}

theorem symm (h : Reorders d d') : Reorders d' d := ⟨h.perm.symm, h.named.perm h.perm⟩

theorem exists_entry (h : Reorders d d') (hj : d'.types[j]? = some node) :
    ∃ k : Nat, d.types[k]? = some node :=
  List.getElem?_of_mem (h.perm.mem_iff.mp (List.mem_of_getElem? hj))

theorem exists_place (h : Reorders d d') :
    ∃ place : Nat → Nat, ∀ k node, d.types[k]? = some node → d'.types[place k]? = some node := by
  have hplace (k : Nat) :
      ∃ j : Nat, ∀ node, d.types[k]? = some node → d'.types[j]? = some node := by
    cases hk : d.types[k]? with
    | none => exact ⟨0, nofun⟩
    | some node =>
        obtain ⟨j, hj⟩ := h.symm.exists_entry hk
        exact ⟨j, fun _ he => he ▸ hj⟩
  exact Classical.axiomOfChoice hplace

theorem entryName_eq (h : Reorders d d') (hj : d'.types[j]? = some node) (k : Nat) :
    entryName node j = entryName node k := by
  have hmem := h.perm.mem_iff.mp (List.mem_of_getElem? hj)
  rw [h.named.entryName_eq hmem, h.named.entryName_eq hmem]

/-- A reference by name leads to the same node in both tables. -/
theorem entryOf? (h : Reorders d d') (hr : r.number = none) (hj : d'.types[j]? = some node)
    (hk : d.types[k]? = some node) (leads : Import.entryOf? d' r = some (j : Int)) :
    Import.entryOf? d r = some (k : Int) := by
  have unnumbered (d : Document) : entryNumbered? d r = none := by
    rw [entryNumbered?, hr]
    rfl
  rw [Import.entryOf?, unnumbered, Option.none_or, Option.map_eq_some_iff] at leads ⊢
  obtain ⟨i, hi, he⟩ := leads
  obtain rfl : i = j := Int.ofNat_inj.mp he
  obtain ⟨holds, m, hm, hs⟩ := h.symm.named.entryNamed?_eq_some.mp hi
  rw [hj] at hm
  cases hm
  exact ⟨k, h.named.entryNamed?_eq_some.mpr ⟨holds, node, hk, hs⟩, rfl⟩

theorem misses (h : Reorders d d') (hr : r.number = none) (hm : Misses d' pointerSize r) :
    Misses d pointerSize r := by
  intro k node leads hk
  obtain ⟨j, hj⟩ := h.symm.exists_entry hk
  exact hm j node (h.symm.entryOf? hr hk hj leads) hj

/-- What a node takes up does not depend on the order of the table. -/
theorem hasExtent (h : Reorders d d') (he : HasExtent d' pointerSize n e) (hn : n.RefersByName) :
    HasExtent d pointerSize n e := by
  have number {c : Document.Common} {r : TypeReference}
      (hn : (Node.typeName c r).RefersByName) : r.number = none := hn r (Node.refersTo_typeName c r)
  induction he with
  | builtIn => exact .builtIn
  | void hv => exact .void hv
  | missing hs hm => exact .missing hs (h.misses (number hn) hm)
  | nominal hs hl hj hnom =>
      obtain ⟨k, hk⟩ := h.exists_entry hj
      exact .nominal hs (h.entryOf? (number hn) hj hk hl) hk hnom
  | entry hs hl hj hp hb _ ih =>
      obtain ⟨k, hk⟩ := h.exists_entry hj
      refine .entry hs (h.entryOf? (number hn) hj hk hl) hk hp hb (ih ?_)
      exact h.named.byName _ (List.mem_of_getElem? hk)
  | pointer => exact .pointer
  | array _ ih => exact .array (ih (hn.part (List.mem_singleton_self _)))
  | bitField _ ih => exact .bitField (ih (hn.part (List.mem_singleton_self _)))
  | memberPointer => exact .memberPointer
  | functionType => exact .functionType
  | enumeration => exact .enumeration
  | composite _ hz ih =>
      refine .composite (fun _ _ hx => hx) (hz.imp fun m hm e hx => ih _ _ hx ?_)
      exact hn.within (within_of_mem_membersOf hm)

theorem membersFit (h : Reorders d d') (fit : MembersFit d pointerSize) :
    MembersFit d' pointerSize := by
  intro c isRecord bases fields members hmem m hm e he
  have hmem := h.perm.mem_iff.mp hmem
  have hn := (h.named.byName _ hmem).within (within_of_mem_membersOf hm)
  exact fit c isRecord bases fields members hmem m hm e (h.hasExtent he hn)

/-- The same entries mention each other. -/
theorem isAcyclic (h : Reorders d d') (acyclic : IsAcyclic d) : IsAcyclic d' := by
  obtain ⟨place, hplace⟩ := h.symm.exists_place
  refine fun i hi => acyclic (place i) (hi.lift place ?_)
  rintro i j ⟨⟨m, hm, hmp⟩, ⟨n, hn, hnp⟩, node, hi, r, hr, hv, leads⟩
  refine ⟨⟨m, hplace i m hm, hmp⟩, ⟨n, hplace j n hn, hnp⟩, node, hplace i node hi, r, hr, hv, ?_⟩
  have hnumber := h.named.byName node (List.mem_of_getElem? (hplace i node hi)) r hr
  exact h.entryOf? hnumber hn (hplace j n hn) leads

/-! ## Types -/

/-- What is settled in a view over the one table is settled in a view over the other. -/
structure Carries (d d' : Document) (v w : View) : Prop where
  holds : ∀ {id t}, v.holds id t → w.holds id t
  entry : ∀ {j k : Nat} {node : Node} {id}, d'.types[j]? = some node → d.types[k]? = some node →
    v.entry j id → w.entry k id

section

variable {v w : View} {hint : Json} {id : TypeId}

/-- A node describes the same type over both tables. -/
theorem describes (h : Reorders d d') (hv : Carries d d' v w)
    (hd : Describes d' pointerSize v n hint id e) (hn : n.RefersByName) :
    Describes d pointerSize w n hint id e := by
  have number {c : Document.Common} {r : TypeReference}
      (hn : (Node.typeName c r).RefersByName) : r.number = none := hn r (Node.refersTo_typeName c r)
  induction hd with
  | builtIn holds => exact .builtIn (hv.holds holds)
  | void hvoid holds => exact .void hvoid (hv.holds holds)
  | missing hs hm holds => exact .missing hs (h.misses (number hn) hm) (hv.holds holds)
  | nominal hs hl hj hnom is =>
      obtain ⟨k, hk⟩ := h.exists_entry hj
      exact .nominal hs (h.entryOf? (number hn) hj hk hl) hk hnom (hv.entry hj hk is)
  | entry hs hl hj hp hb _ ih =>
      obtain ⟨k, hk⟩ := h.exists_entry hj
      rw [h.entryName_eq hj k] at ih
      refine .entry hs (h.entryOf? (number hn) hj hk hl) hk hp hb (ih ?_)
      exact h.named.byName _ (List.mem_of_getElem? hk)
  | pointer _ holds ih =>
      exact .pointer (ih (hn.part (List.mem_singleton_self _))) (hv.holds holds)
  | array _ stands nonneg holds ih =>
      exact .array (ih (hn.part (List.mem_singleton_self _))) (stands.imp hv.holds) nonneg
        (hv.holds holds)
  | bitField _ ih => exact .bitField (ih (hn.part (List.mem_singleton_self _)))
  | memberPointer pos holds => exact .memberPointer pos (hv.holds holds)
  | @functionType f _ _ _ _ _ _ returned formals holds ih =>
      have part {m : Node} (hm : m ∈ (Node.functionType f).parts) : m.RefersByName := hn.part hm
      refine .functionType (fun _ _ _ _ hd => hd) (returned.imp hv.holds ?_)
        (ParameterIs.forall_imp hv.holds formals ?_) (hv.holds holds)
      · intro m hm hint id e hd
        exact ih _ _ _ _ hd (part (List.mem_append_left _ (Option.mem_toList.mpr hm)))
      · intro p hp hint id e hd
        exact ih _ _ _ _ hd (part (List.mem_append_right _ (List.mem_map_of_mem hp)))
  | enumeration holds => exact .enumeration (hv.holds holds)
  | composite _ places holds ih =>
      refine .composite (fun _ _ _ _ hd => hd) (places.imp hv.holds ?_) (hv.holds holds)
      exact fun m hm hint id e hd => ih _ _ _ _ hd (hn.within (within_of_mem_membersOf hm))

end

end Reorders

/-! ## Sessions -/

variable {L : Scope} {s : Session}

/-- A session over one table as one over another, where a number of an entry there is given for each
number here. -/
def Session.readOver (s : Session) (d : Document) (place : Nat → Nat) : Session :=
  { s with document := d
           table := (Array.range d.types.length).map fun k => s.typeAt? (place k) }

theorem typeAt?_readOver {place : Nat → Nat} {k : Nat} (hk : k < d.types.length) :
    (s.readOver d place).typeAt? k = s.typeAt? (place k) := by
  simp [Session.readOver, Session.typeAt?, hk]

theorem typeAt?_readOver_eq_some {place : Nat → Nat} {k : Nat} {id : TypeId}
    (h : (s.readOver d place).typeAt? k = some id) : k < d.types.length := by
  have hk := Session.typeAt?_eq_some.mp h
  simpa [Session.readOver] using (Array.getElem?_eq_some_iff.mp hk).1

namespace Reorders

variable {place : Nat → Nat}

theorem carries (h : Reorders d d')
    (hplace : ∀ k node, d.types[k]? = some node → d'.types[place k]? = some node) :
    Carries d d' (s.settled {}) ((s.readOver d place).settled {}) where
  holds hg := hg
  entry {j k node id} hj hk he := by
    have hlt : k < d.types.length := (List.getElem?_eq_some_iff.mp hk).1
    obtain rfl : place k = j := h.symm.named.eq_of_node (hplace k node hk) hj
    exact (typeAt?_readOver hlt).trans he

/-- What is made for an entry of the one table is made for it in the other. -/
theorem made (h : Reorders d d')
    (hplace : ∀ k node, d.types[k]? = some node → d'.types[place k]? = some node) {k : Nat}
    {node : Node} {id : TypeId} (hk : d.types[k]? = some node)
    (hm : Made d' pointerSize {} s (place k) node id) :
    Made d pointerSize {} (s.readOver d place) k node id := by
  have hv := h.carries (s := s) hplace
  have hmem := List.mem_of_getElem? hk
  have hname := h.entryName_eq (hplace k node hk) k
  cases hm with
  | enumeration is =>
      rw [hname] at is
      exact .enumeration is
  | composite is kind size untouched places =>
      rw [hname] at is
      refine .composite is kind size (fun hw => hw.elim) fun _ => ?_
      have hp := places nofun
      rw [hname] at hp
      refine hp.imp hv.holds fun m hm hint id e hd => h.describes hv hd ?_
      exact (h.named.byName _ hmem).within (within_of_mem_membersOf hm)
  | plain hp hd =>
      rw [hname] at hd
      exact .plain hp (h.describes hv hd (h.named.byName _ hmem))
  | missing hp hb holds => exact .missing hp hb (hv.holds holds)

/-- An orderly session over the one table is orderly over the other. -/
theorem orderly (h : Reorders d d')
    (hplace : ∀ k node, d.types[k]? = some node → d'.types[place k]? = some node)
    (regular : Regular d pointerSize) {C : Prop} (ho : Orderly d' pointerSize { cuts := C } {} s) :
    Orderly d pointerSize { cuts := C } {} (s.readOver d place) where
  regular := regular
  document := rfl
  pointers := ho.pointers
  composites hw := hw.elim
  pending hw := hw.elim
  registered hr := by
    obtain ⟨j, node, hj, hnom, hn, he⟩ := ho.registered hr
    obtain ⟨k, hk⟩ := h.exists_entry hj
    rw [h.entryName_eq hj k] at hn
    exact ⟨k, node, hk, hnom, hn, (h.carries (s := s) hplace).entry hj hk he⟩
  made hk he := by
    rw [typeAt?_readOver (typeAt?_readOver_eq_some he)] at he
    exact h.made hplace hk (ho.made (hplace _ _ hk) he)
  uncached {k node} hk hu := by
    obtain ⟨hn, ho'⟩ := hu.resolve_right id
    rw [typeAt?_readOver (List.getElem?_eq_some_iff.mp hk).1] at hn
    exact ho.uncached (hplace _ _ hk) (.inl ⟨hn, id⟩)

end Reorders

end Import

end StabsImport

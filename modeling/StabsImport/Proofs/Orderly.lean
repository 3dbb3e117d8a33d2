import Mathlib.Data.List.Nodup
import StabsImport.Proofs.Placing

/-!
# Orderly sessions

In an orderly session every type of the table is what its entry describes, and what is registered
are the structures, unions and enumerations of the table, each under the name of its entry. Types
may be unfinished: a composite whose members are being placed keeps its size, and others may hold
it already, but nothing that is described depends on its members.
-/

namespace StabsImport.Import

open Document (Node Base)

/-- A table whose entries have names of their own, whose nodes are told apart by their numbers, and
whose structures and unions hold their members. -/
structure Regular (d : Document) (pointerSize : Int) : Prop where
  names : ∀ {j k m n}, d.types[j]? = some m → d.types[k]? = some n →
    entryName m j = entryName n k → j = k
  serials : (Node.serialsOfNodes d.types).Nodup
  fit : MembersFit d pointerSize

/-- What is left to do: entries no member of which was looked at, and types that are not
finished. -/
structure Pending where
  entries : Nat → Prop := fun _ => False
  types : TypeId → Prop := fun _ => False

def Pending.opening (w : Pending) (id : TypeId) : Pending :=
  { w with types := fun t => t = id ∨ w.types t }

/-- The finished types, and the entries that have a type. -/
def Session.settled (s : Session) (w : Pending) : View where
  holds id t := s.program.arena.get? id = some t ∧ ¬ w.types id
  entry k id := s.typeAt? k = some id

/-- The entry was not entered yet, or its members are all still to be looked at. -/
def Untouched (L : Scope) (w : Pending) (s : Session) (k : Nat) : Prop :=
  s.typeAt? k = none ∧ ¬ L.isOpen k ∨ w.entries k

/-- The type is what is made for an entry of the table. -/
inductive Made (d : Document) (pointerSize : Int) (w : Pending) (s : Session) (k : Nat) :
    Node → TypeId → Prop where
  | enumeration {c constants id}
      (is : s.program.arena.get? id = some (.named (entryName (.enumeration c constants) k)
        (.enumeration enumerationSize (constantsOf constants)))) :
      Made d pointerSize w s k (.enumeration c constants) id
  | composite {c isRecord bases fields members id} {made : Composite}
      (is : s.program.arena.get? id = some (.named
        (entryName (.composite c isRecord bases fields members) k) (.composite made)))
      (kind : made.kind = kindOf isRecord) (size : made.size = declaredBytes c.sizeBits)
      (untouched : w.entries k → made = .empty (kindOf isRecord) (declaredBytes c.sizeBits))
      (places : ¬ w.types id → Places pointerSize (s.settled w)
        (Describes d pointerSize (s.settled w))
        (entryName (.composite c isRecord bases fields members) k)
        (.empty (kindOf isRecord) (declaredBytes c.sizeBits)) (membersOf isRecord bases fields)
        made) :
      Made d pointerSize w s k (.composite c isRecord bases fields members) id
  | plain {node id} {e : Extent} (plain : node.isNominal = false)
      (described : Describes d pointerSize (s.settled w) node (entryName node k) id e) :
      Made d pointerSize w s k node id
  | missing {node id} (plain : node.isNominal = false)
      (unbuildable : node.isBuildable pointerSize = false)
      (holds : (s.settled w).holds id (.undefinedOf 1)) : Made d pointerSize w s k node id

/-- What holds of a session over a regular document while types are made. -/
structure Orderly (d : Document) (pointerSize : Int) (L : Scope) (w : Pending) (s : Session) :
    Prop where
  regular : Regular d pointerSize
  document : s.document = d
  pointers : s.program.pointerSize = pointerSize
  composites : ∀ {id}, w.types id →
    ∃ name c, s.program.arena.get? id = some (.named name (.composite c))
  pending : ∀ {k}, w.entries k → ∃ id, s.typeAt? k = some id ∧ w.types id
  registered : ∀ {name id}, s.program.registry.get? name = some id →
    ∃ k node, d.types[k]? = some node ∧ node.isNominal = true ∧ entryName node k = name ∧
      s.typeAt? k = some id
  made : ∀ {k node id}, d.types[k]? = some node → s.typeAt? k = some id →
    Made d pointerSize w s k node id
  uncached : ∀ {k node}, d.types[k]? = some node → Untouched L w s k →
    ∀ n ∈ node.serials, s.cache.nodes.get? n = none

variable {d : Document} {pointerSize : Int} {L : Scope} {w w' : Pending} {s s' : Session}

namespace Regular

theorem serialsOfNodes_eq (ns : List Node) :
    Node.serialsOfNodes ns = ns.flatMap (·.serials) := by
  induction ns with
  | nil => rfl
  | cons n ns ih => rw [Node.serialsOfNodes, ih, List.flatMap_cons]

theorem nodup (h : Regular d pointerSize) {k : Nat} {node : Node}
    (hk : d.types[k]? = some node) : node.serials.Nodup := by
  have hs := h.serials
  rw [serialsOfNodes_eq, List.nodup_flatMap] at hs
  exact hs.1 node (List.mem_of_getElem? hk)

theorem apart (h : Regular d pointerSize) {j k n : Nat} {m node : Node}
    (hj : d.types[j]? = some m) (hk : d.types[k]? = some node) (hne : j ≠ k)
    (hn : n ∈ m.serials) : n ∉ node.serials := by
  have hs := h.serials
  rw [serialsOfNodes_eq, List.nodup_flatMap, List.pairwise_iff_getElem] at hs
  obtain ⟨hlj, rfl⟩ := List.getElem?_eq_some_iff.mp hj
  obtain ⟨hlk, rfl⟩ := List.getElem?_eq_some_iff.mp hk
  intro hn'
  rcases Nat.lt_or_gt_of_ne hne with hlt | hlt
  · exact hs.2 j k hlj hlk hlt hn hn'
  · exact hs.2 k j hlk hlj hlt hn' hn

end Regular

/-! ## What stays settled -/

theorem settled_within_opening (s : Session) (w : Pending) (id : TypeId) :
    (s.settled (w.opening id)).Within (s.settled w) where
  holds h := ⟨h.1, fun hw => h.2 (.inr hw)⟩
  entry h := h

theorem Gains.settled (h : Gains s s') (w : Pending) : (s.settled w).Within (s'.settled w) where
  holds hg := ⟨h.kept hg.1, hg.2⟩
  entry he := (h.entry _).trans he

/-- What is made for an entry stays so, as long as its type stays unfinished if it was. -/
theorem Made.mono {k : Nat} {node : Node} {id : TypeId} (h : Made d pointerSize w s k node id)
    (within : (s.settled w).Within (s'.settled w'))
    (kept : ∀ {t}, s.program.arena.get? id = some t → s'.program.arena.get? id = some t)
    (types : w.types id → w'.types id) (entries : w'.entries k → w.entries k) :
    Made d pointerSize w' s' k node id := by
  cases h with
  | enumeration is => exact .enumeration (kept is)
  | composite is kind size untouched places =>
      refine .composite (kept is) kind size (fun h => untouched (entries h)) fun h => ?_
      exact (places fun hw => h (types hw)).mono within fun _ _ _ _ hd => hd.mono within
  | plain hp hd => exact .plain hp (hd.mono within)
  | missing hp hb hh => exact .missing hp hb (within.holds hh)

/-- The type of a structure, union or enumeration stands under the name of its entry. -/
theorem Made.named {k : Nat} {node : Node} {id : TypeId} (h : Made d pointerSize w s k node id)
    (hn : node.isNominal = true) :
    ∃ shape, s.program.arena.get? id = some (.named (entryName node k) shape) ∧
      shape.extent = node.declaredExtent := by
  cases h with
  | enumeration is => exact ⟨_, is, rfl⟩
  | composite is _ size =>
      refine ⟨_, is, ?_⟩
      rw [Shape.extent, size]
      rfl
  | plain hp => rw [hn] at hp; cases hp
  | missing hp => rw [hn] at hp; cases hp

namespace Orderly

/-- A type that is no composite is finished. -/
theorem holds (h : Orderly d pointerSize L w s) {id : TypeId} {t : TypeObject}
    (hg : s.program.arena.get? id = some t) (ht : t.composite? = none) :
    (s.settled w).holds id t := by
  refine ⟨hg, fun hw => ?_⟩
  obtain ⟨name, c, hc⟩ := h.composites hw
  rw [hg] at hc
  cases hc
  cases ht

theorem stands (h : Orderly d pointerSize L w s) {e e' : Extent} {own id : TypeId}
    (hs : s.all.StandsFor e e' own id) : (s.settled w).StandsFor e e' own id := by
  unfold View.StandsFor at hs ⊢
  split
  · next he => rwa [if_pos he] at hs
  · next he =>
      rw [if_neg he] at hs
      exact h.holds hs rfl

/-- Unfinished or not, a type has the extent that is described. -/
theorem extent_eq (h : Orderly d pointerSize L w s) (hs : s.Sound) {n : Node} {hint : Json}
    {id : TypeId} {e : Extent} (hd : Describes d pointerSize (s.settled w) n hint id e) :
    s.program.arena.extent id = e := by
  induction hd with
  | @builtIn _ b _ id holds =>
      obtain ⟨name, hb⟩ := builtInType_named b
      have hg := holds.1
      rw [hb] at hg
      exact Arena.extent_named hg
  | void _ holds => exact Arena.extent_named holds.1
  | missing _ _ holds => exact Arena.extent_named holds.1
  | nominal _ _ entry nominal is =>
      obtain ⟨shape, hg, he⟩ := (h.made entry is).named nominal
      rw [Arena.extent_named hg, he]
  | entry _ _ _ _ _ _ ih => exact ih
  | pointer _ holds => exact Arena.extent_pointer holds.1
  | @array _ _ count _ own el id e _ stands _ holds ih =>
      have hel : s.program.arena.length el = e.sized.length := by
        unfold View.StandsFor at stands
        split at stands
        · next he => rw [stands, ← Arena.length_extent, ih, he]
        · next he =>
            have hl := e.sized_eq_iff
            rw [Arena.length_undefinedOf stands.1, Extent.sized, if_pos]
            · rfl
            · exact Int.not_lt.mp fun hlt => he (hl.mpr hlt)
      rw [Arena.extent_array holds.1, hs.program.arena.length_array holds.1, hel]
  | bitField _ ih => exact ih
  | memberPointer _ holds => exact Arena.extent_named holds.1
  | functionType _ _ _ holds => exact Arena.extent_named holds.1
  | enumeration holds => exact Arena.extent_named holds.1
  | composite _ _ holds => exact Arena.extent_named holds.1

/-- Entries without a type leave their names free. -/
theorem free (h : Orderly d pointerSize L w s) {k : Nat} {node : Node}
    (hk : d.types[k]? = some node) (unset : s.typeAt? k = none) :
    s.program.registry.get? (entryName node k) = none := by
  cases hr : s.program.registry.get? (entryName node k) with
  | none => rfl
  | some id =>
      obtain ⟨j, m, hj, -, hn, he⟩ := h.registered hr
      rw [h.regular.names hj hk hn, unset] at he
      cases he

/-- No two structures, unions or enumerations of the table have one type. -/
theorem eq_of_typeAt (h : Orderly d pointerSize L w s) {j k : Nat} {m n : Node} {id : TypeId}
    (hj : d.types[j]? = some m) (hk : d.types[k]? = some n) (hm : m.isNominal = true)
    (hn : n.isNominal = true) (hjid : s.typeAt? j = some id) (hkid : s.typeAt? k = some id) :
    j = k := by
  obtain ⟨_, hg, _⟩ := (h.made hj hjid).named hm
  obtain ⟨_, hg', _⟩ := (h.made hk hkid).named hn
  rw [hg, Option.some.injEq, TypeObject.named.injEq] at hg'
  exact h.regular.names hj hk hg'.1

end Orderly

/-! ## What keeps sessions orderly -/

/-- What a session is with one type more, which is registered for an entry. -/
def Session.enlist (s : Session) (k : Nat) (own : String) (shape : Shape) : Session :=
  { s.register own shape with table := s.table.setIfInBounds k (some s.program.arena.size) }

theorem get?_enlist (s : Session) (k : Nat) (own : String) (shape : Shape) :
    (s.enlist k own shape).program.arena.get? s.program.arena.size =
      some (.named (.text own) shape) :=
  get?_push s _

theorem get?_enlist_of_get? {id : TypeId} {t : TypeObject} (k : Nat) (own : String) (shape : Shape)
    (h : s.program.arena.get? id = some t) :
    (s.enlist k own shape).program.arena.get? id = some t :=
  Arena.get?_push_of_get? _ h

theorem typeAt?_enlist_eq (s : Session) (j k : Nat) (own : String) (shape : Shape) :
    (s.enlist k own shape).typeAt? j =
      if k = j ∧ j < s.table.size then some s.program.arena.size else s.typeAt? j :=
  Session.typeAt?_set (s.register own shape) k j s.program.arena.size

theorem typeAt?_enlist {k : Nat} (own : String) (shape : Shape) (hin : k < s.table.size) :
    (s.enlist k own shape).typeAt? k = some s.program.arena.size := by
  rw [typeAt?_enlist_eq, if_pos ⟨rfl, hin⟩]

theorem typeAt?_enlist_of_ne {j k : Nat} (own : String) (shape : Shape) (h : j ≠ k) :
    (s.enlist k own shape).typeAt? j = s.typeAt? j := by
  rw [typeAt?_enlist_eq, if_neg fun hc => h hc.1.symm]

theorem typeAt?_enlist_of_typeAt? {j k : Nat} {id : TypeId} (own : String) (shape : Shape)
    (unset : s.typeAt? k = none) (h : s.typeAt? j = some id) :
    (s.enlist k own shape).typeAt? j = some id := by
  rw [typeAt?_enlist_of_ne]
  · exact h
  · rintro rfl
    rw [unset] at h
    cases h

theorem get?_withComposite_of_ne (s : Session) {id other : TypeId} (name : Json) (c : Composite)
    (h : other ≠ id) :
    (s.withComposite id name c).program.arena.get? other = s.program.arena.get? other :=
  Arena.get?_set_of_ne _ _ h

theorem get?_withComposite_self {id : TypeId} (name : Json) (c : Composite)
    (h : id < s.program.arena.size) :
    (s.withComposite id name c).program.arena.get? id = some (.named name (.composite c)) :=
  Arena.get?_set_self _ h

/-- What becomes of an unfinished composite settles nothing and unsettles nothing. -/
theorem settled_within_withComposite (s : Session) {id : TypeId} (hw : w.types id) (name : Json)
    (c : Composite) : (s.settled w).Within ((s.withComposite id name c).settled w) where
  holds {other t} hg := by
    have hne : other ≠ id := fun hid => hg.2 (hid ▸ hw)
    refine ⟨?_, hg.2⟩
    rw [get?_withComposite_of_ne s name c hne]
    exact hg.1
  entry he := he

namespace Orderly

theorem lt_size (h : Orderly d pointerSize L w s) {id : TypeId} (hw : w.types id) :
    id < s.program.arena.size := by
  obtain ⟨_, _, hc⟩ := h.composites hw
  exact Arena.lt_size_of_get? hc

theorem gains (h : Orderly d pointerSize L w s) (hg : Gains s s') :
    Orderly d pointerSize L w s' where
  regular := h.regular
  document := hg.document.trans h.document
  pointers := hg.pointerSize.trans h.pointers
  composites hw := by
    obtain ⟨name, c, hc⟩ := h.composites hw
    exact ⟨name, c, hg.kept hc⟩
  pending hw := by
    obtain ⟨id, he, ht⟩ := h.pending hw
    exact ⟨id, (hg.entry _).trans he, ht⟩
  registered hr := by
    rw [hg.registry] at hr
    obtain ⟨k, node, hk, hnom, hn, he⟩ := h.registered hr
    exact ⟨k, node, hk, hnom, hn, (hg.entry k).trans he⟩
  made hk he := by
    rw [hg.entry] at he
    exact (h.made hk he).mono (hg.settled w) hg.kept (fun h => h) fun h => h
  uncached {k _} hk hu n hn := by
    have hu : Untouched L w s k := by rwa [Untouched, hg.entry] at hu
    rw [hg.nodes]
    exact h.uncached hk hu n hn

/-- A node in no entry that is still to be entered may be given a type. -/
theorem cacheNode (h : Orderly d pointerSize L w s) {n : Nat} (id : TypeId)
    (apart : ∀ {k node}, d.types[k]? = some node → Untouched L w s k → n ∉ node.serials) :
    Orderly d pointerSize L w { s with cache.nodes := s.cache.nodes.put n id } :=
  { h with
    made := fun hk he =>
      (h.made hk he).mono ⟨fun hg => hg, fun he => he⟩ (fun hg => hg) (fun h => h) fun h => h
    uncached := fun hk hu m hm => by
      have hne : Key.same n m = false := by
        simp only [Key.same, Key.form, decide_eq_false_iff_not]
        rintro rfl
        exact apart hk hu hm
      simp only [Ledger.get?_put, hne, Bool.false_eq_true, if_false]
      exact h.uncached hk hu m hm }

/-- A new composite is unfinished. -/
theorem pushShell (h : Orderly d pointerSize L w s) (name : Json) (c : Composite) :
    Orderly d pointerSize L (w.opening s.program.arena.size)
      (s.push (.named name (.composite c))) :=
  { h with
    composites := fun {id} hw => by
      rcases hw with rfl | hw
      · exact ⟨name, c, get?_push s _⟩
      · obtain ⟨name, c, hc⟩ := h.composites hw
        exact ⟨name, c, Arena.get?_push_of_get? _ hc⟩
    pending := fun hw => by
      obtain ⟨id, he, ht⟩ := h.pending hw
      exact ⟨id, he, .inr ht⟩
    made := fun hk he => by
      refine (h.made hk he).mono ⟨fun hg => ⟨Arena.get?_push_of_get? _ hg.1, ?_⟩, fun he => he⟩
        (fun hg => Arena.get?_push_of_get? _ hg) .inr fun h => h
      rintro (rfl | hw)
      · exact Nat.lt_irrefl _ (Arena.lt_size_of_get? hg.1)
      · exact hg.2 hw
    uncached := fun hk hu => h.uncached hk hu }

/-- An unfinished composite may take on members. That of an entry keeps its size, and its members
are not all still to be looked at. -/
theorem edit (h : Orderly d pointerSize L w s) {shell : TypeId} {name : Json} {c c' : Composite}
    (hw : w.types shell) (hc : s.program.arena.get? shell = some (.named name (.composite c)))
    (kind : c'.kind = c.kind)
    (entry : ∀ {k node}, d.types[k]? = some node → node.isNominal = true →
      s.typeAt? k = some shell → c'.size = c.size ∧ ¬ w.entries k) :
    Orderly d pointerSize L w (s.withComposite shell name c') := by
  have hlt := Arena.lt_size_of_get? hc
  have within := settled_within_withComposite s hw name c'
  refine { h with composites := ?_, made := ?_, uncached := fun hk hu => h.uncached hk hu }
  · intro id hid
    by_cases hne : id = shell
    · subst hne
      exact ⟨name, c', get?_withComposite_self name c' hlt⟩
    · obtain ⟨own, b, hb⟩ := h.composites hid
      exact ⟨own, b, (get?_withComposite_of_ne s name c' hne).trans hb⟩
  · intro k node id hk he
    by_cases hne : id = shell
    · subst hne
      cases h.made hk he with
      | enumeration is => rw [hc] at is; cases is
      | composite is hkind hsize _ _ =>
          rw [hc, Option.some.injEq, TypeObject.named.injEq, Shape.composite.injEq] at is
          obtain ⟨rfl, rfl⟩ := is
          obtain ⟨size, touched⟩ := entry hk rfl he
          refine .composite (get?_withComposite_self _ c' hlt) (kind.trans hkind)
            (size.trans hsize) (fun h => absurd h touched) fun h => absurd hw h
      | plain hp hd => exact .plain hp (hd.mono within)
      | missing hp hb hh => exact .missing hp hb (within.holds hh)
    · refine (h.made hk he).mono within (fun hg => ?_) (fun h => h) fun h => h
      exact (get?_withComposite_of_ne s name c' hne).trans hg

/-- A composite is finished when all its members have been placed, if it is that of an entry. -/
theorem finish {shell : TypeId} (h : Orderly d pointerSize L (w.opening shell) s)
    (untouched : ∀ {k}, w.entries k → s.typeAt? k ≠ some shell)
    (places : ∀ {k c isRecord bases fields members made},
      d.types[k]? = some (.composite c isRecord bases fields members) →
      s.typeAt? k = some shell → s.program.arena.get? shell = some
        (.named (entryName (.composite c isRecord bases fields members) k) (.composite made)) →
      Places pointerSize (s.settled w) (Describes d pointerSize (s.settled w))
        (entryName (.composite c isRecord bases fields members) k)
        (.empty (kindOf isRecord) (declaredBytes c.sizeBits)) (membersOf isRecord bases fields)
        made) :
    Orderly d pointerSize L w s := by
  have within := settled_within_opening s w shell
  refine { h with
    composites := fun hw => h.composites (.inr hw)
    pending := ?_
    made := ?_
    uncached := fun hk hu => h.uncached hk hu }
  · intro k hw
    obtain ⟨id, he, rfl | ht⟩ := h.pending hw
    · exact absurd he (untouched hw)
    · exact ⟨id, he, ht⟩
  · intro k node id hk he
    cases h.made hk he with
    | enumeration is => exact .enumeration is
    | composite is kind size hu hp =>
        refine .composite is kind size hu fun hw => ?_
        by_cases hid : id = shell
        · subst hid
          exact places hk he is
        · refine (hp fun h => h.elim hid hw).mono within fun _ _ _ _ hd => hd.mono within
    | plain hp hd => exact .plain hp (hd.mono within)
    | missing hp hb hh => exact .missing hp hb (within.holds hh)

theorem opening (h : Orderly d pointerSize L w s) (k : Nat) :
    Orderly d pointerSize (L.opening k) w s :=
  { h with
    uncached := fun hk hu => h.uncached hk (hu.imp_left fun hu => ⟨hu.1, fun ho => hu.2 (.inr ho)⟩) }

theorem of_opening {k : Nat} (h : Orderly d pointerSize (L.opening k) w s)
    (hset : s.typeAt? k ≠ none) : Orderly d pointerSize L w s :=
  { h with
    uncached := fun {j _} hj hu => h.uncached hj <| hu.imp_left fun hu => ⟨hu.1, fun ho => by
      rcases ho with rfl | ho
      · exact hset hu.1
      · exact hu.2 ho⟩ }

/-- An entry that is no structure, union or enumeration takes what is made for it. -/
theorem enter (h : Orderly d pointerSize L w s) {k : Nat} {node : Node} {id : TypeId}
    (hk : d.types[k]? = some node) (unset : s.typeAt? k = none)
    (hm : Made d pointerSize w s k node id) :
    Orderly d pointerSize L w { s with table := s.table.setIfInBounds k (some id) } := by
  have keep {j : Nat} {x : TypeId} (he : s.typeAt? j = some x) :
      Session.typeAt? { s with table := s.table.setIfInBounds k (some id) } j = some x := by
    rw [Session.typeAt?_set, if_neg]
    · exact he
    · rintro ⟨rfl, -⟩
      rw [unset] at he
      cases he
  have within : (s.settled w).Within
      (Session.settled { s with table := s.table.setIfInBounds k (some id) } w) :=
    ⟨fun hg => hg, fun he => keep he⟩
  refine { h with pending := ?_, registered := ?_, made := ?_, uncached := ?_ }
  · intro j hw
    obtain ⟨x, he, ht⟩ := h.pending hw
    exact ⟨x, keep he, ht⟩
  · intro name x hr
    obtain ⟨j, m, hj, hnom, hn, he⟩ := h.registered hr
    exact ⟨j, m, hj, hnom, hn, keep he⟩
  · intro j m x hj he
    rw [Session.typeAt?_set] at he
    split at he
    · next hin =>
        obtain ⟨rfl, -⟩ := hin
        rw [hk] at hj
        cases hj
        cases he
        exact hm.mono within (fun hg => hg) (fun h => h) fun h => h
    · exact (h.made hj he).mono within (fun hg => hg) (fun h => h) fun h => h
  · intro j m hj hu
    refine h.uncached hj (hu.imp_left fun hu => ⟨?_, hu.2⟩)
    cases he : s.typeAt? j with
    | none => rfl
    | some x =>
        rw [keep he] at hu
        cases hu.1

/-- An entry takes the type that was registered for it. -/
theorem enlist (h : Orderly d pointerSize L w s) {k : Nat} {node : Node} {own : String}
    {shape : Shape} (hk : d.types[k]? = some node) (nominal : node.isNominal = true)
    (hname : entryName node k = .text own) (unset : s.typeAt? k = none) (hfree : ¬ L.isOpen k)
    (hin : k < s.table.size)
    (types : ∀ {id}, w.types id → w'.types id)
    (new : ∀ {id}, w'.types id → w.types id ∨ id = s.program.arena.size ∧ ∃ c, shape = .composite c)
    (entries : ∀ {j}, w'.entries j → w.entries j ∨ j = k ∧ w'.types s.program.arena.size)
    (made : ∀ {t : Session},
      t.program.arena.get? s.program.arena.size = some (.named (entryName node k) shape) →
      Made d pointerSize w' t k node s.program.arena.size) :
    Orderly d pointerSize L w' (s.enlist k own shape) := by
  let t := s.enlist k own shape
  have hset : t.typeAt? k = some s.program.arena.size := typeAt?_enlist own shape hin
  have other {j : Nat} (hj : j ≠ k) : t.typeAt? j = s.typeAt? j := typeAt?_enlist_of_ne own shape hj
  have keep {j : Nat} {x : TypeId} (he : s.typeAt? j = some x) : t.typeAt? j = some x :=
    typeAt?_enlist_of_typeAt? own shape unset he
  have hnew : t.program.arena.get? s.program.arena.size = some (.named (entryName node k) shape) := by
    rw [hname]
    exact get?_enlist s k own shape
  have old {x : TypeId} {o : TypeObject} (hg : s.program.arena.get? x = some o) :
      t.program.arena.get? x = some o := get?_enlist_of_get? k own shape hg
  have within : (s.settled w).Within (t.settled w') := by
    refine ⟨fun {x o} hg => ⟨old hg.1, fun hw => ?_⟩, keep⟩
    rcases new hw with hw | ⟨rfl, _⟩
    · exact hg.2 hw
    · exact Nat.lt_irrefl _ (Arena.lt_size_of_get? hg.1)
  refine
    { regular := h.regular
      document := h.document
      pointers := h.pointers
      composites := ?_
      pending := ?_
      registered := ?_
      made := ?_
      uncached := ?_ }
  · intro x hw
    rcases new hw with hw | ⟨rfl, c, rfl⟩
    · obtain ⟨name, c, hc⟩ := h.composites hw
      exact ⟨name, c, old hc⟩
    · exact ⟨_, c, hnew⟩
  · intro j hw
    rcases entries hw with hw | ⟨rfl, hw⟩
    · obtain ⟨x, he, ht⟩ := h.pending hw
      exact ⟨x, keep he, types ht⟩
    · exact ⟨_, hset, hw⟩
  · intro name x hr
    have hr : (s.program.registry.put (.text own) s.program.arena.size).get? name = some x := hr
    rw [Ledger.get?_put] at hr
    split at hr
    · next hsame =>
        rw [Key.same_comm] at hsame
        cases hr
        exact ⟨k, node, hk, nominal, by rw [hname, Json.same_text_iff.mp hsame], hset⟩
    · obtain ⟨j, m, hj, hnom, hn, he⟩ := h.registered hr
      exact ⟨j, m, hj, hnom, hn, keep he⟩
  · intro j m x hj he
    by_cases hjk : j = k
    · subst hjk
      rw [hk] at hj
      cases hj
      have he : t.typeAt? j = some x := he
      rw [hset] at he
      cases he
      exact made hnew
    · have he : t.typeAt? j = some x := he
      rw [other hjk] at he
      refine (h.made hj he).mono within old types fun hw => ?_
      exact (entries hw).resolve_right fun hc => hjk hc.1
  · intro j m hj hu
    refine h.uncached hj ?_
    rcases hu with ⟨hn, ho⟩ | hw
    · have hn : t.typeAt? j = none := hn
      by_cases hjk : j = k
      · subst hjk
        rw [hset] at hn
        cases hn
      · rw [other hjk] at hn
        exact .inl ⟨hn, ho⟩
    · rcases entries hw with hw | ⟨rfl, _⟩
      · exact .inr hw
      · exact .inl ⟨unset, hfree⟩

end Orderly

end StabsImport.Import

import StabsImport.Proofs.Alike
import StabsImport.Proofs.Cycles

/-!
# Agreement of the ways to a type

An entry may be resolved on demand, or after an import of all types. As long as no loop is cut and
every structure and union declares a size that holds its members, both make the same types of it,
whichever entries are entered first.
-/

namespace StabsImport.Import

open Document (Node Base Variable TypeReference)

variable {d : Document} {pointerSize : Int} {L L' : Scope} {s t : Session} {x y : TypeId}

/-- Types of two sessions that come from the same place in the document. -/
inductive SameType (d : Document) (pointerSize : Int) (s t : Session) : TypeId → TypeId → Prop where
  | object {x y : TypeId} {o : TypeObject} (leads : o.leads = [])
      (here : s.program.arena.get? x = some o) (there : t.program.arena.get? y = some o) :
      SameType d pointerSize s t x y
  | entry {k : Nat} {node : Node} {x y : TypeId} (entry : d.types[k]? = some node)
      (nominal : node.isNominal = true) (here : s.typeAt? k = some x)
      (there : t.typeAt? k = some y) : SameType d pointerSize s t x y
  | node {n : Node} {hint : Json} {x y : TypeId} {e e' : Extent}
      (here : Describes d pointerSize (s.settled {}) n hint x e)
      (there : Describes d pointerSize (t.settled {}) n hint y e') : SameType d pointerSize s t x y

/-- The types are there and match. -/
def MatchedIn (R : TypeId → TypeId → Prop) (s t : Session) (x y : TypeId) : Prop :=
  ∃ o p, s.program.arena.get? x = some o ∧ t.program.arena.get? y = some p ∧ o.Matches R p

theorem MatchedIn.object {R : TypeId → TypeId → Prop} {o : TypeObject} (leads : o.leads = [])
    (hx : s.program.arena.get? x = some o) (hy : t.program.arena.get? y = some o) :
    MatchedIn R s t x y :=
  ⟨o, o, hx, hy, .leaf leads⟩

theorem Describes.extent_unique {v w : View} {n : Node} {hint hint' : Json} {e e' : Extent}
    (h : Describes d pointerSize v n hint x e) (h' : Describes d pointerSize w n hint' y e') :
    e' = e :=
  h.hasExtent.unique h'.hasExtent

namespace SameType

/-- What stands for the same type of the same extent is the same. -/
theorem stands {own own' : TypeId} {e e' : Extent} (h : SameType d pointerSize s t own own')
    (hx : (s.settled {}).StandsFor e e' own x) (hy : (t.settled {}).StandsFor e e' own' y) :
    SameType d pointerSize s t x y := by
  unfold View.StandsFor at hx hy
  by_cases he : e' = e
  · rw [if_pos he] at hx hy
    rw [hx, hy]
    exact h
  · rw [if_neg he] at hx hy
    exact .object rfl hx.1 hy.1

/-- So are the members that are placed for the same ones. -/
theorem places {owner : Json} {ms : List Member} {c c' made made' : Composite}
    (hm : c.Matches (SameType d pointerSize s t) c')
    (h : Places pointerSize (s.settled {}) (Describes d pointerSize (s.settled {})) owner c ms made)
    (h' : Places pointerSize (t.settled {}) (Describes d pointerSize (t.settled {})) owner c' ms
      made') : made.Matches (SameType d pointerSize s t) made' := by
  induction h generalizing c' with
  | nil =>
      cases h'
      exact hm
  | placed hb hd hs _ ih =>
      cases h' with
      | placed _ hd' hs' hrest' =>
          obtain rfl := hd.extent_unique hd'
          exact ih (Member.place_matches hm ((SameType.node hd hd').stands hs hs') _ _) hrest'
      | leftOut hb' =>
          rw [hb] at hb'
          cases hb'
  | leftOut hb _ ih =>
      cases h' with
      | placed hb' =>
          rw [hb] at hb'
          cases hb'
      | leftOut _ hrest' => exact ih hm hrest'

theorem empty (R : TypeId → TypeId → Prop) (kind : CompositeKind) (size : Int) :
    (Composite.empty kind size).Matches R (.empty kind size) :=
  ⟨rfl, rfl, .nil⟩

theorem returned {returnType : Option Node}
    (h : ReturnIs (s.settled {}) (Describes d pointerSize (s.settled {})) returnType x)
    (h' : ReturnIs (t.settled {}) (Describes d pointerSize (t.settled {})) returnType y) :
    SameType d pointerSize s t x y := by
  cases returnType with
  | none => exact .object rfl h.1 h'.1
  | some node =>
      obtain ⟨_, hd⟩ := h
      obtain ⟨_, hd'⟩ := h'
      exact .node hd hd'

theorem parameter {p : Variable}
    (h : ParameterIs pointerSize (s.settled {}) (Describes d pointerSize (s.settled {})) p x)
    (h' : ParameterIs pointerSize (t.settled {}) (Describes d pointerSize (t.settled {})) p y) :
    SameType d pointerSize s t x y := by
  unfold ParameterIs at h h'
  by_cases hb : p.type.isBuildable pointerSize = true
  · rw [if_pos hb] at h h'
    obtain ⟨_, e, hd, hs⟩ := h
    obtain ⟨_, e', hd', hs'⟩ := h'
    obtain rfl := hd.extent_unique hd'
    exact (SameType.node hd hd').stands hs hs'
  · rw [if_neg hb] at h h'
    exact .object rfl h.1 h'.1

theorem formals {ps : List Variable} {xs ys : List TypeId}
    (h : List.Forall₂ (ParameterIs pointerSize (s.settled {})
      (Describes d pointerSize (s.settled {}))) ps xs)
    (h' : List.Forall₂ (ParameterIs pointerSize (t.settled {})
      (Describes d pointerSize (t.settled {}))) ps ys) :
    List.Forall₂ (SameType d pointerSize s t) xs ys := by
  induction h generalizing ys with
  | nil =>
      cases h'
      exact .nil
  | cons hp _ ih =>
      cases h' with
      | cons hp' hrest => exact .cons (parameter hp hp') (ih hrest)

section

variable (ho : Orderly d pointerSize L {} s) (ho' : Orderly d pointerSize L' {} t)

include ho ho'

/-- The types of a structure, union or enumeration of the table match. -/
theorem entry_matches {k : Nat} {node : Node} (hk : d.types[k]? = some node)
    (hn : node.isNominal = true) (hx : s.typeAt? k = some x) (hy : t.typeAt? k = some y) :
    MatchedIn (SameType d pointerSize s t) s t x y := by
  cases ho.made hk hx with
  | enumeration is =>
      cases ho'.made hk hy with
      | enumeration is' => exact .object rfl is is'
      | plain hp | missing hp => cases hp
  | composite is _ _ _ hplaces =>
      cases ho'.made hk hy with
      | composite is' _ _ _ hplaces' =>
          exact ⟨_, _, is, is', .composite (places (empty _ _ _) (hplaces nofun) (hplaces' nofun))⟩
      | plain hp | missing hp => cases hp
  | plain hp | missing hp =>
      rw [hn] at hp
      cases hp

/-- The types that a node describes match. -/
theorem node_matches {n : Node} {hint : Json} {e e' : Extent}
    (h : Describes d pointerSize (s.settled {}) n hint x e)
    (h' : Describes d pointerSize (t.settled {}) n hint y e') :
    MatchedIn (SameType d pointerSize s t) s t x y := by
  induction h generalizing y e' with
  | @builtIn _ b _ _ holds =>
      cases h' with
      | builtIn holds' =>
          refine .object ?_ holds.1 holds'.1
          cases b <;> rfl
  | void hv holds =>
      cases h' with
      | void _ holds' => exact .object rfl holds.1 holds'.1
      | missing hs | nominal hs | entry hs =>
          rw [hv] at hs
          cases hs
  | missing hs hm holds =>
      cases h' with
      | void hv =>
          rw [hv] at hs
          cases hs
      | missing _ _ holds' => exact .object rfl holds.1 holds'.1
      | nominal _ hl hk hn => exact (hm.not_leads hl hk (isBuildable_of_isNominal hn _)).elim
      | entry _ hl hk _ hb => exact (hm.not_leads hl hk hb).elim
  | nominal hs hl hk hn is =>
      cases h' with
      | void hv =>
          rw [hv] at hs
          cases hs
      | missing _ hm => exact (hm.not_leads hl hk (isBuildable_of_isNominal hn _)).elim
      | nominal _ hl' hk' _ is' =>
          obtain ⟨rfl, rfl⟩ := leads_unique hl hk hl' hk'
          exact entry_matches ho ho' hk hn is is'
      | entry _ hl' hk' hp =>
          obtain ⟨rfl, rfl⟩ := leads_unique hl hk hl' hk'
          rw [hn] at hp
          cases hp
  | entry hs hl hk hp hb _ ih =>
      cases h' with
      | void hv =>
          rw [hv] at hs
          cases hs
      | missing _ hm => exact (hm.not_leads hl hk hb).elim
      | nominal _ hl' hk' hn =>
          obtain ⟨rfl, rfl⟩ := leads_unique hl hk hl' hk'
          rw [hn] at hp
          cases hp
      | entry _ hl' hk' _ _ hd' =>
          obtain ⟨rfl, rfl⟩ := leads_unique hl hk hl' hk'
          exact ih hd'
  | pointer hd holds =>
      cases h' with
      | pointer hd' holds' => exact ⟨_, _, holds.1, holds'.1, .pointer (.node hd hd')⟩
  | array hd hs _ holds =>
      cases h' with
      | array hd' hs' _ holds' =>
          obtain rfl := hd.extent_unique hd'
          exact ⟨_, _, holds.1, holds'.1, .array ((SameType.node hd hd').stands hs hs')⟩
  | bitField _ ih =>
      cases h' with
      | bitField hd' => exact ih hd'
  | memberPointer _ holds =>
      cases h' with
      | memberPointer _ holds' => exact .object rfl holds.1 holds'.1
  | functionType sub hret hpar holds =>
      cases h' with
      | functionType sub' hret' hpar' holds' =>
          have refl (v : View) : v.Within v := ⟨fun h => h, fun h => h⟩
          refine ⟨_, _, holds.1, holds'.1, .signature ?_ ?_⟩
          · exact returned (hret.mono (refl _) sub) (hret'.mono (refl _) sub')
          · exact formals (hpar.imp fun _ _ hp => hp.mono (refl _) sub)
              (hpar'.imp fun _ _ hp => hp.mono (refl _) sub')
  | enumeration holds =>
      cases h' with
      | enumeration holds' => exact .object rfl holds.1 holds'.1
  | composite sub hplaces holds =>
      cases h' with
      | composite sub' hplaces' holds' =>
          have refl (v : View) : v.Within v := ⟨fun h => h, fun h => h⟩
          have hplaced := hplaces.mono (refl _) sub
          have hplaced' := hplaces'.mono (refl _) sub'
          exact ⟨_, _, holds.1, holds'.1, .composite (places (empty _ _ _) hplaced hplaced')⟩

/-- Two orderly sessions in which nothing is left to do have matching types. -/
theorem isMatching :
    Arena.IsMatching s.program.arena t.program.arena (SameType d pointerSize s t) := by
  intro x y h
  cases h with
  | object leads hx hy => exact MatchedIn.object leads hx hy
  | entry hk hn hx hy => exact entry_matches ho ho' hk hn hx hy
  | node h h' => exact node_matches ho ho' h h'

/-- What an entry is resolved to is the same in both. -/
theorem resolved {index : Int} (hx : Resolved d s {} index x) (hy : Resolved d t {} index y) :
    SameType d pointerSize s t x y := by
  rcases hx with ⟨k, rfl, hlt, hx⟩ | ⟨hout, hx⟩
  · rcases hy with ⟨j, hj, _, hy⟩ | ⟨hout, _⟩
    · obtain rfl := Int.ofNat_inj.mp hj
      have hk : d.types[k]? = some d.types[k] := List.getElem?_eq_getElem hlt
      cases hn : d.types[k].isNominal with
      | true => exact .entry hk hn hx hy
      | false =>
          have hm := ho.made hk hx
          have hm' := ho'.made hk hy
          generalize d.types[k] = node at hm hm' hn
          cases hm with
          | enumeration | composite => cases hn
          | plain _ hd =>
              cases hm' with
              | enumeration | composite => cases hn
              | plain _ hd' => exact .node hd hd'
              | missing _ hb =>
                  rw [hd.isBuildable] at hb
                  cases hb
          | missing _ hb holds =>
              cases hm' with
              | enumeration | composite => cases hn
              | plain _ hd' =>
                  rw [hd'.isBuildable] at hb
                  cases hb
              | missing _ _ holds' => exact .object rfl holds.1 holds'.1
    · omega
  · rcases hy with ⟨j, rfl, hlt, _⟩ | ⟨_, hy⟩
    · omega
    · exact .object rfl hx.1 hy.1

end

end SameType

/-! ## On demand and after an import -/

/-- A session over an empty program in which nothing was done is orderly. -/
theorem Session.IsNew.orderly (h : s.IsNew) (empty : s.program.registry = {})
    (regular : Regular s.document s.program.pointerSize) (L : Scope) :
    Orderly s.document s.program.pointerSize L {} s := by
  have unset : s.IsFresh := Session.isFresh_of_table h.table
  constructor
  · exact regular
  · rfl
  · rfl
  · exact fun hw => hw.elim
  · exact fun hw => hw.elim
  · intro name id hr
    rw [empty] at hr
    cases hr
  · intro k node id _ he
    rw [unset] at he
    cases he
  · intro k node _ _ n _
    rw [h.cache]
    rfl

/-- Before the first entry is registered there are no shells. -/
theorem Session.IsNew.listing (h : s.IsNew) (empty : s.program.registry = {})
    (regular : Regular s.document s.program.pointerSize) (L : Scope) :
    Listing s.document s.program.pointerSize L 0 s where
  orderly := by
    have unset : s.IsFresh := Session.isFresh_of_table h.table
    refine (h.orderly empty regular L).congr (fun id => ?_) (fun k hw => ?_) fun _ h => h
    · refine ⟨?_, fun hw => hw.elim⟩
      rintro ⟨k, -, -, he⟩
      rw [unset] at he
      cases he
    · exact absurd (unset k) hw.2.2
  unset k _ := by simp [Session.typeAt?, h.table]

/-- Where no loop is cut none is reported. -/
theorem NoLoop.after (h : NoLoop s) (ha : After L s t) (hc : ¬ L.cuts) : NoLoop t := by
  obtain ⟨ns, hn, hl⟩ := ha.journal
  intro n hm hloop
  rw [hn] at hm
  rcases List.mem_append.mp hm with hm | hm
  · exact h n hm hloop
  · exact hc (hl n hm hloop)

/-- Entering an entry of an orderly session resolves it, as long as no loop is cut. -/
theorem Orderly.typeAt {C : Prop} {isSet : Nat → Prop}
    (ho : Orderly d pointerSize { cuts := C } {} s) (hl : Settles d isSet C) (hs : Ready d isSet s)
    (hr : s.room = none) (before : NoLoop s) {index : Int}
    (uncut : C → NoLoop (typeAt index s).2) :
    ∃ id t, Import.typeAt index s = (.ok id, t) ∧ After { cuts := C } s t ∧
      Orderly d pointerSize { cuts := C } {} t ∧ Resolved d t {} index id := by
  have hroom := Room.allows_of_eq_none hr (tableNeed d)
  have hf : Fresh d { cuts := C } {} [] s :=
    { nodup := List.nodup_nil, uncached := nofun, apart := fun _ _ => nofun }
  have he : Enters d pointerSize { cuts := C } isSet (fun _ => True) (tableNeed d) Import.typeAt :=
    typeAt_enters hl
  obtain ⟨id, t, hrun, ha, -, horders⟩ := (he hs hroom trivial).exists_ok
  have hloop : NoLoop t := by
    by_cases hc : C
    · rw [hrun] at uncut
      exact uncut hc
    · exact before.after ha hc
  obtain ⟨ho', -, hres⟩ := horders hloop {} ho hf
  exact ⟨id, t, hrun, ha, ho', hres⟩

/-- A new session over an empty program, and a table that can be imported. -/
structure Session.IsImportable (s : Session) : Prop where
  isNew : s.IsNew
  empty : s.program.registry = {}
  acyclic : IsAcyclic s.document
  uncancelled : (importTypes s).2.monitor.isCancelled = false

/-- What an entry is resolved to on demand looks the same, and leads to what looks the same, as what
it is after an import of types, if no loop is cut on the way to it and no structure or union
outgrows the size it declares. -/
theorem typeAt_agrees (h : s.IsImportable) (regular : Regular s.document s.program.pointerSize)
    (index : Int) (uncut : NoLoop (typeAt index s).2) :
    ∃ x t filled y u, typeAt index s = (.ok x, t) ∧ importTypes s = (.ok (), filled) ∧
      typeAt index filled = (.ok y, u) ∧ t.program.arena.Alike u.program.arena x y := by
  have hs := h.isNew.sound
  have hroom : s.room = none := h.isNew.room
  -- on demand
  have hready := hs.ready
  have hbefore : NoLoop s := by
    have hallows := Room.allows_of_eq_none hroom (tableNeed s.document)
    obtain ⟨x, t, hrun, ht, -⟩ := (typeAt_yields (.inl trivial) hready hallows).exists_ok
    rw [hrun] at uncut
    exact uncut.before ht.journal_prefix
  have hos := h.isNew.orderly h.empty regular { cuts := True }
  obtain ⟨x, t, hrun, ht, hot, hx⟩ :=
    hos.typeAt (.inl trivial) hready hroom hbefore fun _ => uncut
  -- after an import
  obtain ⟨shells, filled, -, himp, ha, hshells, hv, horderly⟩ :=
    importTypes_phases hs hroom h.acyclic h.uncancelled
  have hloop : NoLoop filled := (hbefore.after ha fun h => h).after hv fun h => h
  have hof := horderly s.program.pointerSize (h.isNew.listing h.empty regular registration) hloop
  have hroom' : filled.room = none := (Extends.room hv.toExtends).trans (ha.room.trans hroom)
  obtain ⟨y, u, hrun', hu, hou, hy⟩ :=
    hof.typeAt (.inr ⟨h.acyclic, fun _ h => h⟩) (hshells.after hv) hroom' hloop nofun
  refine ⟨x, t, filled, y, u, hrun, himp, hrun', ?_⟩
  have hmatching := SameType.isMatching hot hou
  exact hmatching.alike ht.sound.program.arena hu.sound.program.arena ht.sound.naming
    hu.sound.naming (SameType.resolved hot hou hx hy)

/-- The members of the structure and of the union are pointers and fit. -/
theorem mutualDocument_regular : Regular mutualDocument 4 where
  names {j k m n} hj hk he := by
    match j, k, hj, hk with
    | 0, 0, _, _ | 1, 1, _, _ | 2, 2, _, _ => rfl
    | 0, 1, rfl, rfl | 0, 2, rfl, rfl | 1, 0, rfl, rfl | 1, 2, rfl, rfl | 2, 0, rfl, rfl
    | 2, 1, rfl, rfl => exact absurd he (by decide)
  serials := by decide
  fit c isRecord bases fields members hmem m hm e he := by
    have hbp (common : Document.Common) :
        HasExtent mutualDocument 4 (.typeName common ⟨.text "bp", -1, none⟩) (.plain 4) :=
      .entry (k := 2) rfl (by decide +kernel) rfl rfl rfl .pointer
    simp only [mutualDocument, List.mem_cons, List.not_mem_nil, or_false] at hmem
    rcases hmem with hc | hc | hc
    · cases hc
      cases List.mem_singleton.mp hm
      cases (hbp _).unique he
      decide
    · cases hc
      cases List.mem_singleton.mp hm
      have he : HasExtent mutualDocument 4 (.pointer _ _ _) e := he
      cases he
      decide
    · cases hc

theorem mutualSession_isImportable : mutualSession.IsImportable where
  isNew := mutualSession_isNew
  empty := rfl
  acyclic := mutualDocument_acyclic
  uncancelled := by decide +kernel

theorem typeAt_agrees_mutual :
    ∃ x t filled y u, typeAt 0 mutualSession = (.ok x, t) ∧
      importTypes mutualSession = (.ok (), filled) ∧ typeAt 0 filled = (.ok y, u) ∧
      t.program.arena.Alike u.program.arena x y := by
  have hsilent : (typeAt 0 mutualSession).2.journal = #[] := by decide +kernel
  refine typeAt_agrees mutualSession_isImportable mutualDocument_regular 0 ?_
  rw [NoLoop, hsilent]
  nofun

/-- In a table of structures, unions and enumerations there are no others to go in circles. -/
theorem isAcyclic_of_nominal {d : Document} (h : ∀ n ∈ d.types, n.isNominal = true) :
    IsAcyclic d := by
  have plain (k : Nat) : ¬ IsPlainEntry d k := by
    rintro ⟨node, hn, hp⟩
    rw [h node (List.mem_of_getElem? hn)] at hp
    cases hp
  intro i hi
  cases hi with
  | single hm => exact plain i hm.1
  | tail _ hm => exact plain i hm.2.1

/-- A structure that holds another one, and that other one, which outgrows its size. -/
def grownDocument : Document where
  types :=
    [.composite { serial := 0, name := .text "A", sizeBits := 64 } true []
       [.typeName { serial := 1, name := .text "b", relativeOffset := 0 } ⟨.text "B", -1, none⟩,
        .builtIn { serial := 2, name := .text "c", relativeOffset := 4 } .signed8] [],
     .composite { serial := 3, name := .text "B", sizeBits := 32 } true []
       [.builtIn { serial := 4, name := .text "y", relativeOffset := 0 } .signed32,
        .builtIn { serial := 5, name := .text "z", relativeOffset := 4 } .signed32] []]
  size := 6

/-- Two structures with the same node without a name for a member. -/
def sharedDocument : Document where
  types :=
    let inner := .composite { serial := 0, relativeOffset := 0, sizeBits := 32 } true [] [] []
    [.composite { serial := 1, name := .text "A", sizeBits := 32 } true [] [inner] [],
     .composite { serial := 2, name := .text "B", sizeBits := 32 } true [] [inner] []]
  size := 3

def grownSession : Session := { document := grownDocument, program := {} }

def sharedSession : Session := { document := sharedDocument, program := {} }

theorem grownSession_isImportable : grownSession.IsImportable where
  isNew := by
    have name (t : String) : (Json.text t).IsName := .inr ⟨t, rfl⟩
    refine .of_document ⟨?_, nofun⟩
    simp only [grownDocument, List.forall_mem_cons]
    refine ⟨Node.wellTyped_composite (name _) _ ?_ _,
      Node.wellTyped_composite (name _) _ ?_ _, nofun⟩
    · simp only [List.forall_mem_cons]
      exact ⟨Node.wellTyped_typeName (name _) (name _), Node.wellTyped_builtIn (name _) _, nofun⟩
    · simp only [List.forall_mem_cons]
      exact ⟨Node.wellTyped_builtIn (name _) _, Node.wellTyped_builtIn (name _) _, nofun⟩
  empty := rfl
  acyclic := isAcyclic_of_nominal (by decide)
  uncancelled := by decide +kernel

theorem sharedSession_isImportable : sharedSession.IsImportable where
  isNew := by
    have name (t : String) : (Json.text t).IsName := .inr ⟨t, rfl⟩
    have inner : (Node.composite { serial := 0, relativeOffset := 0, sizeBits := 32 } true [] []
        []).WellTyped :=
      Node.wellTyped_composite (.inl rfl) _ (by simp) _
    refine .of_document ⟨?_, nofun⟩
    simp only [sharedDocument, List.forall_mem_cons]
    refine ⟨Node.wellTyped_composite (name _) _ ?_ _,
      Node.wellTyped_composite (name _) _ ?_ _, nofun⟩
    · simpa using inner
    · simpa using inner
  empty := rfl
  acyclic := isAcyclic_of_nominal (by decide)
  uncancelled := by decide +kernel

/-- On demand and after an import an entry does not look the same. -/
def Session.Disagrees (s : Session) (index : Int) : Prop :=
  ∃ x y, (typeAt index s).1 = .ok x ∧ (typeAt index (importTypes s).2).1 = .ok y ∧
    ¬ (typeAt index s).2.program.arena.Alike (typeAt index (importTypes s).2).2.program.arena x y

/-- Three tables of entries with names of their own: a loop is cut on the way to the third entry
of one, a structure of another outgrows its size, and in the last two structures share a node. -/
theorem typeAt_disagrees :
    (mutualSession.IsImportable ∧ (mutualSession.document.types.map (·.name)).Nodup ∧
      mutualSession.Disagrees 2) ∧
    (grownSession.IsImportable ∧ (grownSession.document.types.map (·.name)).Nodup ∧
      grownSession.Disagrees 0) ∧
    (sharedSession.IsImportable ∧ (sharedSession.document.types.map (·.name)).Nodup ∧
      sharedSession.Disagrees 1) := by
  refine ⟨⟨mutualSession_isImportable, by decide, 4, 2, by decide +kernel, by decide +kernel, ?_⟩,
    ⟨grownSession_isImportable, by decide, 0, 0, by decide +kernel, by decide +kernel, ?_⟩,
    ⟨sharedSession_isImportable, by decide, 0, 1, by decide +kernel, by decide +kernel, ?_⟩⟩
  · intro h
    have hlength := congrArg (Option.map (·.length)) (h [0, 0, 0, 0])
    revert hlength
    decide +kernel
  · intro h
    have hlength := congrArg (Option.map (·.length)) (h [0])
    revert hlength
    decide +kernel
  · intro h
    have hname := congrArg (Option.map (·.name)) (h [0])
    revert hname
    decide +kernel

end StabsImport.Import

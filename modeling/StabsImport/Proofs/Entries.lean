import StabsImport.Proofs.Orders

/-!
# Entries that take their types

An entry that is no structure, union or enumeration takes what its node describes once that is
made; a structure or union is registered first and finished once its members are placed. Either way
an orderly session is left orderly.
-/

namespace StabsImport.Import

open Document (Node Base TypeReference)

variable {d : Document} {pointerSize : Int} {L L' : Scope} {w w' : Pending} {s s' t u : Session}
  {own : List Nat} {touched : Option TypeId} {P Q : Pending → Prop}

/-- What is held to be the type of an entry, a placeholder if there is no such entry. -/
def Resolved (d : Document) (s : Session) (w : Pending) (index : Int) (id : TypeId) : Prop :=
  (∃ k : Nat, index = k ∧ k < d.types.length ∧ s.typeAt? k = some id) ∨
    (index < 0 ∨ d.types.length ≤ index) ∧ (s.settled w).holds id (.undefinedOf 1)

/-- A reference is described by the type of the entry it leads to. -/
theorem Orderly.describes_reference (h : Orderly d pointerSize L w s) {r : TypeReference}
    (solid : r.isVoid = false) {index : Int} (leads : entryOf? d r = some index) {id : TypeId}
    (hr : Resolved d s w index id) (c : Document.Common) (hint : Json) :
    ∃ e, Describes d pointerSize (s.settled w) (.typeName c r) hint id e := by
  rcases hr with ⟨k, rfl, hlt, he⟩ | ⟨hout, hh⟩
  · have hk : d.types[k]? = some d.types[k] := List.getElem?_eq_getElem hlt
    have hm := h.made hk he
    cases hn : d.types[k].isNominal with
    | true => exact ⟨_, .nominal solid leads hk hn he⟩
    | false =>
        generalize d.types[k] = node at hk hm hn
        cases hm with
        | enumeration => cases hn
        | composite => cases hn
        | plain _ hd => exact ⟨_, .entry solid leads hk hn hd.isBuildable hd⟩
        | missing _ hb hh =>
            refine ⟨_, .missing solid ?_ hh⟩
            intro j m leads' hj
            obtain ⟨rfl, rfl⟩ := leads_unique leads hk leads' hj
            exact hb
  · refine ⟨_, .missing solid ?_ hh⟩
    intro j m leads' hj
    rw [leads, Option.some.injEq] at leads'
    have hlt := (List.getElem?_eq_some_iff.mp hj).1
    omega

theorem Orderly.describes_missing (h : Orderly d pointerSize L w s) {r : TypeReference}
    (solid : r.isVoid = false) (leads : entryOf? d r = none) {id : TypeId}
    (hg : s.program.arena.get? id = some (.undefinedOf 1)) (c : Document.Common) (hint : Json) :
    ∃ e, Describes d pointerSize (s.settled w) (.typeName c r) hint id e := by
  refine ⟨_, .missing solid ?_ (h.holds hg rfl)⟩
  intro j m leads'
  rw [leads] at leads'
  cases leads'

/-- The nodes of an entry that was not looked at are fresh. -/
theorem Orderly.fresh (h : Orderly d pointerSize L w s) {k : Nat} {node : Node}
    (hk : d.types[k]? = some node) (hu : Untouched L w s k)
    (nodes : s'.cache.nodes = s.cache.nodes) (touched : ¬ Untouched L' w' s' k) :
    Fresh d L' w' node.serials s' where
  nodup := h.regular.nodup hk
  uncached n hn := by
    rw [nodes]
    exact h.uncached hk hu n hn
  apart {j m} hj huj n hn := by
    refine h.regular.apart hk hj ?_ hn
    rintro rfl
    exact touched huj

theorem Orders.of_orderly (h : ∀ w, Orderly d pointerSize L w s → Orders d pointerSize L own s s' Q) :
    Orders d pointerSize L own s s' Q :=
  fun hl w ho hf => h w ho hl w ho hf

/-! ## Composites in nodes -/

/-- A composite that stands in a node is unfinished only while its members are placed. -/
theorem Orders.inline (hs : s.Sound) {c : Document.Common} {isRecord : Bool} {bases : List Base}
    {fields members : List Node} {hint name : Json} (hname : name = nameOr c.name hint "__anon_struct")
    (hfill : Fills d pointerSize L s.program.arena.size own (membersOf isRecord bases fields)
      { s.push (.named name (.composite (.empty (kindOf isRecord) (declaredBytes c.sizeBits)))) with
        cache.nodes := s.cache.nodes.put c.serial s.program.arena.size } s') :
    Orders d pointerSize L (c.serial :: own) s s' fun w => ∃ e, Describes d pointerSize
      (s'.settled w) (.composite c isRecord bases fields members) hint s.program.arena.size e := by
  intro hl w ho hf
  let shell : Composite := .empty (kindOf isRecord) (declaredBytes c.sizeBits)
  let pushed := s.push (.named name (.composite shell))
  let t : Session :=
    { pushed with cache.nodes := pushed.cache.nodes.put c.serial s.program.arena.size }
  have hot : Orderly d pointerSize L (w.opening s.program.arena.size) t :=
    (ho.pushShell name shell).cacheNode _ fun hk hu =>
      hf.apart hk hu c.serial List.mem_cons_self
  have hkt : Keeps d L [c.serial] (some s.program.arena.size) s t := by
    have hg : Keeps d L [] (some s.program.arena.size) s pushed :=
      .of_gains (Preserves.newType _ s)
    exact hg.trans (.cacheNode pushed c.serial _)
  have hft : Fresh d L (w.opening s.program.arena.size) own t := by
    have hf : Fresh d L w ([c.serial] ++ own) s := hf
    exact { hf.right hkt with apart := (hf.right hkt).apart }
  have hgt : t.program.arena.get? s.program.arena.size = some (.named name (.composite shell)) :=
    get?_push s _
  -- no entry has the new composite for its type
  have none {k : Nat} {node : Node} (hk : d.types[k]? = some node) (hn : node.isNominal = true)
      (hku : Keeps d L own (some s.program.arena.size) t s') :
      s'.typeAt? k ≠ some s.program.arena.size := fun he =>
    Nat.lt_irrefl _ (hs.entry_lt (hku.typeAt_before hk hn (Arena.lt_size_of_get? hgt) he))
  obtain ⟨hou, hku, made, hgu, hp⟩ := hfill hl _ _ _ hot hft (.inl rfl) hgt fun hk hn he =>
    absurd (hs.entry_lt he) (Nat.lt_irrefl _)
  have within := settled_within_opening s' w s.program.arena.size
  have hplaces := hp.mono within fun _ _ _ _ hd => hd.mono within
  refine ⟨hou.finish (fun hw he => ?_) (fun hk he _ => absurd he (none hk rfl hku)), ?_, ?_⟩
  · obtain ⟨id, he', ht⟩ := ho.pending hw
    rw [hku.entry (hkt.entry he')] at he
    cases he
    exact Nat.lt_irrefl _ (ho.lt_size ht)
  · refine (hkt.trans hku).untouched ?_
    rintro _ ⟨⟩
    exact Nat.le_refl _
  · rw [hname] at hgu hplaces
    refine ⟨_, .composite (fun _ _ _ _ hd => hd) hplaces ⟨hgu, fun hw => ?_⟩⟩
    exact Nat.lt_irrefl _ (ho.lt_size hw)

/-! ## Entries of the table -/

section

variable {k : Nat} {node : Node}

/-- What is done while an entry is open, and that it gets its type, is the business of entering
it. -/
theorem Keeps.entering (h : Keeps d (L.opening k) own touched s u)
    (hk : d.types[k]? = some node) (sub : own ⊆ node.serials) (unset : s.typeAt? k = none)
    (hfree : ¬ L.isOpen k) (hset : u.typeAt? k ≠ none)
    (ht : ∀ id ∈ touched, s.program.arena.size ≤ id) : Keeps d L [] none s u :=
  { h.untouched ht with
    cached := fun {n} hn hn' => by
      rcases h.cached hn hn' with hm | ⟨j, m, hj, hm, he, ho, hs⟩
      · exact .inr ⟨k, node, hk, sub hm, unset, hfree, hset⟩
      · exact .inr ⟨j, m, hj, hm, he, fun hj => ho (.inr hj), hs⟩ }

theorem typeAt?_setEntry (id : TypeId) (hin : k < t.table.size) :
    Session.typeAt? { t with table := t.table.setIfInBounds k (some id) } k = some id := by
  rw [Session.typeAt?_set, if_pos ⟨rfl, hin⟩]

theorem typeAt?_setEntry_of_ne {j : Nat} (id : TypeId) (h : j ≠ k) :
    Session.typeAt? { t with table := t.table.setIfInBounds k (some id) } j = t.typeAt? j := by
  rw [Session.typeAt?_set, if_neg fun hc => h hc.1.symm]

/-- Giving an entry its type keeps all else. -/
theorem Keeps.setEntry (id : TypeId) (hk : d.types[k]? = some node) (unset : t.typeAt? k = none)
    (new : node.isNominal = true → t.program.arena.size ≤ id) :
    Keeps d L [] touched t { t with table := t.table.setIfInBounds k (some id) } where
  size := Nat.le_refl _
  kept hg _ := hg
  entry {j x} he := by
    rw [typeAt?_setEntry_of_ne]
    · exact he
    · rintro rfl
      rw [unset] at he
      cases he
  entered {j m x} hj hn he he' := by
    by_cases hjk : j = k
    · subst hjk
      rw [hk] at hj
      cases hj
      rw [Session.typeAt?_set] at he'
      split at he'
      · cases he'
        exact new hn
      · rw [he] at he'
        cases he'
    · rw [typeAt?_setEntry_of_ne id hjk, he] at he'
      cases he'
  cached hn hn' := absurd hn hn'

/-- An entry that is no structure, union or enumeration takes what its node describes, or a
placeholder if it describes nothing. -/
theorem Orders.enterPlain {id : TypeId} (hk : d.types[k]? = some node)
    (plain : node.isNominal = false) (unset : s.typeAt? k = none) (hfree : ¬ L.isOpen k)
    (hin : k < t.table.size) (unset' : t.typeAt? k = none)
    (h : Orders d pointerSize (L.opening k) node.serials s t fun w =>
      Made d pointerSize w t k node id) :
    Orders d pointerSize L [] s { t with table := t.table.setIfInBounds k (some id) } fun w =>
      Resolved d { t with table := t.table.setIfInBounds k (some id) } w k id := by
  intro hl w ho _
  have hset := typeAt?_setEntry id hin
  have pending : ¬ w.entries k := fun hw => by
    obtain ⟨_, he, _⟩ := ho.pending hw
    rw [unset] at he
    cases he
  have hf : Fresh d (L.opening k) w node.serials s := ho.fresh hk (.inl ⟨unset, hfree⟩) rfl
    fun hu => hu.elim (fun hu => hu.2 (.inl rfl)) pending
  obtain ⟨hot, hkt, hm⟩ := h hl w (ho.opening k) hf
  refine ⟨(hot.enter hk unset' hm).of_opening ?_, ?_, .inl ⟨k, rfl, ?_, hset⟩⟩
  · rw [hset]
    nofun
  · have hku := hkt.trans (.setEntry id hk unset' fun hn => by rw [plain] at hn; cases hn)
    rw [List.append_nil] at hku
    refine hku.entering hk (List.Subset.refl _) unset hfree ?_ nofun
    rw [hset]
    nofun
  · exact (List.getElem?_eq_some_iff.mp hk).1

/-- Registering a type for an entry keeps all else. -/
theorem Keeps.enlist (own : String) (shape : Shape) (unset : s.typeAt? k = none) :
    Keeps d L [] touched s (s.enlist k own shape) where
  size := by
    have h : (s.enlist k own shape).program.arena.size = s.program.arena.size + 1 :=
      Arena.size_push _ _
    rw [h]
    exact Nat.le_succ _
  kept hg _ := get?_enlist_of_get? k own shape hg
  entry he := typeAt?_enlist_of_typeAt? own shape unset he
  entered {j m x} _ _ he he' := by
    rw [typeAt?_enlist_eq] at he'
    split at he'
    · cases he'
      exact Nat.le_refl _
    · rw [he] at he'
      cases he'
  cached hn hn' := absurd hn hn'

variable {name : String}

/-- An enumeration of the table is registered, and there is no more to it. -/
theorem Orders.enterEnumeration {c : Document.Common} {constants : List (Int × Json)}
    (hk : d.types[k]? = some (.enumeration c constants))
    (hname : entryName (.enumeration c constants) k = .text name) (hg : Gains s t)
    (unset : s.typeAt? k = none) (hfree : ¬ L.isOpen k) (hin : k < t.table.size) :
    Orders d pointerSize L [] s
      (t.enlist k name (.enumeration enumerationSize (constantsOf constants)))
      fun w => Resolved d (t.enlist k name (.enumeration enumerationSize (constantsOf constants))) w
        k t.program.arena.size := by
  refine after_gains hg fun _ w ho _ => ?_
  have unset : t.typeAt? k = none := (hg.entry k).trans unset
  refine ⟨?_, .enlist name _ unset, .inl ⟨k, rfl, ?_, typeAt?_enlist name _ hin⟩⟩
  · exact ho.enlist hk rfl hname unset hfree hin (fun h => h) .inl .inl fun hg => .enumeration hg
  · exact (List.getElem?_eq_some_iff.mp hk).1

/-- A structure or union of the table is registered first. What its members lead to finds it. -/
theorem Orders.enterComposite {c : Document.Common} {isRecord : Bool} {bases : List Base}
    {fields members : List Node} (hk : d.types[k]? = some (.composite c isRecord bases fields members))
    (hname : entryName (.composite c isRecord bases fields members) k = .text name)
    (unset : s.typeAt? k = none) (hfree : ¬ L.isOpen k) (hin : k < s.table.size)
    (hown : (Node.composite c isRecord bases fields members).serials = c.serial :: own)
    (hfill : Fills d pointerSize (L.opening k) s.program.arena.size own
      (membersOf isRecord bases fields)
      (s.enlist k name (.composite (.empty (kindOf isRecord) (declaredBytes c.sizeBits)))) u) :
    Orders d pointerSize L [] s u fun w => Resolved d u w k s.program.arena.size := by
  intro hl w ho _
  let shell : Composite := .empty (kindOf isRecord) (declaredBytes c.sizeBits)
  let t := s.enlist k name (.composite shell)
  have hset : t.typeAt? k = some s.program.arena.size := typeAt?_enlist name _ hin
  have hgt : t.program.arena.get? s.program.arena.size =
      some (.named (entryName (.composite c isRecord bases fields members) k) (.composite shell)) := by
    rw [hname]
    exact get?_enlist s k name _
  have pending {j : Nat} (hw : w.entries j) : j ≠ k := by
    rintro rfl
    obtain ⟨_, he, _⟩ := ho.pending hw
    rw [unset] at he
    cases he
  have hot : Orderly d pointerSize L (w.opening s.program.arena.size) t := by
    refine ho.enlist hk rfl hname unset hfree hin (fun hw => ?_) ?_ .inl fun hg => ?_
    · exact .inr hw
    · rintro id (rfl | hw)
      · exact .inr ⟨rfl, _, rfl⟩
      · exact .inl hw
    · exact .composite hg rfl rfl (fun _ => rfl) fun h => absurd (.inl rfl) h
  have hft : Fresh d (L.opening k) (w.opening s.program.arena.size) own t := by
    have hf : Fresh d (L.opening k) (w.opening s.program.arena.size)
        (Node.composite c isRecord bases fields members).serials t :=
      ho.fresh hk (.inl ⟨unset, hfree⟩) rfl fun hu =>
        hu.elim (fun hu => hu.2 (.inl rfl)) fun hw => pending hw rfl
    rw [hown] at hf
    exact hf.tail
  obtain ⟨hou, hku, made, hgu, hp⟩ := hfill hl _ _ _ (hot.opening k) hft (.inl rfl) hgt (by
    intro j m hj hn he
    obtain rfl := hot.eq_of_typeAt hj hk hn rfl he hset
    refine ⟨fun hw => pending hw rfl, declaredBytes_nonneg _, ?_⟩
    exact ho.regular.fit c isRecord bases fields members (List.mem_of_getElem? hk))
  have hsu := hku.entry hset
  have within := settled_within_opening u w s.program.arena.size
  have hplaces := hp.mono within fun _ _ _ _ hd => hd.mono within
  refine ⟨(hou.finish ?_ ?_).of_opening ?_, ?_, .inl ⟨k, rfl, ?_, hsu⟩⟩
  · intro j hw he
    obtain ⟨id, he', ht⟩ := ho.pending hw
    rw [hku.entry (typeAt?_enlist_of_typeAt? name _ unset he')] at he
    cases he
    exact Nat.lt_irrefl _ (ho.lt_size ht)
  · intro j c' isRecord' bases' fields' members' made' hj he hg
    obtain rfl := hou.eq_of_typeAt hj hk rfl rfl he hsu
    rw [hk] at hj
    cases hj
    rw [hgu] at hg
    cases hg
    exact hplaces
  · rw [hsu]
    nofun
  · have hks : Keeps d (L.opening k) [] (some s.program.arena.size) s t :=
      .enlist name _ unset
    refine (hks.trans hku).entering hk ?_ unset hfree ?_ ?_
    · rw [hown]
      exact List.subset_cons_self _ _
    · rw [hsu]
      nofun
    · rintro _ ⟨⟩
      exact Nat.le_refl _
  · exact (List.getElem?_eq_some_iff.mp hk).1

end

end StabsImport.Import

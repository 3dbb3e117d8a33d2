import StabsImport.Proofs.Orderly

/-!
# Order kept

What actions do to orderly sessions as long as no loop is cut. `Orders` says it of the making of a
type, `Fills` of the placing of members. A node is given a type once, so an action is told by the
numbers of the nodes it looks at, none of which has a type before.
-/

namespace StabsImport.Import

open Document (Node)

variable {d : Document} {pointerSize : Int} {L : Scope} {w : Pending} {s s' t u : Session}
  {own own' : List Nat} {touched : Option TypeId} {P Q : Pending → Prop}

/-- No notice so far says that an entry refers to itself. -/
def NoLoop (s : Session) : Prop := ∀ n ∈ s.journal.toList, ¬ IsLoopNotice n

theorem NoLoop.before (h : NoLoop s') (hp : s.journal.toList <+: s'.journal.toList) : NoLoop s :=
  fun n hn => h n (hp.mem hn)

theorem After.journal_prefix (h : After L s s') : s.journal.toList <+: s'.journal.toList := by
  obtain ⟨ns, hn, -⟩ := h.journal
  exact ⟨ns, hn.symm⟩

theorem Gains.size_le (h : Gains s s') : s.program.arena.size ≤ s'.program.arena.size := by
  refine Nat.le_of_not_lt fun hlt => ?_
  have hg := h.kept (Array.getElem?_eq_getElem hlt)
  exact Nat.lt_irrefl _ (Arena.lt_size_of_get? hg)

theorem Gains.withRoom (s : Session) (r : Room) : Gains s { s with room := r } :=
  ⟨rfl, rfl, fun h => h, rfl, fun _ => rfl, rfl, List.prefix_rfl⟩

/-- One type may be touched. All others stay, entries that get a type get a new one if it is their
own, and only nodes of these numbers and of entries that are entered get types. -/
structure Keeps (d : Document) (L : Scope) (own : List Nat) (touched : Option TypeId)
    (s s' : Session) : Prop where
  size : s.program.arena.size ≤ s'.program.arena.size
  kept : ∀ {id t}, s.program.arena.get? id = some t → touched ≠ some id →
    s'.program.arena.get? id = some t
  entry : ∀ {k id}, s.typeAt? k = some id → s'.typeAt? k = some id
  entered : ∀ {k node id}, d.types[k]? = some node → node.isNominal = true →
    s.typeAt? k = none → s'.typeAt? k = some id → s.program.arena.size ≤ id
  cached : ∀ {n}, s.cache.nodes.get? n = none → s'.cache.nodes.get? n ≠ none →
    n ∈ own ∨ ∃ k node, d.types[k]? = some node ∧ n ∈ node.serials ∧ s.typeAt? k = none ∧
      ¬ L.isOpen k ∧ s'.typeAt? k ≠ none

/-- Nodes of these numbers were not given types yet, and none will be by entering an entry. -/
structure Fresh (d : Document) (L : Scope) (w : Pending) (own : List Nat) (s : Session) : Prop where
  nodup : own.Nodup
  uncached : ∀ n ∈ own, s.cache.nodes.get? n = none
  apart : ∀ {k node}, d.types[k]? = some node → Untouched L w s k → ∀ n ∈ own, n ∉ node.serials

namespace Keeps

theorem of_gains (h : Gains s s') : Keeps d L own touched s s' where
  size := h.size_le
  kept hg _ := h.kept hg
  entry he := (h.entry _).trans he
  entered _ _ hn he := by
    rw [h.entry, hn] at he
    cases he
  cached hn hn' := by
    rw [h.nodes] at hn'
    exact absurd hn hn'

theorem cacheNode (s : Session) (n : Nat) (id : TypeId) :
    Keeps d L [n] touched s { s with cache.nodes := s.cache.nodes.put n id } where
  size := Nat.le_refl _
  kept hg _ := hg
  entry he := he
  entered _ _ hn he := by
    rw [show s.typeAt? _ = some _ from he] at hn
    cases hn
  cached {m} hn hn' := by
    simp only [Ledger.get?_put] at hn'
    split at hn'
    · next h =>
        simp only [Key.same, Key.form, decide_eq_true_eq] at h
        exact .inl (List.mem_singleton.mpr h.symm)
    · exact absurd hn hn'

theorem unset (h : Keeps d L own touched s s') {k : Nat} (hk : s'.typeAt? k = none) :
    s.typeAt? k = none := by
  cases he : s.typeAt? k with
  | none => rfl
  | some id =>
      rw [h.entry he] at hk
      cases hk

theorem trans (h : Keeps d L own touched s t) (h' : Keeps d L own' touched t u) :
    Keeps d L (own ++ own') touched s u where
  size := Nat.le_trans h.size h'.size
  kept hg ht := h'.kept (h.kept hg ht) ht
  entry he := h'.entry (h.entry he)
  entered {k _ _} hk hn hs hu := by
    cases ht : t.typeAt? k with
    | none => exact Nat.le_trans h.size (h'.entered hk hn ht hu)
    | some id =>
        rw [h'.entry ht] at hu
        cases hu
        exact h.entered hk hn hs ht
  cached {n} hn hu := by
    by_cases ht : t.cache.nodes.get? n = none
    · rcases h'.cached ht hu with hm | ⟨k, node, hk, hm, he, ho, hs⟩
      · exact .inl (List.mem_append_right _ hm)
      · exact .inr ⟨k, node, hk, hm, h.unset he, ho, hs⟩
    · rcases h.cached hn ht with hm | ⟨k, node, hk, hm, he, ho, hs⟩
      · exact .inl (List.mem_append_left _ hm)
      · exact .inr ⟨k, node, hk, hm, he, ho, fun hu => hs (h'.unset hu)⟩

theorem gains (h : Keeps d L own touched s t) (hg : Gains t u) : Keeps d L own touched s u := by
  have hg : Keeps d L [] touched t u := .of_gains hg
  have h := h.trans hg
  rwa [List.append_nil] at h

theorem after_gains (hg : Gains s t) (h : Keeps d L own touched t u) :
    Keeps d L own touched s u := by
  have hg : Keeps d L [] touched s t := .of_gains hg
  exact hg.trans h

theorem mono (h : Keeps d L own none s s') (sub : own ⊆ own') : Keeps d L own' touched s s' :=
  { h with
    kept := fun hg _ => h.kept hg nofun
    cached := fun hn hn' => (h.cached hn hn').imp_left fun hm => sub hm }

/-- A type that was not there before may be touched. -/
theorem untouched (h : Keeps d L own touched s s')
    (ht : ∀ id ∈ touched, s.program.arena.size ≤ id) : Keeps d L own none s s' :=
  { h with
    kept := fun {id _} hg _ => by
      refine h.kept hg fun hid => ?_
      exact Nat.lt_irrefl _ (Nat.lt_of_lt_of_le (Arena.lt_size_of_get? hg) (ht id hid)) }

theorem settled (h : Keeps d L own touched s s') (ht : ∀ id ∈ touched, w.types id) :
    (s.settled w).Within (s'.settled w) where
  holds hg := by
    refine ⟨h.kept hg.1 ?_, hg.2⟩
    rintro rfl
    exact hg.2 (ht _ rfl)
  entry he := h.entry he

/-- A type from before is that of an entry only if it was so before. -/
theorem typeAt_before (h : Keeps d L own touched s s') {k : Nat} {node : Node} {id : TypeId}
    (hk : d.types[k]? = some node) (hn : node.isNominal = true)
    (hlt : id < s.program.arena.size) (he : s'.typeAt? k = some id) : s.typeAt? k = some id := by
  cases hs : s.typeAt? k with
  | none => exact absurd (h.entered hk hn hs he) (Nat.not_le.mpr hlt)
  | some x => rw [← he, h.entry hs]

end Keeps

theorem Untouched.before (h : Keeps d L own touched s s') {k : Nat} (hu : Untouched L w s' k) :
    Untouched L w s k :=
  hu.imp_left fun hu => ⟨h.unset hu.1, hu.2⟩

namespace Fresh

theorem of_perm (h : Fresh d L w own s) (hp : own.Perm own') : Fresh d L w own' s where
  nodup := hp.nodup h.nodup
  uncached n hn := h.uncached n (hp.mem_iff.mpr hn)
  apart hk hu n hn := h.apart hk hu n (hp.mem_iff.mpr hn)

theorem left (h : Fresh d L w (own ++ own') s) : Fresh d L w own s where
  nodup := (List.nodup_append.mp h.nodup).1
  uncached n hn := h.uncached n (List.mem_append_left _ hn)
  apart hk hu n hn := h.apart hk hu n (List.mem_append_left _ hn)

/-- What is still fresh after a part was looked at. -/
theorem right (h : Fresh d L w (own ++ own') s) (hk : Keeps d L own touched s s') :
    Fresh d L w own' s' where
  nodup := (List.nodup_append.mp h.nodup).2.1
  uncached n hn := by
    by_contra hc
    rcases hk.cached (h.uncached n (List.mem_append_right _ hn)) hc with
      hm | ⟨k, node, hnode, hm, he, ho, _⟩
    · exact (List.nodup_append.mp h.nodup).2.2 n hm n hn rfl
    · exact h.apart hnode (.inl ⟨he, ho⟩) n (List.mem_append_right _ hn) hm
  apart hnode hu n hn := h.apart hnode (hu.before hk) n (List.mem_append_right _ hn)

theorem tail {n : Nat} (h : Fresh d L w (n :: own) s) : Fresh d L w own s := by
  have h : Fresh d L w ([n] ++ own) s := h
  have hk : Keeps d L [n] none s s := .of_gains (.refl s)
  exact h.right hk

theorem gains (h : Fresh d L w own s) (hg : Gains s s') : Fresh d L w own s' := by
  have hk : Keeps d L [] none s s' := .of_gains hg
  have h : Fresh d L w ([] ++ own) s := h
  exact h.right hk

end Fresh

/-! ## Making a type -/

/-- An orderly session leads to an orderly session and to something that holds in it, if no loop
is cut and if the nodes looked at are fresh. -/
def Orders (d : Document) (pointerSize : Int) (L : Scope) (own : List Nat) (s s' : Session)
    (Q : Pending → Prop) : Prop :=
  NoLoop s' → ∀ w, Orderly d pointerSize L w s → Fresh d L w own s →
    Orderly d pointerSize L w s' ∧ Keeps d L own none s s' ∧ Q w

namespace Orders

theorem of_gains (hg : Gains s s') (hq : ∀ w, Orderly d pointerSize L w s' → Q w) :
    Orders d pointerSize L own s s' Q :=
  fun _ w h _ => ⟨h.gains hg, .of_gains hg, hq w (h.gains hg)⟩

/-- One action after another looks at the nodes of both. -/
theorem trans (h : Orders d pointerSize L own s t P) (h' : Orders d pointerSize L own' t u Q)
    (hj : t.journal.toList <+: u.journal.toList) {R : Pending → Prop}
    (hr : ∀ w, (t.settled w).Within (u.settled w) → P w → Q w → R w) :
    Orders d pointerSize L (own ++ own') s u R := by
  intro hl w ho hf
  obtain ⟨ho, hk, hp⟩ := h (hl.before hj) w ho hf.left
  obtain ⟨ho', hk', hq⟩ := h' hl w ho (hf.right hk)
  exact ⟨ho', hk.trans hk', hr w (hk'.settled nofun) hp hq⟩

theorem gains (h : Orders d pointerSize L own s t P) (hg : Gains t u)
    (hq : ∀ w, Orderly d pointerSize L w t → Orderly d pointerSize L w u → P w → Q w) :
    Orders d pointerSize L own s u Q := by
  intro hl w ho hf
  obtain ⟨ho, hk, hp⟩ := h (hl.before hg.journal) w ho hf
  exact ⟨ho.gains hg, hk.gains hg, hq w ho (ho.gains hg) hp⟩

theorem after_gains (hg : Gains s t) (h : Orders d pointerSize L own t u Q) :
    Orders d pointerSize L own s u Q := by
  intro hl w ho hf
  obtain ⟨ho', hk, hq⟩ := h hl w (ho.gains hg) (hf.gains hg)
  exact ⟨ho', hk.after_gains hg, hq⟩

theorem mono (h : Orders d pointerSize L own s s' P)
    (hq : ∀ w, Orderly d pointerSize L w s' → P w → Q w) : Orders d pointerSize L own s s' Q := by
  intro hl w ho hf
  obtain ⟨ho, hk, hp⟩ := h hl w ho hf
  exact ⟨ho, hk, hq w ho hp⟩

theorem of_perm (h : Orders d pointerSize L own s s' Q) (hp : own.Perm own') :
    Orders d pointerSize L own' s s' Q := by
  intro hl w ho hf
  obtain ⟨ho, hk, hq⟩ := h hl w ho (hf.of_perm hp.symm)
  exact ⟨ho, hk.mono hp.subset, hq⟩

/-- Nodes that were not looked at may as well be left alone. -/
theorem left (h : Orders d pointerSize L own s s' Q) (own' : List Nat) :
    Orders d pointerSize L (own ++ own') s s' Q := by
  intro hl w ho hf
  obtain ⟨ho, hk, hq⟩ := h hl w ho hf.left
  exact ⟨ho, hk.mono (List.subset_append_left _ _), hq⟩

/-- A node that has a type is not fresh. -/
theorem of_cached {n : Nat} {id : TypeId} (h : s.cache.nodes.get? n = some id) (hn : n ∈ own) :
    Orders d pointerSize L own s s' Q := by
  intro _ w _ hf
  rw [hf.uncached n hn] at h
  cases h

theorem inside {r : Room} (h : Orders d pointerSize L own { s with room := r } s' Q) :
    Orders d pointerSize L own s { s' with room := s.room } Q :=
  (after_gains (.withRoom s r) h).gains (.withRoom s' s.room) fun _ _ _ hq => hq

/-- A node takes its type. -/
theorem cacheNode (n : Nat) (id : TypeId) (hq : ∀ w, Q w) :
    Orders d pointerSize L [n] s { s with cache.nodes := s.cache.nodes.put n id } Q := by
  intro _ w ho hf
  refine ⟨ho.cacheNode id fun hk hu => ?_, .cacheNode s n id, hq w⟩
  exact hf.apart hk hu n (List.mem_singleton_self n)

end Orders

/-! ## Placing members -/

/-- The members are placed in the composite in turn, or left out. A composite of the table has room
for them all and is not one whose members are all still to be looked at. -/
def Fills (d : Document) (pointerSize : Int) (L : Scope) (shell : TypeId) (own : List Nat)
    (ms : List Member) (s s' : Session) : Prop :=
  NoLoop s' → ∀ w name c, Orderly d pointerSize L w s → Fresh d L w own s → w.types shell →
    s.program.arena.get? shell = some (.named name (.composite c)) →
    (∀ {k node}, d.types[k]? = some node → node.isNominal = true → s.typeAt? k = some shell →
      ¬ w.entries k ∧ 0 ≤ c.size ∧ ∀ m ∈ ms, ∀ e, HasExtent d pointerSize m.node e →
        m.needs c.kind (m.placed e) ≤ c.size) →
    Orderly d pointerSize L w s' ∧ Keeps d L own (some shell) s s' ∧
      ∃ c', s'.program.arena.get? shell = some (.named name (.composite c')) ∧
        Places pointerSize (s'.settled w) (Describes d pointerSize (s'.settled w)) name c ms c'

namespace Fills

variable {shell : TypeId} {m : Member} {ms ns : List Member}

theorem nil (shell : TypeId) : Fills d pointerSize L shell [] [] s s :=
  fun _ _ _ _ ho _ _ hc _ => ⟨ho, .of_gains (.refl s), _, hc, .nil⟩

theorem gains (h : Fills d pointerSize L shell own ms s t) (hg : Gains t u) :
    Fills d pointerSize L shell own ms s u := by
  intro hl w name c ho hf hw hc hfit
  obtain ⟨ho, hk, c', hc', hp⟩ := h (hl.before hg.journal) w name c ho hf hw hc hfit
  have within := hg.settled w
  exact ⟨ho.gains hg, hk.gains hg, c', hg.kept hc', hp.mono within fun _ _ _ _ hd =>
    hd.mono within⟩

theorem after_gains (hg : Gains s t) (h : Fills d pointerSize L shell own ms t u) :
    Fills d pointerSize L shell own ms s u := by
  intro hl w name c ho hf hw hc hfit
  obtain ⟨ho', hk, hp⟩ := h hl w name c (ho.gains hg) (hf.gains hg) hw (hg.kept hc)
    fun hk hn he => hfit hk hn ((hg.entry _).symm.trans he)
  exact ⟨ho', hk.after_gains hg, hp⟩

theorem inside {r : Room} (h : Fills d pointerSize L shell own ms { s with room := r } s') :
    Fills d pointerSize L shell own ms s { s' with room := s.room } :=
  (after_gains (.withRoom s r) h).gains (.withRoom s' s.room)

/-- Members after members, as the composite is after the first. -/
theorem append (h : Fills d pointerSize L shell own ms s t)
    (h' : Fills d pointerSize L shell own' ns t u) (hj : t.journal.toList <+: u.journal.toList) :
    Fills d pointerSize L shell (own ++ own') (ms ++ ns) s u := by
  intro hl w name c ho hf hw hc hfit
  obtain ⟨ho', hk, c', hc', hp⟩ := h (hl.before hj) w name c ho hf.left hw hc
    fun hk hn he => (hfit hk hn he).imp_right fun hfit =>
      ⟨hfit.1, fun m hm => hfit.2 m (List.mem_append_left _ hm)⟩
  have before {k : Nat} {node : Node} (hnode : d.types[k]? = some node)
      (hn : node.isNominal = true) (he : t.typeAt? k = some shell) : s.typeAt? k = some shell :=
    hk.typeAt_before hnode hn (Arena.lt_size_of_get? hc) he
  obtain ⟨ho'', hk', c'', hc'', hp'⟩ := h' hl w name c' ho' (hf.right hk) hw hc' (by
    intro k node hnode hn he
    obtain ⟨untouched, hc0, hfit⟩ := hfit hnode hn (before hnode hn he)
    -- the size of the composite is still the one declared
    have hsize : c'.size = c.size := by
      have hm := (ho.made hnode (before hnode hn he)).named hn
      have hm' := (ho'.made hnode he).named hn
      obtain ⟨_, hg, hx⟩ := hm
      obtain ⟨_, hg', hx'⟩ := hm'
      rw [hc] at hg
      rw [hc'] at hg'
      cases hg
      cases hg'
      have hx := hx'.trans hx.symm
      simp only [Shape.extent, Extent.composite.injEq] at hx
      exact hx
    rw [hsize, hp.kind]
    exact ⟨untouched, hc0, fun m hm => hfit m (List.mem_append_right _ hm)⟩)
  have within : (t.settled w).Within (u.settled w) := hk'.settled (by rintro _ ⟨⟩; exact hw)
  refine ⟨ho'', hk.trans hk', c'', hc'', Places.append ?_ hp'⟩
  exact hp.mono within fun _ _ _ _ hd => hd.mono within

/-- A member whose type cannot be made is left out. -/
theorem leftOut (h : Orders d pointerSize L own s s' fun _ =>
      m.node.isBuildable pointerSize = false) (shell : TypeId) :
    Fills d pointerSize L shell own [m] s s' := by
  intro hl w name c ho hf hw hc _
  obtain ⟨ho', hk, hb⟩ := h hl w ho hf
  exact ⟨ho', hk.mono (List.Subset.refl _), c, hk.kept hc nofun, .leftOut hb .nil⟩

/-- What is put for a member is what its node describes. -/
theorem placed {hint : Json} {type : TypeId}
    (h : Orders d pointerSize L own s t fun w =>
      ∃ e, Describes d pointerSize (t.settled w) m.node hint type e)
    (hs : t.Sound)
    (hhint : ∀ {name c}, s.program.arena.get? shell = some (.named name (.composite c)) →
      hint = m.hint name)
    (hput : Puts m shell type t u) (hj : t.journal.toList <+: u.journal.toList) :
    Fills d pointerSize L shell own [m] s u := by
  intro hl w name c ho hf hw hc hfit
  obtain ⟨ho', hk, e, hd⟩ := h (hl.before hj) w ho hf
  have hct := hk.kept hc nofun
  obtain ⟨id, v, hg, hstands, rfl⟩ := hput name c hct
  have hcv := hg.kept hct
  rw [ho'.extent_eq hs hd] at hstands ⊢
  have hov := ho'.gains hg
  have hsize {k : Nat} {node : Node} (hnode : d.types[k]? = some node)
      (hn : node.isNominal = true) (he : v.typeAt? k = some shell) :
      (m.place c id (m.placed e)).size = c.size ∧ ¬ w.entries k := by
    rw [hg.entry] at he
    obtain ⟨touched, hc0, hfit⟩ := hfit hnode hn
      (hk.typeAt_before hnode hn (Arena.lt_size_of_get? hc) he)
    refine ⟨?_, touched⟩
    rw [Member.place_size hc0]
    exact Int.max_eq_left (hfit m (List.mem_singleton_self m) e hd.hasExtent)
  have hou := hov.edit hw hcv (Member.place_kind c id (m.placed e) m) hsize
  have within := settled_within_withComposite v hw name (m.place c id (m.placed e))
  refine ⟨hou, ?_, _, get?_withComposite_self name _ (Arena.lt_size_of_get? hcv), ?_⟩
  · have hkv := hk.gains hg
    exact
      { hkv with
        size := by
          simp only [Session.withComposite, Arena.size_set]
          exact hkv.size
        kept := fun {x o} hx hne => by
          have hx' : x ≠ shell := fun hid => hne (hid ▸ rfl)
          rw [get?_withComposite_of_ne v name _ hx']
          exact hkv.kept hx nofun }
  · have hd := (hd.mono (hg.settled w)).mono within
    rw [hhint hc] at hd
    exact .placed hd.isBuildable hd ((hov.stands hstands).mono within) .nil

end Fills

end StabsImport.Import

import StabsImport.Proofs.Sessions

/-!
# The steps of resolution

Each action that resolution is made of keeps sessions sound and stays within its scope, given the
room it asks for. `Yields` says so of an action together with what else holds of its result.
-/

namespace StabsImport.Import

open Document (Node BuiltInClass)

variable {α β : Type} {L : Scope} {s s' s'' : Session}

/-- A session that resolution leads to. -/
structure After (L : Scope) (s s' : Session) : Prop extends Extends L s s' where
  sound : s'.Sound

namespace After

theorem refl (hs : s.Sound) : After L s s := ⟨Extends.refl s, hs⟩

theorem trans (h : After L s s') (h' : After L s' s'') : After L s s'' :=
  ⟨h.toExtends.trans h'.toExtends, h'.sound⟩

theorem mono {L' : Scope} (h : After L s s') (cuts : L.cuts → L'.cuts)
    (isOpen : ∀ k, L'.isOpen k → L.isOpen k) (replaces : L.replaces → L'.replaces) :
    After L' s s' :=
  ⟨h.toExtends.mono cuts isOpen replaces, h.sound⟩

theorem of_opening {k : Nat} (h : After (L.opening k) s s') : After L s s' :=
  h.mono (fun h => h) (fun _ => .inr) fun h => h

theorem push (hs : s.Sound) {t : TypeObject} (ht : s.program.arena.IsPlain t) :
    After L s { s with program := { s.program with arena := s.program.arena.push t } } where
  toExtends :=
    { Extends.refl s with
      evolves := fun {_ u} hg => ⟨u, Arena.get?_push_of_get? t hg, .refl u⟩ }
  sound := hs.push ht

theorem register (hs : s.Sound) {own : String} {shape : Shape}
    (ht : s.program.arena.IsPlain (.named (.text own) shape))
    (free : s.program.registry.get? (.text own) = none) :
    After L s
      { s with
        program := { s.program with
          arena := s.program.arena.push (.named (.text own) shape)
          registry := s.program.registry.put (.text own) s.program.arena.size } } where
  toExtends :=
    { Extends.refl s with
      evolves := fun {_ u} hg => ⟨u, Arena.get?_push_of_get? _ hg, .refl u⟩
      registry := fun h => Ledger.get?_put_of_free free h }
  sound := hs.register ht free

/-- A composite may take on members. -/
theorem setComposite (hs : s.Sound) {id : TypeId} {name : Json} {c c' : Composite}
    (hid : s.program.arena.get? id = some (.named name (.composite c))) (kind : c'.kind = c.kind)
    (size : c.size ≤ c'.size) (placed : ∀ m ∈ c'.components, m.type < s.program.arena.size) :
    After L s
      { s with
        program := { s.program with
          arena := s.program.arena.set id (.named name (.composite c')) } } where
  toExtends :=
    { Extends.refl s with
      evolves := fun {k t} hg => by
        by_cases hk : k = id
        · subst hk
          rw [hid] at hg
          cases hg
          refine ⟨_, Arena.get?_set_self _ (Arena.lt_size_of_get? hid), ?_⟩
          exact .inr ⟨name, c, c', rfl, rfl, kind, size⟩
        · exact ⟨t, by simp only [Arena.get?_set_of_ne _ _ hk, hg], .refl t⟩ }
  sound := hs.setComposite hid kind placed

theorem report (hs : s.Sound) {n : Notice} (hn : IsLoopNotice n → L.cuts) :
    After L s { s with journal := s.journal.push n } where
  toExtends := { Extends.refl s with journal := ⟨[n], by simp, by simpa using hn⟩ }
  sound := { hs with }

theorem cacheBuiltIn (hs : s.Sound) {c : BuiltInClass} {id : TypeId}
    (free : s.cache.builtIns.get? c = none)
    (hid : s.program.arena.get? id = some (builtInType c)) :
    After L s { s with cache.builtIns := s.cache.builtIns.put c id } where
  toExtends := { Extends.refl s with builtIns := fun h => Ledger.get?_put_of_free free h }
  sound :=
    { hs with
      builtIns := fun {d k} h => by
        rw [Ledger.get?_put] at h
        split at h
        · next hc =>
            cases of_decide_eq_true hc
            cases h
            exact hid
        · exact hs.builtIns h }

theorem cachePointer (hs : s.Sound) {target id : TypeId} {size : Int}
    (free : s.cache.pointers.get? (target, size) = none)
    (hid : s.program.arena.get? id = some (.pointer target size)) :
    After L s { s with cache.pointers := s.cache.pointers.put (target, size) id } where
  toExtends := { Extends.refl s with pointers := fun h => Ledger.get?_put_of_free free h }
  sound :=
    { hs with
      pointers := fun {t n k} h => by
        rw [Ledger.get?_put] at h
        split at h
        · next hc =>
            cases of_decide_eq_true hc
            cases h
            exact hid
        · exact hs.pointers h }

theorem cacheArray (hs : s.Sound) {element id : TypeId} {count : Int}
    (free : s.cache.arrays.get? (element, count) = none)
    (hid : s.program.arena.get? id = some (.array element count)) (hcount : 0 ≤ count) :
    After L s { s with cache.arrays := s.cache.arrays.put (element, count) id } where
  toExtends := { Extends.refl s with arrays := fun h => Ledger.get?_put_of_free free h }
  sound :=
    { hs with
      arrays := fun {e n k} h => by
        rw [Ledger.get?_put] at h
        split at h
        · next hc =>
            cases of_decide_eq_true hc
            cases h
            exact ⟨hid, hcount⟩
        · exact hs.arrays h }

theorem cacheNode (hs : s.Sound) {serial : Nat} {id : TypeId}
    (hid : id < s.program.arena.size) :
    After L s { s with cache.nodes := s.cache.nodes.put serial id } where
  toExtends := { Extends.refl s with }
  sound :=
    { hs with
      nodes := fun {n k} h => by
        rw [Ledger.get?_put] at h
        split at h
        · cases h
          exact hid
        · exact hs.nodes h }

/-- An entry that is not open may take its type. -/
theorem enter (hs : s.Sound) {k : Nat} {id : TypeId} (unset : s.typeAt? k = none ∨ L.replaces)
    (free : ¬ L.isOpen k) (hid : id < s.program.arena.size)
    (nominal : ∀ node, s.document.types[k]? = some node → node.isNominal = true →
      s.IsRegistered node id) :
    After L s { s with table := s.table.setIfInBounds k (some id) } where
  toExtends :=
    { Extends.refl s with
      entry := fun {j other} h => by
        rw [Session.typeAt?_set]
        split
        · next hk =>
            rcases unset with hn | hr
            · rw [← hk.1, hn] at h
              cases h
            · exact .inr ⟨hr, nofun⟩
        · exact .inl h
      stillOpen := fun {j} hj h => by
        rw [Session.typeAt?_set]
        split
        · next hk => exact absurd (hk.1 ▸ hj) free
        · exact h }
  sound :=
    { hs with
      prepared := fun h => by
        simp only [Array.size_setIfInBounds]
        exact hs.prepared h
      unprepared := fun h => by simp only [hs.unprepared h]; rfl
      entry_lt := fun {j other} h => by
        rw [Session.typeAt?_set] at h
        split at h
        · cases h
          exact hid
        · exact hs.entry_lt h
      nominal := fun {j other node} h hd hn => by
        rw [Session.typeAt?_set] at h
        split at h
        · next hk =>
            cases h
            exact nominal node (hk.1 ▸ hd) hn
        · exact hs.nominal h hd hn }

theorem prepare (hs : s.Sound) (h : s.isPrepared = false) :
    After L s
      { s with
        table := Array.replicate s.document.types.length none
        isPrepared := true } where
  toExtends :=
    { Extends.refl s with
      entry := fun {k id} he => by
        simp [Session.typeAt?, hs.unprepared h] at he
      stillOpen := fun {k} _ _ => Session.typeAt?_replicate s _ k
      prepared := fun _ => rfl }
  sound :=
    { hs with
      prepared := fun _ => by simp
      unprepared := fun h => by cases h
      entry_lt := fun {k id} he => by
        rw [Session.typeAt?_replicate] at he
        cases he
      nominal := fun {k id node} he => by
        rw [Session.typeAt?_replicate] at he
        cases he }

/-- What is done inside some calls is done in the room around them. -/
theorem inside {r : Room} (h : After L { s with room := r } s') :
    After L s { s' with room := s.room } where
  toExtends := { h.toExtends with room := rfl }
  sound := { h.sound with }

end After

end StabsImport.Import

import StabsImport.Program.Types
import StabsImport.Proofs.Actions
import StabsImport.Proofs.Arena

/-!
# The registry

A registered type stands under its own name. A search for a place among the names of conflicts ends
with a name that is free or with a type that will do, since the registry has fewer entries than
there are names to try.
-/

namespace StabsImport

namespace Ledger

variable {κ ν : Type} [Key κ]

/-- What a table answers is one of its entries. -/
theorem exists_entry_of_get? {l : Ledger κ ν} {k : κ} {v : ν} (h : l.get? k = some v) :
    ∃ e ∈ l.entries, Key.same e.1 k = true ∧ e.2 = v := by
  obtain ⟨es⟩ := l
  induction es with
  | nil => cases h
  | cons e es ih =>
      by_cases he : Key.same e.1 k = true
      · exact ⟨e, List.mem_cons_self, he, by simpa [get?, find, he] using h⟩
      · obtain ⟨e', hm, hs⟩ := ih (by simpa [get?, find, he] using h)
        exact ⟨e', List.mem_cons_of_mem _ hm, hs⟩

theorem get?_of_same (l : Ledger κ ν) {k k' : κ} (h : Key.same k k' = true) :
    l.get? k = l.get? k' := by
  obtain ⟨es⟩ := l
  simp only [get?]
  induction es with
  | nil => rfl
  | cons e es ih =>
      have hc : Key.same e.1 k = Key.same e.1 k' := by
        rw [Bool.eq_iff_iff]
        exact ⟨fun he => Key.same_trans he h,
          fun he => Key.same_trans he (Key.same_comm k k' ▸ h)⟩
      simp only [find, hc, ih]

@[simp] theorem get?_empty (k : κ) : ({} : Ledger κ ν).get? k = none := rfl

/-- After an entry is put, a key leads to it or to what it led to before. -/
theorem get?_put (l : Ledger κ ν) (k k' : κ) (v : ν) :
    (l.put k v).get? k' = if Key.same k k' = true then some v else l.get? k' := by
  split
  · next h => exact get?_put_of_same l v h
  · next h =>
      rw [Bool.not_eq_true, Key.same_comm] at h
      exact get?_put_of_not_same l v h

/-- What holds of the value put and of those before holds of all. -/
theorem forall_get?_put {l : Ledger κ ν} {k : κ} {v : ν} {P : ν → Prop} (put : P v)
    (h : ∀ {k w}, l.get? k = some w → P w) {k' : κ} {w : ν} (hw : (l.put k v).get? k' = some w) :
    P w := by
  rw [get?_put] at hw
  split at hw
  · cases hw
    exact put
  · exact h hw

/-- An entry of a table is the one put, or one from before, perhaps with the value put. -/
theorem mem_put {l : Ledger κ ν} {k : κ} {v : ν} {e : κ × ν} (h : e ∈ (l.put k v).entries) :
    e = (k, v) ∨ e ∈ l.entries ∨ ∃ old ∈ l.entries, e = (old.1, v) := by
  obtain ⟨es⟩ := l
  simp only [put] at h ⊢
  induction es with
  | nil => exact .inl (List.mem_singleton.mp h)
  | cons head es ih =>
      simp only [replace] at h
      split at h
      · rcases List.mem_cons.mp h with rfl | h
        · exact .inr (.inr ⟨head, List.mem_cons_self, rfl⟩)
        · exact .inr (.inl (List.mem_cons_of_mem _ h))
      · rcases List.mem_cons.mp h with rfl | h
        · exact .inr (.inl List.mem_cons_self)
        · rcases ih h with h | h | ⟨old, hold, h⟩
          · exact .inl h
          · exact .inr (.inl (List.mem_cons_of_mem _ h))
          · exact .inr (.inr ⟨old, List.mem_cons_of_mem _ hold, h⟩)

/-- Putting an entry under a free key changes no other. -/
theorem get?_put_of_free {l : Ledger κ ν} {k k' : κ} {v v' : ν} (free : l.get? k = none)
    (h : l.get? k' = some v') : (l.put k v).get? k' = some v' := by
  rw [get?_put]
  split
  · next hk => rw [← l.get?_of_same hk, free] at h; cases h
  · exact h

end Ledger

/-- A list is gone through to its end if each of its elements can be. -/
theorem exists_mapM_ok {ε α β : Type} {f : α → Except ε β} {xs : List α}
    (h : ∀ x ∈ xs, ∃ y, f x = .ok y) : ∃ ys, xs.mapM f = .ok ys := by
  induction xs with
  | nil => exact ⟨[], rfl⟩
  | cons x xs ih =>
      obtain ⟨y, hy⟩ := h x List.mem_cons_self
      obtain ⟨ys, hys⟩ := ih fun x hx => h x (List.mem_cons_of_mem _ hx)
      exact ⟨y :: ys, by simp only [List.mapM_cons, hy, hys, bind, Except.bind]; rfl⟩

theorem mem_mapM_ok {ε α β : Type} {f : α → Except ε β} {xs : List α} {ys : List β}
    (h : xs.mapM f = .ok ys) {y : β} : y ∈ ys ↔ ∃ x ∈ xs, f x = .ok y := by
  induction xs generalizing ys with
  | nil =>
      cases h
      simp
  | cons x xs ih =>
      rw [List.mapM_cons] at h
      rcases hx : f x with e | z
      · rw [hx] at h
        cases h
      · rcases hxs : xs.mapM f with e | zs
        · rw [hx, hxs] at h
          cases h
        · rw [hx, hxs] at h
          cases h
          simp [ih hxs, hx, eq_comm]

namespace Arena

/-- Every type has a name, and it is a text. -/
def HasNames (a : Arena) : Prop := ∀ x, ∃ s, a.name x = .ok (.text s)

variable {a : Arena}

theorem Sound.hasNames (h : a.Sound) (room : a.room = none) : a.HasNames := h.name_text room

namespace HasNames

theorem signature_ok (h : a.HasNames) (c : Component) : ∃ g, a.signature c = .ok g := by
  obtain ⟨s, hs⟩ := h c.type
  exact ⟨_, by simp only [signature, hs, bind, Except.bind, pure, Except.pure]; rfl⟩

theorem signatures_ok (h : a.HasNames) (cs : List Component) : ∃ gs, cs.mapM a.signature = .ok gs :=
  exists_mapM_ok fun c _ => h.signature_ok c

theorem isEquivalent_ok (h : a.HasNames) (x y : TypeId) : ∃ b, a.isEquivalent x y = .ok b := by
  unfold isEquivalent
  split
  · exact ⟨_, rfl⟩
  · next c _ d _ _ =>
      split
      · obtain ⟨gs, hg⟩ := h.signatures_ok c.components
        obtain ⟨gs', hg'⟩ := h.signatures_ok d.components
        exact ⟨_, by simp only [sameComponents, hg, hg', bind, Except.bind]; rfl⟩
      · exact ⟨_, rfl⟩
  · split
    · obtain ⟨s, hs⟩ := h x
      obtain ⟨s', hs'⟩ := h y
      exact ⟨_, by simp only [haveEqualNames, hs, hs', bind, Except.bind]; rfl⟩
    · exact ⟨_, rfl⟩
  · exact ⟨_, rfl⟩

/-- Whether a registered type will do is always settled. -/
theorem canReuse_ok (h : a.HasNames) (x y : TypeId) : ∃ b, a.canReuse x y = .ok b := by
  unfold canReuse
  split
  · split <;> exact ⟨_, rfl⟩
  · exact h.isEquivalent_ok x y

end HasNames

end Arena

namespace Arena

variable {a : Arena} {x y : TypeId}

/-- The type is a composite of this kind, and of the declared size if there is one. -/
def Admits (a : Arena) (kind : CompositeKind) (size : Int) (x : TypeId) : Prop :=
  ∃ c, a.composite? x = some c ∧ c.kind = kind ∧ (size = 0 ∨ size = c.size)

theorem admits_congr {b : Arena} (h : b.get? x = a.get? x) {kind : CompositeKind} {size : Int} :
    b.Admits kind size x ↔ a.Admits kind size x := by
  simp only [Admits, composite?, h]

/-- Only a composite of the same kind and of the declared size will do for a shell. Its members do
not count. -/
theorem canReuse_shell {kind : CompositeKind} {size : Int}
    (hy : a.composite? y = some (.empty kind size)) :
    a.canReuse x y = .ok true ↔ a.Admits kind size x := by
  have hy : a.composite? y = some ⟨kind, size, []⟩ := hy
  simp only [canReuse, hy, Admits]
  cases a.composite? x with
  | none => simp
  | some c => simp

/-- Only an enumeration of the same size and constants will do for an enumeration. -/
theorem canReuse_enumeration {name : Json} {size : Int} {values : Ledger Json Int}
    (hy : a.get? y = some (.named name (.enumeration size values)))
    (h : a.canReuse x y = .ok true) :
    ∃ own values', a.get? x = some (.named own (.enumeration size values')) ∧
      sameValues values' values = true := by
  have hc : a.composite? y = none := by simp [composite?, hy, TypeObject.composite?]
  simp only [canReuse, hc, isEquivalent, hy] at h
  split at h
  · next hx heq =>
      cases heq
      simp only [Except.ok.injEq, Bool.and_eq_true, beq_iff_eq] at h
      obtain ⟨rfl, hv⟩ := h
      exact ⟨_, _, hx, hv⟩
  · next heq => cases heq
  · next t u hne _ hx heq =>
      cases heq
      split at h
      · next hk =>
          cases t with
          | named own shape =>
              cases shape with
              | enumeration s v => exact absurd rfl (hne own s v name size values rfl)
              | composite c =>
                  obtain ⟨_ | _, _, _⟩ := c <;> cases hk
              | _ => cases hk
          | _ => cases hk
      · cases h
  · cases h

end Arena

namespace Program

/-- What holds of every program: its arena is sound, and a registered type stands under its own
name, which is a text. -/
structure Sound (p : Program) : Prop where
  arena : p.arena.Sound
  lt_size : ∀ {name id}, p.registry.get? name = some id → id < p.arena.size
  text : ∀ {name id}, p.registry.get? name = some id → ∃ s, name = .text s
  own : ∀ {name id own shape}, p.registry.get? name = some id →
    p.arena.get? id = some (.named own shape) → own = name

theorem sound_empty : ({} : Program).Sound where
  arena := Arena.sound_empty
  lt_size h := by cases h
  text h := by cases h
  own h := by cases h

private theorem repr_injective {m n : Nat} (h : m.repr = n.repr) : m = n := by
  have h := String.ofList_injective (by simpa only [Nat.repr_eq_ofList_toDigits] using h)
  rw [← Nat.ofDigitChars_ten_toDigits (n := m), h, Nat.ofDigitChars_ten_toDigits]

private theorem conflictName_succ (name : String) (n : Nat) :
    conflictName name (n + 1) = conflictName name 0 ++ (n + 1).repr := by
  simp [conflictName, String.append_assoc, toString]

theorem conflictName_injective (name : String) {m n : Nat}
    (h : conflictName name m = conflictName name n) : m = n := by
  have longer (k : Nat) : conflictName name 0 ≠ conflictName name (k + 1) := by
    intro hk
    rw [conflictName_succ] at hk
    have hl := congrArg String.length hk
    have hd : 0 < (k + 1).repr.length := Nat.length_repr_pos
    rw [String.length_append] at hl
    omega
  cases m with
  | zero =>
      cases n with
      | zero => rfl
      | succ n => exact absurd h (longer n)
  | succ m =>
      cases n with
      | zero => exact absurd h.symm (longer m)
      | succ n =>
          rw [conflictName_succ, conflictName_succ, String.append_right_inj] at h
          exact repr_injective h

theorem conflictName_ne (name : String) (n : Nat) : conflictName name n ≠ name := by
  intro h
  have hl := congrArg String.length h
  cases n with
  | zero => simp [conflictName] at hl
  | succ n =>
      have hd : 0 < (n + 1).repr.length := Nat.length_repr_pos
      rw [conflictName_succ] at hl
      simp [conflictName] at hl
      omega

/-! ## The search for a place -/

variable {p : Program}

/-- The names a type may be registered under, in the order in which they are tried. -/
def nameInTurn (name : String) : Nat → String
  | 0 => name
  | n + 1 => conflictName name n

/-- The name leads to a type that will not do for another. -/
def IsBarred (p : Program) (fresh : TypeId) (name : String) : Prop :=
  ∃ id, p.registry.get? (.text name) = some id ∧ p.arena.canReuse id fresh = .ok false

/-- The place is a registered type, or it is under the name looked for or under a text. -/
def Place.IsFor (p : Program) (name : Json) : Place → Prop
  | .taken id => ∃ k, p.registry.get? k = some id
  | .free own => own = name ∨ ∃ s, own = .text s

theorem conflictPlace_isFor {fresh : TypeId} {name : String} {place : Place} {fuel n : Nat}
    (h : p.conflictPlace fresh name fuel n = .ok place) : place.IsFor p (.text name) := by
  induction fuel generalizing n with
  | zero =>
      cases h
      exact Or.inr ⟨_, rfl⟩
  | succ fuel ih =>
      rw [conflictPlace] at h
      split at h
      · cases h
        exact Or.inr ⟨_, rfl⟩
      · next other hother =>
          cases hb : p.arena.canReuse other fresh with
          | error e => simp [hb, bind, Except.bind] at h
          | ok b =>
              simp only [hb, bind, Except.bind] at h
              split at h
              · cases h
                exact ⟨_, hother⟩
              · exact ih h

theorem place_isFor {fresh : TypeId} {name : Json} {place : Place}
    (h : p.place fresh name = .ok place) : place.IsFor p name := by
  rw [Program.place] at h
  split at h
  · cases h
  · split at h
    · cases h
      exact Or.inl rfl
    · next other hother =>
        split at h
        · cases h
          exact Or.inl rfl
        · cases hb : p.arena.canReuse other fresh with
          | error e => simp [hb, bind, Except.bind] at h
          | ok b =>
              simp only [hb, bind, Except.bind] at h
              split at h
              · cases h
                exact ⟨_, hother⟩
              · unfold placeAmongConflicts at h
                split at h
                · exact conflictPlace_isFor h
                · cases h

/-- A search ends with a registered type that will do, with a free name, or with the last name to
try, and all names before are barred. -/
theorem conflictPlace_spec (hs : p.Sound) (room : p.arena.room = none) (fresh : TypeId)
    (name : String) (fuel n : Nat) :
    ∃ k, (∀ j, n ≤ j → j < k → p.IsBarred fresh (conflictName name j)) ∧
      ((∃ id, p.conflictPlace fresh name fuel n = .ok (.taken id) ∧
          p.registry.get? (.text (conflictName name k)) = some id ∧
          p.arena.canReuse id fresh = .ok true) ∨
        (p.conflictPlace fresh name fuel n = .ok (.free (.text (conflictName name k))) ∧
          (p.registry.get? (.text (conflictName name k)) = none ∨ k = n + fuel))) := by
  induction fuel generalizing n with
  | zero => exact ⟨n, fun j h h' => by omega, .inr ⟨rfl, .inr rfl⟩⟩
  | succ fuel ih =>
      unfold conflictPlace
      cases hg : p.registry.get? (.text (conflictName name n)) with
      | none => exact ⟨n, fun j h h' => by omega, .inr ⟨by simp [hg], .inl hg⟩⟩
      | some id =>
          obtain ⟨b, hb⟩ := (hs.arena.hasNames room).canReuse_ok id fresh
          cases b with
          | true =>
              refine ⟨n, fun j h h' => by omega, .inl ⟨id, ?_, hg, hb⟩⟩
              simp only [hg, hb, bind, Except.bind]
              rfl
          | false =>
              simp only [hg, hb, bind, Except.bind, Bool.false_eq_true, if_false]
              obtain ⟨k, barred, h⟩ := ih (n + 1)
              refine ⟨k, fun j hj hjk => ?_, ?_⟩
              · rcases Nat.eq_or_lt_of_le hj with rfl | hj
                · exact ⟨id, hg, hb⟩
                · exact barred j hj hjk
              · rw [show n + (fuel + 1) = n + 1 + fuel by omega]
                exact h

/-- A registered text is the key of an entry. -/
theorem mem_keys {name : String} {id : TypeId}
    (h : p.registry.get? (.text name) = some id) : Json.text name ∈ p.registry.entries.map (·.1) := by
  obtain ⟨e, hm, hk, _⟩ := Ledger.exists_entry_of_get? h
  exact List.mem_map.mpr ⟨e, hm, Json.same_text_iff.mp hk⟩

/-- With a name taken, not all names of its conflicts up to the number of entries can be. -/
theorem exists_free {name : String} {id : TypeId}
    (h : p.registry.get? (.text name) = some id) :
    ¬ ∀ j < p.registry.entries.length,
      ∃ id, p.registry.get? (.text (conflictName name j)) = some id := by
  intro taken
  let names := name :: (List.range p.registry.entries.length).map (conflictName name)
  have nodup : names.Nodup := by
    refine List.nodup_cons.mpr ⟨fun hm => ?_, ?_⟩
    · obtain ⟨j, _, hj⟩ := List.mem_map.mp hm
      exact conflictName_ne name j hj
    · exact List.Pairwise.map _ (fun _ _ hne he => hne (conflictName_injective name he))
        List.nodup_range
  have subset : names.map Json.text ⊆ p.registry.entries.map (·.1) := by
    intro k hk
    obtain ⟨t, ht, rfl⟩ := List.mem_map.mp hk
    rcases List.mem_cons.mp ht with rfl | ht
    · exact mem_keys h
    · obtain ⟨j, hj, rfl⟩ := List.mem_map.mp ht
      obtain ⟨id, hid⟩ := taken j (List.mem_range.mp hj)
      exact mem_keys hid
  have nodup : (names.map Json.text).Nodup :=
    List.Pairwise.map _ (fun _ _ hne he => hne (Json.text.inj he)) nodup
  have hle := nodup.length_le_of_subset subset
  have hlength : (names.map Json.text).length = p.registry.entries.length + 1 := by simp [names]
  rw [hlength, List.length_map] at hle
  omega

/-- A type that is in no place yet gets the first name in turn that is free, unless a name before
leads to a type that will do. -/
theorem place_spec (hs : p.Sound) (room : p.arena.room = none) {fresh : TypeId}
    (unplaced : ∀ n, p.registry.get? n ≠ some fresh) (name : String) :
    ∃ n, (∀ m < n, p.IsBarred fresh (nameInTurn name m)) ∧
      ((∃ id, p.place fresh (.text name) = .ok (.taken id) ∧
          p.registry.get? (.text (nameInTurn name n)) = some id ∧
          p.arena.canReuse id fresh = .ok true) ∨
        (p.place fresh (.text name) = .ok (.free (.text (nameInTurn name n))) ∧
          p.registry.get? (.text (nameInTurn name n)) = none)) := by
  unfold place
  simp only [Json.isKey, Bool.not_true, Bool.false_eq_true, if_false]
  cases hg : p.registry.get? (.text name) with
  | none => exact ⟨0, nofun, .inr ⟨rfl, hg⟩⟩
  | some id =>
      have hne : id ≠ fresh := fun h => unplaced _ (h ▸ hg)
      obtain ⟨b, hb⟩ := (hs.arena.hasNames room).canReuse_ok id fresh
      cases b with
      | true =>
          refine ⟨0, nofun, .inl ⟨id, ?_, hg, hb⟩⟩
          simp only [hne, if_false, hb, bind, Except.bind]
          rfl
      | false =>
          simp only [hb, hne, bind, Except.bind, Bool.false_eq_true, if_false,
            placeAmongConflicts]
          obtain ⟨k, barred, h⟩ :=
            conflictPlace_spec hs room fresh name p.registry.entries.length 0
          refine ⟨k + 1, fun m hm => ?_, h.imp_right fun ⟨hp, hk⟩ => ⟨hp, ?_⟩⟩
          · cases m with
            | zero => exact ⟨id, hg, hb⟩
            | succ m => exact barred m (Nat.zero_le m) (by omega)
          · rcases hk with hk | rfl
            · exact hk
            · refine absurd (fun j hj => ?_) (exists_free hg)
              obtain ⟨other, ho, -⟩ := barred j (Nat.zero_le j) (by omega)
              exact ⟨other, ho⟩

/-! ## Registration -/

/-- What a program is after a type was registered under a name. -/
def registered (p : Program) (id : TypeId) (name : String) (shape : Shape) : Program :=
  { p with
    arena := p.arena.set id (.named (.text name) shape)
    registry := p.registry.put (.text name) id }

theorem runs_addType (hs : p.Sound) (room : p.arena.room = none) {id : TypeId} {name : String}
    {shape : Shape} (hid : p.arena.get? id = some (.named (.text name) shape))
    (unplaced : ∀ n, p.registry.get? n ≠ some id) {ok : TypeId → Program → Prop}
    {bad : Fault → Program → Prop}
    (taken : ∀ n other, (∀ m < n, p.IsBarred id (nameInTurn name m)) →
      p.registry.get? (.text (nameInTurn name n)) = some other →
      p.arena.canReuse other id = .ok true → ok other p)
    (free : ∀ n, (∀ m < n, p.IsBarred id (nameInTurn name m)) →
      p.registry.get? (.text (nameInTurn name n)) = none →
      ok id (p.registered id (nameInTurn name n) shape)) :
    Runs (addType id) p ok bad := by
  have hn : p.arena.name id = .ok (.text name) := by
    simp [Arena.name, Arena.reach, room, Arena.nameWithin, hid]
  simp only [addType, Runs.bind_iff, runs_view, hn]
  obtain ⟨n, barred, ⟨other, hp, ho, hr⟩ | ⟨hp, ho⟩⟩ := place_spec hs room unplaced name
  · simp only [hp, Runs.pure_iff]
    exact taken n other barred ho hr
  · simp only [hp]
    have h := free n barred ho
    by_cases he : nameInTurn name n = name
    · have ha : p.arena.set id (.named (.text name) shape) = p.arena := Arena.set_eq_self hid
      rw [he, registered, ha] at h
      simpa [he] using h
    · have hne : Json.text (nameInTurn name n) ≠ Json.text name := fun h => he (Json.text.inj h)
      simpa [hne, rename, hid, setType, registered] using h

namespace Sound

theorem push (hs : p.Sound) {t : TypeObject} (h : (p.arena.push t).Sound) :
    ({ p with arena := p.arena.push t } : Program).Sound where
  arena := h
  lt_size hr := by
    simp only [Arena.size_push]
    exact Nat.lt_succ_of_lt (hs.lt_size hr)
  text := hs.text
  own hr hg := by
    rw [Arena.get?_push_of_lt _ _ (hs.lt_size hr)] at hg
    exact hs.own hr hg

/-- A composite may get other components. -/
theorem setComposite (hs : p.Sound) {id : TypeId} {name : Json} {c c' : Composite}
    (hid : p.arena.get? id = some (.named name (.composite c)))
    (placed : ∀ m ∈ c'.components, m.type < p.arena.size) :
    ({ p with arena := p.arena.set id (.named name (.composite c')) } : Program).Sound where
  arena := by
    refine hs.arena.set (by simp [TypeObject.links]) ?_ ?_
    · rintro _ _ ⟨⟩
      exact placed
    · rintro _ _ ⟨⟩
      exact hs.arena.texts hid
  lt_size hr := by
    simp only [Arena.size_set]
    exact hs.lt_size hr
  text := hs.text
  own {n k own shape} hr hg := by
    by_cases hk : k = id
    · subst hk
      simp only [Arena.get?_set_self _ (hs.lt_size hr), Option.some.injEq,
        TypeObject.named.injEq] at hg
      exact hg.1 ▸ hs.own hr hid
    · simp only [Arena.get?_set_of_ne _ _ hk] at hg
      exact hs.own hr hg

theorem registered (hs : p.Sound) {id : TypeId} {name : Json} (own : String) {shape : Shape}
    (hid : p.arena.get? id = some (.named name shape))
    (unplaced : ∀ n, p.registry.get? n ≠ some id) :
    (p.registered id own shape).Sound := by
  have hlt := Arena.lt_size_of_get? hid
  have hput (n : Json) {k : TypeId} (hr : (p.registered id own shape).registry.get? n = some k) :
      (n = .text own ∧ k = id) ∨ (k ≠ id ∧ p.registry.get? n = some k) := by
    simp only [Program.registered, Ledger.get?_put] at hr
    split at hr
    · next h =>
        rw [Key.same_comm] at h
        exact .inl ⟨Json.same_text_iff.mp h, (Option.some.inj hr).symm⟩
    · exact .inr ⟨fun hk => unplaced n (hk ▸ hr), hr⟩
  constructor
  · refine hs.arena.set ?_ ?_ ?_
    · intro l hl
      refine hs.arena.linked hid l ?_
      cases shape with
      | signature returns parameters => exact hl
      | _ => cases hl
    · rintro _ _ ⟨⟩
      exact hs.arena.placed hid
    · rintro _ _ ⟨⟩
      exact ⟨own, rfl⟩
  · intro n k hr
    simp only [Program.registered, Arena.size_set]
    rcases hput n hr with ⟨_, rfl⟩ | ⟨_, hr⟩
    · exact hlt
    · exact hs.lt_size hr
  · intro n k hr
    rcases hput n hr with ⟨rfl, _⟩ | ⟨_, hr⟩
    · exact ⟨own, rfl⟩
    · exact hs.text hr
  · intro n k own' shape' hr hg
    rcases hput n hr with ⟨rfl, rfl⟩ | ⟨hk, hr⟩
    · simp only [Program.registered, Arena.get?_set_self _ hlt, Option.some.injEq,
        TypeObject.named.injEq] at hg
      exact hg.1.symm
    · simp only [Program.registered, Arena.get?_set_of_ne _ _ hk] at hg
      exact hs.own hr hg

end Sound

end Program

end StabsImport

import StabsImport.Proofs.Alike
import StabsImport.Proofs.Retyping

/-!
# Types under other numbers

One arena holds what another holds, the types from a point on under numbers that are all greater by
the same, and besides it types that have no part in this. What goes on in both alike leaves them so:
a type made in both is made under numbers that go together, and a member put into a composite of both
has types there that go together. Main statements: `Mirror.push`, `Mirror.putMember`.
-/

namespace StabsImport

namespace Arena

/-- A composite takes a member of a type that is there. -/
theorem Sound.putMember {a : Arena} {x : TypeId} {name : Json} {c : Composite} {m : Component}
    (h : a.Sound) (hx : a.get? x = some (.named name (.composite c)))
    (hm : m.type < a.size) : (a.set x (.named name (.composite (c.put m)))).Sound := by
  refine h.set nofun (fun he d hd => ?_) fun he => ?_
  · cases he
    rcases Composite.mem_put hd with rfl | hd
    · exact hm
    · exact h.placed hx d hd
  · cases he
    exact h.texts hx

end Arena

/-- The two arenas in which the numbering parted, and which types before that point have a part in
what goes on in both. -/
structure Renumbering where
  first : Arena
  second : Arena
  live : Nat → Prop

namespace Renumbering

variable (σ : Renumbering)

/-- Types of before keep their numbers. -/
def apply (x : Nat) : Nat :=
  if x < σ.first.size then x else x - σ.first.size + σ.second.size

/-- The types go together, of which the first is in an arena. -/
structure Pairs (a : Arena) (x y : Nat) : Prop where
  lt_size : x < a.size
  live : x < σ.first.size → σ.live x
  number : y = σ.apply x

variable {σ} {a b : Arena} {x y : Nat}

theorem apply_of_lt (h : x < σ.first.size) : σ.apply x = x := if_pos h

theorem apply_first : σ.apply σ.first.size = σ.second.size := by
  rw [apply, if_neg (Nat.lt_irrefl _), Nat.sub_self, Nat.zero_add]

theorem apply_inj (parted : σ.first.size ≤ σ.second.size) (h : σ.apply x = σ.apply y) :
    x = y := by
  unfold apply at h
  split at h <;> split at h <;> omega

theorem apply_succ (h : σ.first.size ≤ x) : σ.apply (x + 1) = σ.apply x + 1 := by
  unfold apply
  rw [if_neg (by omega), if_neg (by omega)]
  omega

theorem le_apply (h : σ.first.size ≤ x) : σ.second.size ≤ σ.apply x := by
  unfold apply
  rw [if_neg (by omega)]
  omega

theorem Pairs.mono (h : σ.Pairs a x y) (size_le : a.size ≤ b.size) : σ.Pairs b x y :=
  ⟨Nat.lt_of_lt_of_le h.lt_size size_le, h.live, h.number⟩

/-- What holds of two arenas in which the same went on since the numbering parted. -/
structure Mirror (σ : Renumbering) (a b : Arena) : Prop where
  sound : a.Sound
  sound' : b.Sound
  room : a.room = none
  room' : b.room = none
  parted : σ.first.size ≤ σ.second.size
  size_le : σ.first.size ≤ a.size
  size : b.size = σ.apply a.size
  types : a.IsResembling b (σ.Pairs a)
  /-- What has no part in it stays as it was. -/
  kept : ∀ {y}, y < σ.second.size → (y < σ.first.size → ¬ σ.live y) → b.get? y = σ.second.get? y
  /-- The same members were put into a composite of before. -/
  filled : ∀ {x c}, x < σ.first.size → σ.live x → σ.first.composite? x = some c → ∃ c' ms,
    σ.second.composite? x = some c' ∧
      (∀ m ∈ ms, m.IsProper ∧ σ.Pairs a m.type (σ.apply m.type)) ∧
        a.composite? x = some (c.putAll ms) ∧
          b.composite? x = some (c'.putAll (ms.map (·.retyped σ.apply)))

namespace Mirror

variable {t u : TypeObject}

theorem lt_size (h : σ.Mirror a b) (hxy : σ.Pairs a x y) : y < b.size := by
  obtain ⟨t, u, -, hy, -⟩ := h.types x y hxy
  exact Arena.lt_size_of_get? hy

theorem name_eq (h : σ.Mirror a b) (hxy : σ.Pairs a x y) : a.name x = b.name y :=
  h.types.name_eq h.sound h.sound' h.room h.room' hxy

theorem length_eq (h : σ.Mirror a b) (hxy : σ.Pairs a x y) : a.length x = b.length y :=
  h.types.length_eq h.sound h.sound' hxy

theorem second_le (h : σ.Mirror a b) : σ.second.size ≤ b.size := h.size ▸ le_apply h.size_le

theorem pairs_push (h : σ.Mirror a b) (t : TypeObject) : σ.Pairs (a.push t) a.size b.size where
  lt_size := by
    rw [Arena.size_push]
    exact Nat.lt_succ_self _
  live hlt := absurd hlt (Nat.not_lt.mpr h.size_le)
  number := h.size

theorem push (h : σ.Mirror a b) (htu : t.Resembles (σ.Pairs a) u) (ht : a.IsPlain t)
    (hu : b.IsPlain u) : σ.Mirror (a.push t) (b.push u) := by
  have grows : a.size ≤ (a.push t).size := by
    rw [Arena.size_push]
    exact Nat.le_succ _
  have later {x y : Nat} (hxy : σ.Pairs a x y) : σ.Pairs (a.push t) x y := hxy.mono grows
  have old {x : Nat} (hx : x < a.size) : (a.push t).get? x = a.get? x :=
    Arena.get?_push_of_lt a t hx
  have old' {y : Nat} (hy : y < b.size) : (b.push u).get? y = b.get? y :=
    Arena.get?_push_of_lt b u hy
  refine ⟨h.sound.push ht, h.sound'.push hu, h.room, h.room', h.parted, h.size_le.trans grows, ?_, ?_,
    fun {y} hy dead => ?_, fun {x c} hx live hc => ?_⟩
  · rw [Arena.size_push, Arena.size_push, apply_succ h.size_le, h.size]
  · intro x y hxy
    rcases Nat.lt_or_ge x a.size with hx | hx
    · have hxy : σ.Pairs a x y := ⟨hx, hxy.live, hxy.number⟩
      obtain ⟨t', u', hx', hy', hr⟩ := h.types x y hxy
      exact ⟨t', u', (old hx).trans hx', (old' (h.lt_size hxy)).trans hy', hr.mono fun _ _ => later⟩
    · have hlt : x < a.size + 1 := Arena.size_push a t ▸ hxy.lt_size
      obtain rfl : x = a.size := Nat.le_antisymm (Nat.le_of_lt_succ hlt) hx
      obtain rfl : y = b.size := hxy.number.trans h.size.symm
      exact ⟨t, u, Arena.get?_push_self a t, Arena.get?_push_self b u, htu.mono fun _ _ => later⟩
  · rw [old' (Nat.lt_of_lt_of_le hy h.second_le), h.kept hy dead]
  · obtain ⟨c', ms, hc', proper, hx₁, hx₂⟩ := h.filled hx live hc
    refine ⟨c', ms, hc', fun m hm => ⟨(proper m hm).1, later (proper m hm).2⟩, ?_, ?_⟩
    · rw [Arena.composite?_push_of_lt a t (Nat.lt_of_lt_of_le hx h.size_le), hx₁]
    · rw [Arena.composite?_push_of_lt b u (Nat.lt_of_lt_of_le hx (h.parted.trans h.second_le)), hx₂]

/-- Composites that go together are of one kind and one size. -/
theorem same (h : σ.Mirror a b) (hxy : σ.Pairs a x y) {name : Json} {c c' : Composite}
    (hx : a.get? x = some (.named name (.composite c)))
    (hy : b.get? y = some (.named name (.composite c'))) : c.kind = c'.kind ∧ c.size = c'.size := by
  obtain ⟨t, u, hx', hy', hr⟩ := h.types x y hxy
  obtain rfl := Option.some.inj (hx.symm.trans hx')
  obtain rfl := Option.some.inj (hy.symm.trans hy')
  cases hr with
  | leaf => exact ⟨rfl, rfl⟩
  | composite kind size => exact ⟨kind, size⟩

/-- Types that go together are composites that go together, or neither is. -/
theorem ne_of_ne (h : σ.Mirror a b) (hxy : σ.Pairs a x y) {z w : Nat} (hzw : σ.Pairs a z w)
    (hne : z ≠ x) : w ≠ y := by
  rintro rfl
  exact hne (apply_inj h.parted (hzw.number.symm.trans hxy.number))

section

variable (h : σ.Mirror a b) (hxy : σ.Pairs a x y) {name : Json} {c c' : Composite}
  (hx : a.get? x = some (.named name (.composite c)))
  (hy : b.get? y = some (.named name (.composite c'))) {m : Component}

include h hxy hx hy

/-- Types that go together look the same once a member was put into composites that do. -/
theorem types_putMember :
    (a.set x (.named name (.composite (c.put m)))).IsResembling
      (b.set y (.named name (.composite (c'.put (m.retyped σ.apply)))))
      (σ.Pairs (a.set x (.named name (.composite (c.put m))))) := by
  obtain ⟨kind, size⟩ := h.same hxy hx hy
  intro z w hzw
  have hzw : σ.Pairs a z w := ⟨Arena.size_set a x _ ▸ hzw.lt_size, hzw.live, hzw.number⟩
  by_cases hne : z = x
  · obtain rfl := hne
    obtain rfl : w = y := hzw.number.trans hxy.number.symm
    refine ⟨_, _, Arena.get?_set_self _ hxy.lt_size, Arena.get?_set_self _ (h.lt_size hxy),
      .composite ?_ ?_⟩
    · rw [Composite.kind_put, Composite.kind_put, kind]
    · rw [Composite.size_put, Composite.size_put, size]
      rfl
  · obtain ⟨t, u, hz, hw, hr⟩ := h.types z w hzw
    refine ⟨t, u, ?_, ?_, hr.mono fun _ _ h => h.mono (Nat.le_of_eq (Arena.size_set a _ _).symm)⟩
    · rw [Arena.get?_set_of_ne a _ hne, hz]
    · rw [Arena.get?_set_of_ne b _ (h.ne_of_ne hxy hzw hne), hw]

/-- The same members were put into a composite of before, now this one as well. -/
theorem filled_putMember (proper : m.IsProper) (hm : σ.Pairs a m.type (σ.apply m.type)) {z : Nat}
    {d : Composite} (hlt : z < σ.first.size) (live : σ.live z)
    (hd : σ.first.composite? z = some d) : ∃ d' ms, σ.second.composite? z = some d' ∧
      (∀ m ∈ ms, m.IsProper ∧ σ.Pairs a m.type (σ.apply m.type)) ∧
        (a.set x (.named name (.composite (c.put m)))).composite? z = some (d.putAll ms) ∧
          (b.set y (.named name (.composite (c'.put (m.retyped σ.apply))))).composite? z =
            some (d'.putAll (ms.map (·.retyped σ.apply))) := by
  obtain ⟨d', ms, hd', all, hz, hw⟩ := h.filled hlt live hd
  by_cases hne : z = x
  · subst hne
    obtain rfl : y = z := hxy.number.trans (apply_of_lt hlt)
    obtain rfl : c = d.putAll ms :=
      Option.some.inj ((Arena.composite?_eq_some.mpr ⟨name, hx⟩).symm.trans hz)
    obtain rfl : c' = d'.putAll (ms.map (·.retyped σ.apply)) :=
      Option.some.inj ((Arena.composite?_eq_some.mpr ⟨name, hy⟩).symm.trans hw)
    refine ⟨d', ms ++ [m], hd', ?_, ?_, ?_⟩
    · exact List.forall_mem_append.mpr ⟨all, List.forall_mem_singleton.mpr ⟨proper, hm⟩⟩
    · rw [Arena.composite?_set_self _ _ hxy.lt_size, Composite.putAll_append]
      rfl
    · rw [Arena.composite?_set_self _ _ (h.lt_size hxy), List.map_append, Composite.putAll_append]
      rfl
  · have hz' : z < a.size := Nat.lt_of_lt_of_le hlt h.size_le
    have other := h.ne_of_ne hxy ⟨hz', fun _ => live, (apply_of_lt hlt).symm⟩ hne
    exact ⟨d', ms, hd', all, (Arena.composite?_set_of_ne a _ hne).trans hz,
      (Arena.composite?_set_of_ne b _ other).trans hw⟩

/-- A member is put into composites that go together. -/
theorem putMember (proper : m.IsProper) (hm : σ.Pairs a m.type (σ.apply m.type)) :
    σ.Mirror (a.set x (.named name (.composite (c.put m))))
      (b.set y (.named name (.composite (c'.put (m.retyped σ.apply))))) where
  sound := h.sound.putMember hx hm.lt_size
  sound' := h.sound'.putMember hy (h.lt_size hm)
  room := h.room
  room' := h.room'
  parted := h.parted
  size_le := by
    rw [Arena.size_set]
    exact h.size_le
  size := by
    rw [Arena.size_set, Arena.size_set, h.size]
  types := h.types_putMember hxy hx hy
  kept {w} hlt dead := by
    -- The composite of the second arena is new, or was live where the numbering parted.
    have other : w ≠ y := by
      rintro rfl
      rcases Nat.lt_or_ge x σ.first.size with hlt' | hge
      · have same := hxy.number.trans (apply_of_lt hlt')
        exact dead (same ▸ hlt') (same ▸ hxy.live hlt')
      · exact absurd hlt (Nat.not_lt.mpr (hxy.number ▸ le_apply hge))
    rw [Arena.get?_set_of_ne b _ other, h.kept hlt dead]
  filled hlt live hd := by
    obtain ⟨d', ms, hd', all, hz, hw⟩ := h.filled_putMember hxy hx hy proper hm hlt live hd
    refine ⟨d', ms, hd', fun m hm => (all m hm).imp_right fun h => h.mono ?_, hz, hw⟩
    exact Nat.le_of_eq (Arena.size_set a _ _).symm

end

end Mirror

end Renumbering

end StabsImport

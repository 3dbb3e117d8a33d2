import StabsImport.Proofs.Registry

/-!
# Tables without repeated keys

Starting from an empty table, no two entries ever have the same key, since putting a key that is
there replaces its value in place. In such a table the entries and the answers say the same.
-/

namespace StabsImport.Ledger

variable {κ ν β : Type} [Key κ]

/-- No two keys are the same. -/
def Distinct (l : Ledger κ ν) : Prop := l.keys.Pairwise fun k k' => Key.same k k' = false

theorem distinct_empty : Distinct ({} : Ledger κ ν) := List.Pairwise.nil

theorem get?_eq_none_iff {l : Ledger κ ν} {k : κ} :
    l.get? k = none ↔ ∀ e ∈ l.entries, Key.same e.1 k = false := by
  obtain ⟨es⟩ := l
  simp only [get?]
  induction es with
  | nil => simp [find]
  | cons e es ih =>
      by_cases he : Key.same e.1 k = true
      · simp [find, he]
      · simp [find, he, ih]

/-- An entry of a table is one from before, or has the value put under its key. -/
theorem mem_put_same {l : Ledger κ ν} {k : κ} {v : ν} {e : κ × ν} (h : e ∈ (l.put k v).entries) :
    e ∈ l.entries ∨ Key.same e.1 k = true ∧ e.2 = v := by
  obtain ⟨es⟩ := l
  simp only [put] at h ⊢
  induction es with
  | nil =>
      obtain rfl := List.mem_singleton.mp h
      exact .inr ⟨Key.same_self k, rfl⟩
  | cons head es ih =>
      simp only [replace] at h
      split at h
      · next hk =>
          rcases List.mem_cons.mp h with rfl | h
          · exact .inr ⟨hk, rfl⟩
          · exact .inl (List.mem_cons_of_mem _ h)
      · rcases List.mem_cons.mp h with rfl | h
        · exact .inl List.mem_cons_self
        · exact (ih h).imp_left (List.mem_cons_of_mem _)

/-- A free key goes to the end. -/
theorem entries_put_of_free {l : Ledger κ ν} {k : κ} (free : l.get? k = none) (v : ν) :
    (l.put k v).entries = l.entries ++ [(k, v)] := by
  rw [get?_eq_none_iff] at free
  obtain ⟨es⟩ := l
  simp only [put]
  induction es with
  | nil => rfl
  | cons e es ih =>
      have he : Key.same e.1 k = false := free e List.mem_cons_self
      have rest := ih fun e' h => free e' (List.mem_cons_of_mem e h)
      simp [replace, he, rest]

/-- A key that is there keeps its place: what the new value has in common with the old one, the
entries have in common. -/
theorem map_put_of_held {l : Ledger κ ν} {k : κ} {v w : ν} (held : l.get? k = some w)
    {g : κ × ν → β} (hg : ∀ k', g (k', v) = g (k', w)) :
    (l.put k v).entries.map g = l.entries.map g := by
  obtain ⟨es⟩ := l
  simp only [get?, put] at held ⊢
  induction es with
  | nil => cases held
  | cons e es ih =>
      obtain ⟨k', u⟩ := e
      by_cases he : Key.same k' k = true
      · simp only [find, he, if_true, Option.some.injEq] at held
        simp [replace, he, hg, held]
      · simp only [find, he] at held
        simp [replace, he, ih held]

theorem map_update {l : Ledger κ ν} {k : κ} {f : ν → ν} {g : κ × ν → β}
    (hg : ∀ k' v, g (k', f v) = g (k', v)) : (l.update k f).entries.map g = l.entries.map g := by
  unfold update
  split
  · next v h => exact map_put_of_held h fun k' => hg k' v
  · rfl

/-- What a key leads to may be put under it again. -/
theorem put_of_get? {l : Ledger κ ν} {k : κ} {v : ν} (h : l.get? k = some v) : l.put k v = l := by
  obtain ⟨es⟩ := l
  simp only [get?, put, mk.injEq] at h ⊢
  induction es with
  | nil => cases h
  | cons e es ih =>
      by_cases he : Key.same e.1 k = true
      · simp only [find, he, if_true, Option.some.injEq] at h
        simp [replace, he, ← h]
      · simp only [find, he, Bool.false_eq_true, if_false] at h
        simp [replace, he, ih h]

theorem put_put (l : Ledger κ ν) (k : κ) (v w : ν) : (l.put k v).put k w = l.put k w := by
  obtain ⟨es⟩ := l
  simp only [put, mk.injEq]
  induction es with
  | nil => simp [replace]
  | cons e es ih =>
      by_cases he : Key.same e.1 k = true
      · simp [replace, he]
      · simp [replace, he, ih]

theorem remove_put (l : Ledger κ ν) (k : κ) (v : ν) : (l.put k v).remove k = l.remove k := by
  obtain ⟨es⟩ := l
  simp only [put, remove, mk.injEq]
  induction es with
  | nil => simp [replace]
  | cons e es ih =>
      by_cases he : Key.same e.1 k = true
      · simp [replace, he]
      · simp [replace, he, ih]

theorem remove_of_free {l : Ledger κ ν} {k : κ} (free : l.get? k = none) : l.remove k = l := by
  rw [get?_eq_none_iff] at free
  exact congrArg mk (List.filter_eq_self.mpr fun e he => by simp [free e he])

theorem get?_update (l : Ledger κ ν) (k k' : κ) (f : ν → ν) :
    (l.update k f).get? k' = if Key.same k k' then (l.get? k').map f else l.get? k' := by
  unfold update
  by_cases hk : Key.same k k' = true
  · rw [if_pos hk, ← l.get?_of_same hk]
    split
    · next v h => rw [get?_put_of_same _ _ hk, h, Option.map_some]
    · next h => rw [← l.get?_of_same hk, h, Option.map_none]
  · rw [if_neg hk]
    split
    · rw [get?_put, if_neg hk]
    · rfl

namespace Distinct

variable {l : Ledger κ ν}

theorem put (h : l.Distinct) (k : κ) (v : ν) : (l.put k v).Distinct := by
  cases held : l.get? k with
  | some w =>
      have keys : (l.put k v).keys = l.keys := map_put_of_held held fun _ => rfl
      rw [Distinct, keys]
      exact h
  | none =>
      rw [Distinct, keys, entries_put_of_free held, List.map_append, List.pairwise_append]
      refine ⟨h, List.pairwise_singleton _ _, ?_⟩
      rintro _ hmem k' hk'
      obtain ⟨e, he, rfl⟩ := List.mem_map.mp hmem
      obtain rfl : k' = k := List.mem_singleton.mp hk'
      exact get?_eq_none_iff.mp held e he

theorem filter (h : l.Distinct) (keep : κ × ν → Bool) :
    (Ledger.mk (l.entries.filter keep)).Distinct :=
  List.Pairwise.sublist (List.filter_sublist.map _) h

theorem remove (h : l.Distinct) (k : κ) : (l.remove k).Distinct := h.filter _

theorem update (h : l.Distinct) (k : κ) (f : ν → ν) : (l.update k f).Distinct := by
  have keys : (l.update k f).keys = l.keys := map_update fun _ _ => rfl
  rw [Distinct, keys]
  exact h

/-- What an entry says is what the table answers. -/
theorem get?_of_mem (h : l.Distinct) {e : κ × ν} (he : e ∈ l.entries) : l.get? e.1 = some e.2 := by
  obtain ⟨es⟩ := l
  simp only [get?]
  induction es with
  | nil => cases he
  | cons e' es ih =>
      obtain ⟨apart, rest⟩ := List.pairwise_cons.mp h
      rcases List.mem_cons.mp he with rfl | he
      · simp [find]
      · have hk : Key.same e'.1 e.1 = false := apart e.1 (List.mem_map_of_mem he)
        simp [find, hk, ih rest he]

end Distinct

end StabsImport.Ledger

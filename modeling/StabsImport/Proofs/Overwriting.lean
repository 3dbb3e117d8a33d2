import Mathlib.Data.List.Induction
import StabsImport.Proofs.Ledgers

/-!
# What is written twice

What is put into a table again keeps its place and its last value, so a sequence of writes has no
more effect the second time. In a list where what is added displaces some of what is there, the
second time leads to the same list as well, though not by the same steps: what is displaced in the
end may displace others in between.
-/

namespace StabsImport

namespace Ledger

variable {κ ν β : Type} [Key κ]

theorem put_put_of_same (l : Ledger κ ν) {k k' : κ} (h : Key.same k k' = true) (v w : ν) :
    (l.put k v).put k' w = l.put k w := by
  have same (e : κ) : Key.same e k' = Key.same e k := by
    rw [Key.same, Key.same, of_decide_eq_true h]
  obtain ⟨es⟩ := l
  simp only [put, mk.injEq]
  induction es with
  | nil => simp [replace, h]
  | cons e es ih =>
      by_cases he : Key.same e.1 k = true
      · simp [replace, same, he]
      · simp [replace, same, he, ih]

/-- A table keeps the spelling of a key that it has. -/
theorem put_spelling (l : Ledger κ ν) {k k' : κ} (h : Key.same k k' = true) (v : ν)
    (held : l.get? k ≠ none) : l.put k' v = l.put k v := by
  have same (e : κ) : Key.same e k' = Key.same e k := by
    rw [Key.same, Key.same, of_decide_eq_true h]
  obtain ⟨es⟩ := l
  simp only [get?, put, mk.injEq] at held ⊢
  induction es with
  | nil => exact absurd rfl held
  | cons e es ih =>
      by_cases he : Key.same e.1 k = true
      · simp [replace, same, he]
      · simp only [find, he, Bool.false_eq_true, if_false] at held
        simp [replace, same, he, ih held]

theorem put_comm (l : Ledger κ ν) {k k' : κ} (h : Key.same k k' = false) (v w : ν)
    (held : l.get? k' ≠ none) : (l.put k v).put k' w = (l.put k' w).put k v := by
  have apart {e : κ} (he : Key.same e k = true) : Key.same e k' = false := by
    rw [Key.same, of_decide_eq_true he]
    exact h
  obtain ⟨es⟩ := l
  simp only [get?, put, mk.injEq] at held ⊢
  induction es with
  | nil => exact absurd rfl held
  | cons e es ih =>
      by_cases he : Key.same e.1 k = true
      · simp [replace, he, apart he]
      · by_cases he' : Key.same e.1 k' = true
        · simp [replace, he, he']
        · simp only [find, he', Bool.false_eq_true, if_false] at held
          simp [replace, he, he', ih held]

/-- A key that is there keeps its place. -/
theorem keys_put_of_held {l : Ledger κ ν} {k : κ} (held : l.get? k ≠ none) (v : ν) :
    (l.put k v).keys = l.keys := by
  obtain ⟨w, hw⟩ := Option.ne_none_iff_exists'.mp held
  exact map_put_of_held hw fun _ => rfl

/-- The entries put one after another. -/
def putAll (l : Ledger κ ν) (es : List (κ × ν)) : Ledger κ ν :=
  es.foldl (fun l e => l.put e.1 e.2) l

@[simp] theorem putAll_nil (l : Ledger κ ν) : l.putAll [] = l := rfl

@[simp] theorem putAll_cons (l : Ledger κ ν) (e : κ × ν) (es : List (κ × ν)) :
    l.putAll (e :: es) = (l.put e.1 e.2).putAll es := rfl

theorem putAll_append (l : Ledger κ ν) (es es' : List (κ × ν)) :
    l.putAll (es ++ es') = (l.putAll es).putAll es' :=
  List.foldl_append

theorem get?_put_ne_none {l : Ledger κ ν} {k : κ} (held : l.get? k ≠ none) (k' : κ) (v : ν) :
    (l.put k' v).get? k ≠ none := by
  rw [get?_put]
  split
  · exact Option.some_ne_none v
  · exact held

theorem get?_putAll_ne_none {l : Ledger κ ν} {k : κ} {es : List (κ × ν)}
    (h : l.get? k ≠ none ∨ ∃ e ∈ es, Key.same e.1 k = true) : (l.putAll es).get? k ≠ none := by
  induction es generalizing l with
  | nil => exact h.resolve_right fun ⟨_, he, _⟩ => absurd he List.not_mem_nil
  | cons e es ih =>
      refine ih ?_
      rcases h with h | ⟨e', he', hk⟩
      · exact .inl (get?_put_ne_none h _ _)
      · rcases List.mem_cons.mp he' with rfl | he'
        · refine .inl ?_
          rw [get?_put_of_same _ _ hk]
          exact Option.some_ne_none _
        · exact .inr ⟨e', he', hk⟩

/-- A write that is made again later need not have been made before. -/
theorem put_putAll_put {l : Ledger κ ν} {es : List (κ × ν)} (held : ∀ e ∈ es, l.get? e.1 ≠ none)
    (k : κ) (v : ν) : ((l.put k v).putAll es).put k v = (l.putAll es).put k v := by
  induction es generalizing l with
  | nil => exact put_put l k v v
  | cons e es ih =>
      have first : l.get? e.1 ≠ none := held e List.mem_cons_self
      have rest (w : ν) : ∀ e' ∈ es, (l.put e.1 w).get? e'.1 ≠ none := fun e' he' =>
        get?_put_ne_none (held e' (List.mem_cons_of_mem _ he')) _ _
      simp only [putAll_cons]
      by_cases hk : Key.same e.1 k = true
      · rw [put_put_of_same l ((Key.same_comm k e.1).trans hk), put_spelling l hk e.2 first]
      · rw [Bool.not_eq_true] at hk
        rw [put_comm l ((Key.same_comm k e.1).trans hk) v e.2 first, ih (rest e.2)]

/-- The same writes again change nothing. -/
theorem putAll_putAll (l : Ledger κ ν) (es : List (κ × ν)) :
    (l.putAll es).putAll es = l.putAll es := by
  induction es using List.reverseRecOn generalizing l with
  | nil => rfl
  | append_singleton es e ih =>
      have held : ∀ e' ∈ es, (l.putAll es).get? e'.1 ≠ none := fun e' he' =>
        get?_putAll_ne_none (.inr ⟨e', he', Key.same_self _⟩)
      simp only [putAll_append, putAll_cons, putAll_nil]
      rw [put_putAll_put held, ih]

omit [Key κ] in
/-- A table whose values are replaced stands in the same order. -/
theorem sorted_map (l : Ledger κ ν) (le : κ → κ → Bool) (g : κ × ν → β) :
    (Ledger.mk (l.entries.map fun e => (e.1, g e))).sorted le =
      (l.sorted le).map fun e => (e.1, g e) :=
  (List.map_mergeSort (f := fun e : κ × ν => (e.1, g e)) fun _ _ _ _ => rfl).symm

end Ledger

/-! ## Lists in which things displace each other -/

section

variable {α β : Type} {meets : α → α → Bool} {as : List α} {a : α}

/-- What is added goes to the end and displaces what it meets. -/
def layOver (meets : α → α → Bool) (l : List α) (a : α) : List α := l.filter (!meets a ·) ++ [a]

/-- What is left of what is added one after another: what nothing later meets. -/
def survivors (meets : α → α → Bool) : List α → List α
  | [] => []
  | a :: rest => if rest.any (meets · a) then survivors meets rest else a :: survivors meets rest

theorem mem_of_mem_survivors (h : a ∈ survivors meets as) : a ∈ as := by
  induction as with
  | nil => exact h
  | cons b as ih =>
      rw [survivors] at h
      split at h
      · exact List.mem_cons_of_mem b (ih h)
      · exact (List.mem_cons.mp h).elim (· ▸ List.mem_cons_self) fun h => List.mem_cons_of_mem b (ih h)

/-- What is left is what nothing later meets. -/
theorem mem_survivors_iff : a ∈ survivors meets as ↔
    ∃ before after, as = before ++ a :: after ∧ ∀ b ∈ after, meets b a = false := by
  induction as with
  | nil => simp [survivors]
  | cons b as ih =>
      have split :
          (∃ before after, b :: as = before ++ a :: after ∧ ∀ c ∈ after, meets c a = false) ↔
          (b = a ∧ ∀ c ∈ as, meets c a = false) ∨ a ∈ survivors meets as := by
        rw [ih]
        constructor
        · rintro ⟨_ | ⟨c, before⟩, after, he, hafter⟩
          · obtain ⟨rfl, rfl⟩ := List.cons.inj he
            exact .inl ⟨rfl, hafter⟩
          · exact .inr ⟨before, after, (List.cons.inj he).2, hafter⟩
        · rintro (⟨rfl, hafter⟩ | ⟨before, after, rfl, hafter⟩)
          · exact ⟨[], as, rfl, hafter⟩
          · exact ⟨b :: before, after, rfl, hafter⟩
      rw [split, survivors]
      by_cases hmet : as.any (meets · b) = true
      · rw [if_pos hmet]
        refine ⟨.inr, fun h => h.resolve_left ?_⟩
        rintro ⟨rfl, hafter⟩
        obtain ⟨c, hc, hcb⟩ := List.any_eq_true.mp hmet
        rw [hafter c hc] at hcb
        cases hcb
      · rw [if_neg hmet, List.mem_cons]
        refine or_congr_left ⟨?_, fun h => h.1.symm⟩
        rintro rfl
        refine ⟨rfl, fun c hc => ?_⟩
        rw [Bool.not_eq_true] at hmet
        simpa using List.any_eq_false.mp hmet c hc

/-- What is there stays unless something displaces it. -/
theorem foldl_layOver (meets : α → α → Bool) (l as : List α) :
    as.foldl (layOver meets) l = l.filter (fun x => !as.any (meets · x)) ++ survivors meets as := by
  induction as generalizing l with
  | nil =>
      rw [survivors, List.append_nil]
      exact (List.filter_eq_self.mpr fun _ _ => rfl).symm
  | cons a as ih =>
      rw [List.foldl_cons, ih, layOver, List.filter_append, List.filter_filter, survivors]
      by_cases ha : as.any (meets · a) = true
      · simp [ha, Bool.and_comm]
      · simp [ha, Bool.and_comm]

/-- The same added again, each in the place of itself at least, leads to the same list. -/
theorem foldl_layOver_again (refl : ∀ a ∈ as, meets a a = true) (l : List α) :
    as.foldl (layOver meets) (as.foldl (layOver meets) l) = as.foldl (layOver meets) l := by
  have gone : (survivors meets as).filter (fun x => !as.any (meets · x)) = [] := by
    refine List.filter_eq_nil_iff.mpr fun x hx => ?_
    have hmem := mem_of_mem_survivors hx
    have hmet : as.any (meets · x) = true := List.any_eq_true.mpr ⟨x, hmem, refl x hmem⟩
    simp [hmet]
  rw [foldl_layOver meets l, foldl_layOver, List.filter_append, gone, List.filter_filter, List.append_nil]
  simp

theorem map_survivors {meets' : β → β → Bool} (f : α → β)
    (hf : ∀ a b, meets' (f a) (f b) = meets a b) (as : List α) :
    (survivors meets as).map f = survivors meets' (as.map f) := by
  induction as with
  | nil => rfl
  | cons a as ih =>
      have hany : ((as.map f).any (meets' · (f a))) = as.any (meets · a) := by
        simp [List.any_map, Function.comp_def, hf]
      rw [List.map_cons, survivors, survivors, hany]
      split
      · exact ih
      · rw [List.map_cons, ih]

theorem map_foldl_layOver {meets' : β → β → Bool} (f : α → β)
    (hf : ∀ a b, meets' (f a) (f b) = meets a b) (l as : List α) :
    (as.foldl (layOver meets) l).map f = (as.map f).foldl (layOver meets') (l.map f) := by
  rw [foldl_layOver, foldl_layOver, List.map_append, map_survivors f hf, List.filter_map]
  simp [List.any_map, Function.comp_def, hf]

end

end StabsImport

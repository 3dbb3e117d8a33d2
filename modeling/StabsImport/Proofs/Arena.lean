import StabsImport.Types.Layout

/-!
# Sound arenas

In a sound arena every link of a type's name and length leads to a smaller number, so both can be
followed to an end, and every name that is not made out of others is a text.
-/

namespace StabsImport

/-- The types that a type is made of, components apart. -/
def TypeObject.links : TypeObject → List TypeId
  | named _ (.signature returns parameters) => returns :: parameters
  | named _ _ => []
  | pointer target _ => [target]
  | array element _ => [element]

namespace Arena

theorem get?_set_self {a : Arena} {id : TypeId} (t : TypeObject) (h : id < a.size) :
    (a.set id t).get? id = some t := by
  have h : id < a.objects.size := h
  simp [get?, set, h]

theorem get?_set_of_ne (a : Arena) {id other : TypeId} (t : TypeObject) (h : other ≠ id) :
    (a.set id t).get? other = a.get? other := by
  simp [get?, set, h.symm]

theorem set_eq_self {a : Arena} {id : TypeId} {t : TypeObject} (h : a.get? id = some t) :
    a.set id t = a := by
  obtain ⟨objects, room⟩ := a
  obtain ⟨hlt, rfl⟩ := Array.getElem?_eq_some_iff.mp h
  have hlt : id < objects.size := hlt
  simp [set, Array.setIfInBounds, hlt]

theorem set_push_self (a : Arena) (t u : TypeObject) : (a.push t).set a.size u = a.push u := by
  simp [push, set, size, Array.setIfInBounds, Array.set_push]

@[simp] theorem size_set (a : Arena) (id : TypeId) (t : TypeObject) :
    (a.set id t).size = a.size := by
  simp [size, set]

@[simp] theorem room_push (a : Arena) (t : TypeObject) : (a.push t).room = a.room := rfl

@[simp] theorem room_set (a : Arena) (id : TypeId) (t : TypeObject) : (a.set id t).room = a.room :=
  rfl

theorem lt_size_of_get? {a : Arena} {id : TypeId} {t : TypeObject} (h : a.get? id = some t) :
    id < a.size := (Array.getElem?_eq_some_iff.mp h).1

theorem get?_push_of_get? {a : Arena} {id : TypeId} {t : TypeObject} (u : TypeObject)
    (h : a.get? id = some t) : (a.push u).get? id = some t := by
  rw [get?_push_of_lt a u (lt_size_of_get? h), h]

/-- A type of an arena with one more is that one, or was there before. -/
theorem get?_push_cases {a : Arena} {id : TypeId} {t u : TypeObject}
    (h : (a.push u).get? id = some t) : (id = a.size ∧ t = u) ∨ a.get? id = some t := by
  have hlt : id < a.size + 1 := by simpa [size_push] using lt_size_of_get? h
  rcases Nat.lt_succ_iff_lt_or_eq.mp hlt with hlt | rfl
  · exact .inr (get?_push_of_lt a u hlt ▸ h)
  · rw [get?_push_self] at h
    exact .inl ⟨rfl, (Option.some.inj h).symm⟩

theorem composite?_eq_some {a : Arena} {id : TypeId} {c : Composite} :
    a.composite? id = some c ↔ ∃ name, a.get? id = some (.named name (.composite c)) := by
  simp only [composite?, Option.bind_eq_some_iff]
  constructor
  · rintro ⟨t, ht, hc⟩
    match t, hc with
    | .named name (.composite _), rfl => exact ⟨name, ht⟩
  · rintro ⟨name, h⟩
    exact ⟨_, h, rfl⟩

theorem composite?_push_of_lt (a : Arena) (t : TypeObject) {id : TypeId} (h : id < a.size) :
    (a.push t).composite? id = a.composite? id := by
  rw [composite?, composite?, get?_push_of_lt a t h]

theorem composite?_set_of_ne (a : Arena) {id other : TypeId} (t : TypeObject) (h : other ≠ id) :
    (a.set id t).composite? other = a.composite? other := by
  rw [composite?, composite?, get?_set_of_ne a t h]

theorem composite?_set_self {a : Arena} {id : TypeId} (name : Json) (c : Composite)
    (h : id < a.size) : (a.set id (.named name (.composite c))).composite? id = some c :=
  composite?_eq_some.mpr ⟨name, get?_set_self _ h⟩

theorem length_undefinedOf {a : Arena} {id : TypeId} {size : Int}
    (h : a.get? id = some (.undefinedOf size)) : a.length id = size := by
  simp [length, lengthWithin, h, TypeObject.undefinedOf]

theorem lt_size_of_length_pos {a : Arena} {id : TypeId} (h : 0 < a.length id) : id < a.size := by
  cases hg : a.get? id with
  | none => simp [length, lengthWithin, hg] at h
  | some t => exact lt_size_of_get? hg

/-- No link of the type leads out of the arena, it has no members yet, and its name is a text. -/
structure IsPlain (a : Arena) (t : TypeObject) : Prop where
  links : ∀ l ∈ t.links, l < a.size
  placed : ∀ {name c}, t = .named name (.composite c) → c.components = []
  texts : ∀ {name shape}, t = .named name shape → ∃ n, name = .text n

namespace IsPlain

variable {a : Arena}

/-- A named type may have any text for its name. -/
theorem named {name : Json} {shape : Shape} (h : IsPlain a (.named name shape)) (own : String) :
    IsPlain a (.named (.text own) shape) where
  links l hl := h.links l (by cases shape <;> exact hl)
  placed he := by
    cases he
    exact h.placed rfl
  texts he := by
    cases he
    exact ⟨own, rfl⟩

theorem undefined (size : Int) : IsPlain a (.undefinedOf size) where
  links l hl := by cases hl
  placed h := by cases h
  texts h := by cases h; exact ⟨_, rfl⟩

theorem pointer {target : TypeId} (h : target < a.size) (size : Int) :
    IsPlain a (.pointer target size) where
  links l hl := by
    cases List.mem_singleton.mp hl
    exact h
  placed h := by cases h
  texts h := by cases h

theorem array {element : TypeId} (h : element < a.size) (count : Int) :
    IsPlain a (.array element count) where
  links l hl := by
    cases List.mem_singleton.mp hl
    exact h
  placed h := by cases h
  texts h := by cases h

theorem signature {returns : TypeId} {parameters : List TypeId} (hr : returns < a.size)
    (hp : ∀ id ∈ parameters, id < a.size) (name : String) :
    IsPlain a (.named (.text name) (.signature returns parameters)) where
  links l hl := by
    rcases List.mem_cons.mp hl with rfl | hl
    · exact hr
    · exact hp l hl
  placed h := by cases h
  texts h := by cases h; exact ⟨_, rfl⟩

theorem builtIn (name : String) (size : Int) (signed isFloat isBool : Bool) :
    IsPlain a (.named (.text name) (.builtIn size signed isFloat isBool)) where
  links l hl := by cases hl
  placed h := by cases h
  texts h := by cases h; exact ⟨_, rfl⟩

theorem enumeration (name : String) (size : Int) (values : Ledger Json Int) :
    IsPlain a (.named (.text name) (.enumeration size values)) where
  links l hl := by cases hl
  placed h := by cases h
  texts h := by cases h; exact ⟨_, rfl⟩

theorem shell (name : String) (kind : CompositeKind) (size : Int) :
    IsPlain a (.named (.text name) (.composite (.empty kind size))) where
  links l hl := by cases hl
  placed h := by cases h; rfl
  texts h := by cases h; exact ⟨_, rfl⟩

end IsPlain

/-- What holds of the types of every program. -/
structure Sound (a : Arena) : Prop where
  linked : ∀ {id t}, a.get? id = some t → ∀ l ∈ t.links, l < id
  placed : ∀ {id name c}, a.get? id = some (.named name (.composite c)) →
    ∀ m ∈ c.components, m.type < a.size
  texts : ∀ {id name shape}, a.get? id = some (.named name shape) → ∃ s, name = .text s

theorem sound_empty : ({} : Arena).Sound := by
  constructor <;> simp [get?]

namespace Sound

variable {a : Arena}

theorem push (h : a.Sound) {t : TypeObject} (ht : IsPlain a t) : (a.push t).Sound where
  linked hg := by
    rcases get?_push_cases hg with ⟨rfl, rfl⟩ | hg
    · exact ht.links
    · exact h.linked hg
  placed hg m hm := by
    rw [size_push]
    rcases get?_push_cases hg with ⟨_, rfl⟩ | hg
    · rw [ht.placed rfl] at hm
      cases hm
    · exact Nat.lt_succ_of_lt (h.placed hg m hm)
  texts hg := by
    rcases get?_push_cases hg with ⟨_, rfl⟩ | hg
    · exact ht.texts rfl
    · exact h.texts hg

/-- A type that keeps its kind of links may take another name or other components. -/
theorem set (h : a.Sound) {id : TypeId} {t : TypeObject} (links : ∀ l ∈ t.links, l < id)
    (placed : ∀ {name c}, t = .named name (.composite c) → ∀ m ∈ c.components, m.type < a.size)
    (texts : ∀ {name shape}, t = .named name shape → ∃ s, name = .text s) :
    (a.set id t).Sound := by
  have other {k : TypeId} {u : TypeObject} (hg : (a.set id t).get? k = some u) :
      (k = id ∧ u = t) ∨ a.get? k = some u := by
    by_cases hk : k = id
    · subst hk
      have hlt := lt_size_of_get? hg
      rw [size_set] at hlt
      rw [get?_set_self t hlt] at hg
      exact .inl ⟨rfl, (Option.some.inj hg).symm⟩
    · rw [get?_set_of_ne a t hk] at hg
      exact .inr hg
  constructor
  · intro k u hg
    rcases other hg with ⟨rfl, rfl⟩ | hg
    · exact links
    · exact h.linked hg
  · intro k name c hg m hm
    rw [size_set]
    rcases other hg with ⟨_, hu⟩ | hg
    · exact placed hu.symm m hm
    · exact h.placed hg m hm
  · intro k name shape hg
    rcases other hg with ⟨_, hu⟩ | hg
    · exact texts hu.symm
    · exact h.texts hg

theorem nameWithin_text (h : a.Sound) {fuel : Nat} {id : TypeId} (hf : id < fuel) :
    ∃ s, a.nameWithin fuel id = .ok (.text s) := by
  induction fuel generalizing id with
  | zero => exact absurd hf (Nat.not_lt_zero id)
  | succ fuel ih =>
      unfold nameWithin
      split
      · next name shape hg =>
          obtain ⟨s, rfl⟩ := h.texts hg
          exact ⟨s, rfl⟩
      · next target size hg =>
          have hl : target < id := h.linked hg target (by simp [TypeObject.links])
          obtain ⟨s, hs⟩ := ih (Nat.lt_of_lt_of_le hl (Nat.le_of_lt_succ hf))
          exact ⟨s ++ " *", by simp [hs, bind, Except.bind, pure, Except.pure]⟩
      · next element count hg =>
          have hl : element < id := h.linked hg element (by simp [TypeObject.links])
          obtain ⟨s, hs⟩ := ih (Nat.lt_of_lt_of_le hl (Nat.le_of_lt_succ hf))
          exact ⟨_, by simp only [hs, bind, Except.bind, pure, Except.pure]; rfl⟩
      · exact ⟨"", rfl⟩

/-- Where names are not cut short, every type has one. -/
theorem name_text (h : a.Sound) (room : a.room = none) (id : TypeId) :
    ∃ s, a.name id = .ok (.text s) := by
  unfold name reach
  rw [room]
  exact h.nameWithin_text (Nat.lt_succ_self id)

/-- More links to follow than there are change nothing. -/
theorem lengthWithin_eq (h : a.Sound) {fuel : Nat} {id : TypeId} (hf : id < fuel) :
    a.lengthWithin fuel id = a.length id := by
  induction id using Nat.strongRecOn generalizing fuel with
  | ind id ih =>
      obtain ⟨fuel, rfl⟩ := Nat.exists_eq_add_one_of_ne_zero (Nat.ne_zero_of_lt hf)
      unfold length lengthWithin
      split
      · rfl
      · rfl
      · next element count hg =>
          have hl : element < id := h.linked hg element (by simp [TypeObject.links])
          rw [ih element hl (Nat.lt_of_lt_of_le hl (Nat.le_of_lt_succ hf)), ih element hl hl]
      · rfl

theorem length_array (h : a.Sound) {id element : TypeId} {count : Int}
    (hg : a.get? id = some (.array element count)) : a.length id = a.length element * count := by
  have hl : element < id := h.linked hg element (by simp [TypeObject.links])
  conv => lhs; unfold length lengthWithin
  simp only [hg, h.lengthWithin_eq hl]

theorem nameWithin_eq (h : a.Sound) (room : a.room = none) {fuel : Nat} {id : TypeId}
    (hf : id < fuel) : a.nameWithin fuel id = a.name id := by
  have name_eq (id : TypeId) : a.name id = a.nameWithin (id + 1) id := by
    simp only [name, reach, room, Option.map_none, Option.getD_none]
  induction id using Nat.strongRecOn generalizing fuel with
  | ind id ih =>
      obtain ⟨fuel, rfl⟩ := Nat.exists_eq_add_one_of_ne_zero (Nat.ne_zero_of_lt hf)
      rw [name_eq]
      unfold nameWithin
      split
      · rfl
      · next target size hg =>
          have hl : target < id := h.linked hg target (by simp [TypeObject.links])
          rw [ih target hl (Nat.lt_of_lt_of_le hl (Nat.le_of_lt_succ hf)), ih target hl hl]
      · next element count hg =>
          have hl : element < id := h.linked hg element (by simp [TypeObject.links])
          rw [ih element hl (Nat.lt_of_lt_of_le hl (Nat.le_of_lt_succ hf)), ih element hl hl]
      · rfl

theorem plainName_ok (h : a.Sound) (room : a.room = none) (id : TypeId) :
    ∃ s, a.plainName id = .ok s := by
  obtain ⟨s, hs⟩ := h.name_text room id
  exact ⟨(Json.text s).plain, by simp [plainName, hs, Except.map]⟩

end Sound

end Arena

end StabsImport

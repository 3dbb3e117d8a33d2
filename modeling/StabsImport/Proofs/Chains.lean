import Mathlib.Data.List.Chain
import StabsImport.Proofs.Summaries

/-!
# Chains of types

A pointer, an array and a signature are made of types that were there before them, and never of
others. A chain of such links goes down and comes to an end; what comes back to where it started
has gone through the components of a structure or union. All that is asked of a type follows such
links only, so it is answered, however types refer to each other.
-/

namespace StabsImport.Arena

variable {a : Arena} {x y : TypeId} {name : String} {n : Int}

/-- The type points to the other, is an array of it, or is a signature that returns or takes it. -/
def MadeOf (a : Arena) (x y : TypeId) : Prop := ∃ t, a.get? x = some t ∧ y ∈ t.links

/-- The type is made of the other, or has a component of it. -/
def Mentions (a : Arena) (x y : TypeId) : Prop :=
  a.MadeOf x y ∨ ∃ c, a.composite? x = some c ∧ ∃ m ∈ c.components, m.type = y

/-- Each type mentions the next, and the last one the first. -/
def IsCycle (a : Arena) : List TypeId → Prop
  | [] => False
  | x :: rest => List.IsChain a.Mentions (x :: rest ++ [x])

instance : DecidableRel a.MadeOf := fun x y =>
  inferInstanceAs (Decidable (∃ t ∈ a.get? x, y ∈ t.links))

instance : DecidableRel a.Mentions := fun x y =>
  inferInstanceAs (Decidable (a.MadeOf x y ∨ ∃ c ∈ a.composite? x, ∃ m ∈ c.components, m.type = y))

instance : DecidablePred a.IsCycle
  | [] => inferInstanceAs (Decidable False)
  | x :: rest => inferInstanceAs (Decidable (List.IsChain a.Mentions (x :: rest ++ [x])))

/-- The type is called so, as told by what it is made of. -/
inductive Displays (a : Arena) : TypeId → String → Prop where
  | named {x : TypeId} {name : String} {shape : Shape}
      (h : a.get? x = some (.named (.text name) shape)) : Displays a x name
  | pointer {x target : TypeId} {size : Int} {name : String}
      (h : a.get? x = some (.pointer target size)) (target : Displays a target name) :
      Displays a x (name ++ " *")
  | array {x element : TypeId} {count : Int} {name : String}
      (h : a.get? x = some (.array element count)) (element : Displays a element name) :
      Displays a x s!"{name}[{count}]"

/-- The type has this length, as told by what it is made of. -/
inductive Measures (a : Arena) : TypeId → Int → Prop where
  | named {x : TypeId} {name : Json} {shape : Shape} (h : a.get? x = some (.named name shape)) :
      Measures a x shape.extent.length
  | pointer {x target : TypeId} {size : Int} (h : a.get? x = some (.pointer target size)) :
      Measures a x size
  | array {x element : TypeId} {count n : Int} (h : a.get? x = some (.array element count))
      (element : Measures a element n) : Measures a x (n * count)

/-- Links lead down, and those through components as well to a type that is there. -/
structure Unwinds (a : Arena) : Prop where
  ends : ∀ {x rest}, List.IsChain a.MadeOf (x :: rest) → rest.length ≤ x
  closed : ∀ {x y}, a.Mentions x y → y < a.size
  cycles : ∀ {l}, a.IsCycle l → ∃ x ∈ l, (a.composite? x).isSome = true

/-- Each question about a type that is there has an answer. -/
structure Answers (a : Arena) : Prop where
  name : ∀ x < a.size, ∃ name, a.name x = .ok (.text name) ∧ ∀ s, a.Displays x s ↔ s = name
  length : ∀ x < a.size, ∀ n, a.Measures x n ↔ n = a.length x
  equivalent : ∀ x < a.size, ∀ y < a.size, ∃ b, a.isEquivalent x y = .ok b
  signature : ∀ {x c}, a.composite? x = some c → ∀ m ∈ c.components, ∃ g, a.signature m = .ok g
  summary : ∀ x < a.size, ∀ keyText, ∃ v, a.toJson keyText x = .ok v

theorem madeOf_pointer {target : TypeId} {size : Int} (h : a.get? x = some (.pointer target size)) :
    a.MadeOf x target := ⟨_, h, List.mem_singleton_self target⟩

theorem madeOf_array {element : TypeId} {count : Int}
    (h : a.get? x = some (.array element count)) : a.MadeOf x element :=
  ⟨_, h, List.mem_singleton_self element⟩

theorem exists_get? (hx : x < a.size) : ∃ t, a.get? x = some t :=
  ⟨_, Array.getElem?_eq_getElem hx⟩

theorem Displays.unique {s s' : String} (h : a.Displays x s) (h' : a.Displays x s') : s = s' := by
  induction h generalizing s' with
  | named hx =>
      cases h' with
      | named hx' =>
          cases hx.symm.trans hx'
          rfl
      | _ hx' => cases hx.symm.trans hx'
  | pointer hx _ ih =>
      cases h' with
      | pointer hx' target =>
          cases hx.symm.trans hx'
          rw [ih target]
      | _ hx' => cases hx.symm.trans hx'
  | array hx _ ih =>
      cases h' with
      | array hx' element =>
          cases hx.symm.trans hx'
          rw [ih element]
      | _ hx' => cases hx.symm.trans hx'

theorem Measures.unique {m n : Int} (h : a.Measures x m) (h' : a.Measures x n) : m = n := by
  induction h generalizing n with
  | named hx =>
      cases h' with
      | named hx' =>
          cases hx.symm.trans hx'
          rfl
      | _ hx' => cases hx.symm.trans hx'
  | pointer hx =>
      cases h' with
      | pointer hx' =>
          cases hx.symm.trans hx'
          rfl
      | _ hx' => cases hx.symm.trans hx'
  | array hx _ ih =>
      cases h' with
      | array hx' element =>
          cases hx.symm.trans hx'
          rw [ih element]
      | _ hx' => cases hx.symm.trans hx'

namespace Sound

theorem withRoom (h : a.Sound) (room : Room) : Sound { a with room } := ⟨h.linked, h.placed, h.texts⟩

theorem lt_of_madeOf (h : a.Sound) (hxy : a.MadeOf x y) : y < x := by
  obtain ⟨t, ht, hy⟩ := hxy
  exact h.linked ht y hy

/-! ## Chains and cycles -/

/-- Numbers go down along a chain. -/
theorem length_le_of_chain (h : a.Sound) {rest : List TypeId}
    (chain : List.IsChain a.MadeOf (x :: rest)) : rest.length ≤ x := by
  induction rest generalizing x with
  | nil => exact Nat.zero_le x
  | cons y rest ih =>
      obtain ⟨hxy, chain⟩ := List.isChain_cons_cons.mp chain
      exact Nat.lt_of_le_of_lt (ih chain) (h.lt_of_madeOf hxy)

theorem lt_size_of_mentions (h : a.Sound) (hxy : a.Mentions x y) : y < a.size := by
  rcases hxy with hxy | ⟨c, hc, m, hm, rfl⟩
  · obtain ⟨t, ht, -⟩ := id hxy
    exact Nat.lt_trans (h.lt_of_madeOf hxy) (lt_size_of_get? ht)
  · obtain ⟨name, hname⟩ := composite?_eq_some.mp hc
    exact h.placed hname m hm

/-- Without components there is no way back up. -/
theorem exists_composite_of_isCycle (h : a.Sound) {l : List TypeId} (cycle : a.IsCycle l) :
    ∃ x ∈ l, (a.composite? x).isSome = true := by
  by_contra! none
  match l, cycle with
  | x :: rest, cycle =>
      have down : List.IsChain (· > ·) (x :: (rest ++ [x])) := by
        refine List.IsChain.imp_of_mem_imp (fun u v hu _ huv => ?_) cycle
        have hu : u ∈ x :: rest := by
          rcases List.mem_append.mp (show u ∈ (x :: rest) ++ [x] from hu) with hu | hu
          · exact hu
          · exact List.mem_singleton.mp hu ▸ List.mem_cons_self
        rcases huv with huv | ⟨c, hc, -⟩
        · exact h.lt_of_madeOf huv
        · exact absurd (by rw [hc]; rfl) (none u hu)
      have last : x ∈ rest ++ [x] := List.mem_append_right rest (List.mem_singleton_self x)
      exact Nat.lt_irrefl x (List.rel_of_pairwise_cons down.pairwise last)

theorem unwinds (h : a.Sound) : a.Unwinds where
  ends := h.length_le_of_chain
  closed := h.lt_size_of_mentions
  cycles := h.exists_composite_of_isCycle

/-! ## Names and lengths -/

theorem exists_displays (h : a.Sound) (hx : x < a.size) : ∃ name, a.Displays x name := by
  induction x using Nat.strongRecOn with
  | ind x ih =>
      obtain ⟨t, ht⟩ := exists_get? hx
      cases t with
      | named name shape =>
          obtain ⟨s, rfl⟩ := h.texts ht
          exact ⟨s, .named ht⟩
      | pointer target size =>
          have hlt := h.lt_of_madeOf (madeOf_pointer ht)
          obtain ⟨name, hname⟩ := ih target hlt (Nat.lt_trans hlt hx)
          exact ⟨_, .pointer ht hname⟩
      | array element count =>
          have hlt := h.lt_of_madeOf (madeOf_array ht)
          obtain ⟨name, hname⟩ := ih element hlt (Nat.lt_trans hlt hx)
          exact ⟨_, .array ht hname⟩

/-- Links that lead down leave enough to go on with. -/
theorem nameWithin_of_displays (h : a.Sound) (hd : a.Displays x name) {fuel : Nat}
    (hf : x < fuel) : a.nameWithin fuel x = .ok (.text name) := by
  induction hd generalizing fuel with
  | named hx =>
      obtain ⟨fuel, rfl⟩ := Nat.exists_eq_add_one_of_ne_zero (Nat.ne_zero_of_lt hf)
      simp only [nameWithin, hx]
  | pointer hx _ ih =>
      obtain ⟨fuel, rfl⟩ := Nat.exists_eq_add_one_of_ne_zero (Nat.ne_zero_of_lt hf)
      have hlt := h.lt_of_madeOf (madeOf_pointer hx)
      simp only [nameWithin, hx, ih (Nat.lt_of_lt_of_le hlt (Nat.le_of_lt_succ hf))]
      rfl
  | array hx _ ih =>
      obtain ⟨fuel, rfl⟩ := Nat.exists_eq_add_one_of_ne_zero (Nat.ne_zero_of_lt hf)
      have hlt := h.lt_of_madeOf (madeOf_array hx)
      simp only [nameWithin, hx, ih (Nat.lt_of_lt_of_le hlt (Nat.le_of_lt_succ hf))]
      rfl

/-- It takes two calls for each type there is, at most, to tell a name. -/
theorem lt_reach (hx : x < a.size) (room : a.room.allows (2 * a.size) = true) :
    x < a.reach.getD (x + 1) := by
  unfold reach
  cases hr : a.room with
  | none => exact Nat.lt_succ_self x
  | some r =>
      have hr : 2 * a.size ≤ r := by simpa [hr, Room.allows] using room
      have half : a.size ≤ r / 2 := by omega
      exact Nat.lt_of_lt_of_le hx half

theorem name_ok (h : a.Sound) (room : a.room.allows (2 * a.size) = true) (hx : x < a.size) :
    ∃ name, a.Displays x name ∧ a.name x = .ok (.text name) := by
  obtain ⟨name, hd⟩ := h.exists_displays hx
  exact ⟨name, hd, h.nameWithin_of_displays hd (lt_reach hx room)⟩

theorem measures_length (h : a.Sound) (hx : x < a.size) : a.Measures x (a.length x) := by
  induction x using Nat.strongRecOn with
  | ind x ih =>
      obtain ⟨t, ht⟩ := exists_get? hx
      cases t with
      | named name shape =>
          rw [← length_extent, extent_named ht]
          exact .named ht
      | pointer target size =>
          rw [← length_extent, extent_pointer ht]
          exact .pointer ht
      | array element count =>
          have hlt := h.lt_of_madeOf (madeOf_array ht)
          rw [h.length_array ht]
          exact .array ht (ih element hlt (Nat.lt_trans hlt hx))

/-! ## What is asked of a type -/

/-- Where the types that are there have names, so has any number: what is not there is called
nothing. -/
theorem hasNames_of_allows (h : a.Sound) (room : a.room.allows (2 * a.size) = true)
    (hx : x < a.size) : a.HasNames := by
  intro y
  by_cases hy : y < a.size
  · obtain ⟨name, -, hname⟩ := h.name_ok room hy
    exact ⟨name, hname⟩
  · have hnone : a.get? y = none := Array.getElem?_eq_none (Nat.not_lt.mp hy)
    have hlt := lt_reach hx room
    refine ⟨"", ?_⟩
    unfold name
    cases hr : a.reach with
    | none => simp only [Option.getD_none, nameWithin, hnone]
    | some r =>
        rw [hr, Option.getD_some] at hlt
        obtain ⟨r, rfl⟩ := Nat.exists_eq_add_one_of_ne_zero (Nat.ne_zero_of_lt hlt)
        simp only [Option.getD_some, nameWithin, hnone]

theorem answers (h : a.Sound) (room : a.room.allows (2 * a.size) = true) : a.Answers where
  name x hx := by
    obtain ⟨name, hd, hname⟩ := h.name_ok room hx
    exact ⟨name, hname, fun s => ⟨fun hs => hs.unique hd, fun hs => hs ▸ hd⟩⟩
  length x hx n := ⟨fun hn => hn.unique (h.measures_length hx), fun hn => hn ▸ h.measures_length hx⟩
  equivalent x hx y _ := (h.hasNames_of_allows room hx).isEquivalent_ok x y
  signature hc m _ := by
    obtain ⟨_, hx⟩ := composite?_eq_some.mp hc
    exact (h.hasNames_of_allows room (lt_size_of_get? hx)).signature_ok m
  summary x hx keyText := (h.hasNames_of_allows room hx).toJson_ok keyText x

end Sound

end StabsImport.Arena

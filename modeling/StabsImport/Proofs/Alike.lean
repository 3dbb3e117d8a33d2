import Mathlib.Data.List.Forall2
import StabsImport.Proofs.Members

/-!
# Types that are alike

Types of two arenas are alike if they look the same and whatever either leads to looks the same as
what the other leads to in the same way. Types may lead back to themselves, so this is shown of a
relation that holds of all that its types lead to.
-/

namespace StabsImport

/-- The types that a type leads to, those of its members among them. -/
def TypeObject.leads : TypeObject → List TypeId
  | named _ (.composite c) => c.components.map (·.type)
  | t => t.links

namespace Arena

/-- What there is to see of a type. -/
structure Portrait where
  kind : String
  name : Except Fault Json
  length : Int
  /-- The size of a structure or union. -/
  size : Option Int
  /-- Its members. -/
  components : Except Fault (List Signature)
  /-- The constants of an enumeration. -/
  constants : Ledger Json Int

def componentsOf (a : Arena) : TypeObject → Except Fault (List Signature)
  | .named _ (.composite c) => c.components.mapM a.signature
  | _ => .ok []

def constantsOf : TypeObject → Ledger Json Int
  | .named _ (.enumeration _ values) => values
  | _ => {}

def portrait (a : Arena) (id : TypeId) : Option Portrait :=
  (a.get? id).map fun t =>
    { kind := t.kind, name := a.name id, length := a.length id, size := t.composite?.map (·.size)
      components := a.componentsOf t, constants := constantsOf t }

/-- The type that a path leads to, which says at each type which of those it leads to is next. -/
def follow (a : Arena) : List Nat → TypeId → Option TypeId
  | [], id => some id
  | i :: path, id => (a.get? id).bind fun t => t.leads[i]?.bind (a.follow path)

/-- Whatever path is followed leads to types that look the same, or nowhere. -/
def Alike (a b : Arena) (x y : TypeId) : Prop :=
  ∀ path, (a.follow path x).bind a.portrait = (b.follow path y).bind b.portrait

end Arena

/-- Lists whose elements yield the same in turn yield the same. -/
theorem mapM_congr {ε α β γ : Type} {R : α → β → Prop} {f : α → Except ε γ} {g : β → Except ε γ}
    {xs : List α} {ys : List β} (h : List.Forall₂ R xs ys)
    (same : ∀ x ∈ xs, ∀ y ∈ ys, R x y → f x = g y) : xs.mapM f = ys.mapM g := by
  induction h with
  | nil => rfl
  | cons hxy _ ih =>
      rw [List.mapM_cons, List.mapM_cons, same _ List.mem_cons_self _ List.mem_cons_self hxy,
        ih fun x hx y hy => same x (List.mem_cons_of_mem _ hx) y (List.mem_cons_of_mem _ hy)]

/-! ## Resembling types -/

variable {R : TypeId → TypeId → Prop}

/-- The types look the same but for what their names and lengths are made of, and that is related. Of
a composite nothing is told of its members. -/
inductive TypeObject.Resembles (R : TypeId → TypeId → Prop) : TypeObject → TypeObject → Prop where
  | leaf {t : TypeObject} (links : t.links = []) (plain : t.composite? = none) : Resembles R t t
  | pointer {x y : TypeId} {size : Int} (target : R x y) :
      Resembles R (.pointer x size) (.pointer y size)
  | array {x y : TypeId} {count : Int} (element : R x y) :
      Resembles R (.array x count) (.array y count)
  | signature {name : Json} {x y : TypeId} {xs ys : List TypeId} (returns : R x y)
      (parameters : List.Forall₂ R xs ys) :
      Resembles R (.named name (.signature x xs)) (.named name (.signature y ys))
  | composite {name : Json} {c c' : Composite} (kind : c.kind = c'.kind) (size : c.size = c'.size) :
      Resembles R (.named name (.composite c)) (.named name (.composite c'))

namespace TypeObject.Resembles

variable {t u : TypeObject}

theorem mono {S : TypeId → TypeId → Prop} (h : t.Resembles R u) (sub : ∀ x y, R x y → S x y) :
    t.Resembles S u := by
  cases h with
  | leaf links plain => exact .leaf links plain
  | pointer target => exact .pointer (sub _ _ target)
  | array element => exact .array (sub _ _ element)
  | signature returns parameters => exact .signature (sub _ _ returns) (parameters.imp sub)
  | composite kind size => exact .composite kind size

theorem kind (h : t.Resembles R u) : t.kind = u.kind := by
  cases h with
  | @composite _ c c' hk =>
      obtain ⟨k, _, _⟩ := c
      obtain ⟨k', _, _⟩ := c'
      obtain rfl : k = k' := hk
      cases k <;> rfl
  | _ => rfl

end TypeObject.Resembles

namespace Arena

variable {a b : Arena} {x y : TypeId}

namespace Sound

theorem name_pointer (h : a.Sound) (room : a.room = none) {target : TypeId} {size : Int}
    (hg : a.get? x = some (.pointer target size)) :
    a.name x = (do
      match ← a.name target with
      | .text name => return .text (name ++ " *")
      | _ => throw .wrongKind) := by
  have hl : target < x := h.linked hg target (by simp [TypeObject.links])
  rw [← h.nameWithin_eq room (Nat.lt_succ_self x), nameWithin]
  simp only [hg]
  exact h.nameWithin_eq room hl ▸ rfl

theorem name_array (h : a.Sound) (room : a.room = none) {element : TypeId} {count : Int}
    (hg : a.get? x = some (.array element count)) :
    a.name x = (do
      let name ← a.name element
      return .text s!"{name.plain}[{count}]") := by
  have hl : element < x := h.linked hg element (by simp [TypeObject.links])
  rw [← h.nameWithin_eq room (Nat.lt_succ_self x), nameWithin]
  simp only [hg, h.nameWithin_eq room hl]

end Sound

theorem name_named (room : a.room = none) {name : Json} {shape : Shape}
    (hg : a.get? x = some (.named name shape)) : a.name x = .ok name := by
  simp only [Arena.name, reach, room, Option.map_none, Option.getD_none, nameWithin, hg]

theorem length_pointer {target : TypeId} {size : Int}
    (hg : a.get? x = some (.pointer target size)) : a.length x = size := by
  simp only [length, lengthWithin, hg]

/-- Types that are related resemble each other. -/
def IsResembling (a b : Arena) (R : TypeId → TypeId → Prop) : Prop :=
  ∀ x y, R x y → ∃ t u, a.get? x = some t ∧ b.get? y = some u ∧ t.Resembles R u

namespace IsResembling

variable (ha : a.Sound) (hb : b.Sound) (h : IsResembling a b R)

include ha hb h

theorem name_eq (room : a.room = none) (room' : b.room = none) (hxy : R x y) :
    a.name x = b.name y := by
  -- names are made along links, and those lead to smaller numbers
  induction x using Nat.strongRecOn generalizing y with
  | ind x ih =>
      obtain ⟨t, u, hx, hy, hm⟩ := h x y hxy
      cases hm with
      | @leaf t hl =>
          cases t with
          | named name shape => rw [name_named room hx, name_named room' hy]
          | pointer | array => cases hl
      | @pointer p q size hpq =>
          have hlt : p < x := ha.linked hx p (by simp [TypeObject.links])
          rw [ha.name_pointer room hx, hb.name_pointer room' hy, ih p hlt hpq]
      | @array p q count hpq =>
          have hlt : p < x := ha.linked hx p (by simp [TypeObject.links])
          rw [ha.name_array room hx, hb.name_array room' hy, ih p hlt hpq]
      | signature | composite => rw [name_named room hx, name_named room' hy]

theorem length_eq (hxy : R x y) : a.length x = b.length y := by
  induction x using Nat.strongRecOn generalizing y with
  | ind x ih =>
      obtain ⟨t, u, hx, hy, hm⟩ := h x y hxy
      cases hm with
      | @leaf t hl =>
          cases t with
          | named name shape => simp only [length, lengthWithin, hx, hy]
          | pointer | array => cases hl
      | pointer => rw [length_pointer hx, length_pointer hy]
      | @array p q count hpq =>
          have hlt : p < x := ha.linked hx p (by simp [TypeObject.links])
          rw [ha.length_array hx, hb.length_array hy, ih p hlt hpq]
      | signature => simp only [length, lengthWithin, hx, hy]
      | composite _ size => simp only [length, lengthWithin, hx, hy, size]

end IsResembling

end Arena

/-! ## Matching types -/

structure Component.Matches (R : TypeId → TypeId → Prop) (m n : Component) : Prop where
  offset : m.offset = n.offset
  type : R m.type n.type
  length : m.length = n.length
  name : m.name = n.name
  bitSize : m.bitSize = n.bitSize
  bitOffset : m.bitOffset = n.bitOffset

structure Composite.Matches (R : TypeId → TypeId → Prop) (c c' : Composite) : Prop where
  kind : c.kind = c'.kind
  size : c.size = c'.size
  components : List.Forall₂ (Component.Matches R) c.components c'.components

/-- The types are the same but for what they lead to, and that is related. -/
inductive TypeObject.Matches (R : TypeId → TypeId → Prop) : TypeObject → TypeObject → Prop where
  | leaf {t : TypeObject} (leads : t.leads = []) : Matches R t t
  | pointer {x y : TypeId} {size : Int} (target : R x y) :
      Matches R (.pointer x size) (.pointer y size)
  | array {x y : TypeId} {count : Int} (element : R x y) :
      Matches R (.array x count) (.array y count)
  | signature {name : Json} {x y : TypeId} {xs ys : List TypeId} (returns : R x y)
      (parameters : List.Forall₂ R xs ys) :
      Matches R (.named name (.signature x xs)) (.named name (.signature y ys))
  | composite {name : Json} {c c' : Composite} (composite : c.Matches R c') :
      Matches R (.named name (.composite c)) (.named name (.composite c'))

namespace TypeObject.Matches

variable {t u : TypeObject}

theorem size (h : t.Matches R u) : t.composite?.map (·.size) = u.composite?.map (·.size) := by
  cases h with
  | composite hc => simp only [composite?, Option.map_some, hc.size]
  | _ => rfl

theorem constants (h : t.Matches R u) : Arena.constantsOf t = Arena.constantsOf u := by
  cases h <;> rfl

theorem leads (h : t.Matches R u) : List.Forall₂ R t.leads u.leads := by
  cases h with
  | leaf h =>
      rw [h]
      exact .nil
  | pointer h => exact .cons h .nil
  | array h => exact .cons h .nil
  | signature h hs => exact .cons h hs
  | composite h =>
      simp only [TypeObject.leads, List.forall₂_map_left_iff, List.forall₂_map_right_iff]
      exact h.components.imp fun _ _ hm => hm.type

theorem resembles (h : t.Matches R u) : t.Resembles R u := by
  cases h with
  | @leaf t leads =>
      cases t with
      | named name shape =>
          cases shape with
          | composite c => exact .composite rfl rfl
          | _ => exact .leaf leads rfl
      | _ => exact .leaf leads rfl
  | pointer target => exact .pointer target
  | array element => exact .array element
  | signature returns parameters => exact .signature returns parameters
  | composite hc => exact .composite hc.kind hc.size

theorem kind (h : t.Matches R u) : t.kind = u.kind := h.resembles.kind

end TypeObject.Matches

namespace Arena

variable {a b : Arena} {x y : TypeId}

/-- Types that are related match. -/
def IsMatching (a b : Arena) (R : TypeId → TypeId → Prop) : Prop :=
  ∀ x y, R x y → ∃ t u, a.get? x = some t ∧ b.get? y = some u ∧ t.Matches R u

theorem IsMatching.resembling (h : IsMatching a b R) : IsResembling a b R := fun x y hxy =>
  have ⟨t, u, hx, hy, hm⟩ := h x y hxy
  ⟨t, u, hx, hy, hm.resembles⟩

namespace IsMatching

variable (ha : a.Sound) (hb : b.Sound) (h : IsMatching a b R)

include ha hb h

theorem name_eq (room : a.room = none) (room' : b.room = none) (hxy : R x y) :
    a.name x = b.name y :=
  h.resembling.name_eq ha hb room room' hxy

theorem length_eq (hxy : R x y) : a.length x = b.length y :=
  h.resembling.length_eq ha hb hxy

theorem components_eq (room : a.room = none) (room' : b.room = none) {t u : TypeObject}
    (hm : t.Matches R u) : a.componentsOf t = b.componentsOf u := by
  have signature {m n : Component} (hmn : m.Matches R n) : a.signature m = b.signature n := by
    simp only [Arena.signature, h.name_eq ha hb room room' hmn.type, hmn.offset, hmn.length,
      hmn.name, hmn.bitSize, hmn.bitOffset]
  cases hm with
  | @leaf t hl =>
      cases t with
      | named name shape =>
          cases shape with
          | composite c =>
              obtain ⟨_, _, components⟩ := c
              obtain rfl : components = [] := List.map_eq_nil_iff.mp hl
              rfl
          | _ => rfl
      | _ => rfl
  | composite hc => exact mapM_congr hc.components fun m _ n _ hmn => signature hmn
  | _ => rfl

theorem portrait_eq (room : a.room = none) (room' : b.room = none) (hxy : R x y) :
    a.portrait x = b.portrait y := by
  obtain ⟨t, u, hx, hy, hm⟩ := h x y hxy
  simp only [portrait, hx, hy, Option.map_some, hm.kind, hm.size, hm.constants,
    h.name_eq ha hb room room' hxy, h.length_eq ha hb hxy, h.components_eq ha hb room room' hm]

/-- Related types are alike. -/
theorem alike (room : a.room = none) (room' : b.room = none) (hxy : R x y) :
    a.Alike b x y := by
  intro path
  induction path generalizing x y with
  | nil => exact h.portrait_eq ha hb room room' hxy
  | cons i path ih =>
      obtain ⟨t, u, hx, hy, hm⟩ := h x y hxy
      have hlen := hm.leads.length_eq
      simp only [follow, hx, hy, Option.bind_some]
      by_cases hi : i < t.leads.length
      · rw [List.getElem?_eq_getElem hi, List.getElem?_eq_getElem (hlen ▸ hi)]
        exact ih (hm.leads.get hi (hlen ▸ hi))
      · have hi : t.leads.length ≤ i := Nat.le_of_not_lt hi
        rw [List.getElem?_eq_none_iff.mpr hi, List.getElem?_eq_none_iff.mpr (hlen ▸ hi)]
        rfl

end IsMatching

end Arena

/-! ## Matching placements -/

namespace Composite

variable {c c' : Composite} {x y : TypeId}

theorem insertSorted_matches {m n : Component} (hmn : m.Matches R n) {ms ns : List Component}
    (h : List.Forall₂ (Component.Matches R) ms ns) :
    List.Forall₂ (Component.Matches R) (insertSorted m ms) (insertSorted n ns) := by
  induction h with
  | nil => exact .cons hmn .nil
  | @cons p q ps qs hpq hrest ih =>
      have hb : comesBefore m p = comesBefore n q := by
        simp only [comesBefore, hmn.offset, hmn.bitOffset, hpq.offset, hpq.bitOffset]
      simp only [insertSorted, hb]
      split
      · exact .cons hmn (.cons hpq hrest)
      · exact .cons hpq ih

theorem filter_matches {p : Component → Bool}
    (hp : ∀ {m n}, Component.Matches R m n → p m = p n) {ms ns : List Component}
    (h : List.Forall₂ (Component.Matches R) ms ns) :
    List.Forall₂ (Component.Matches R) (ms.filter p) (ns.filter p) := by
  induction h with
  | nil => exact .nil
  | @cons m n ms ns hmn _ ih =>
      simp only [List.filter_cons, hp hmn]
      split
      · exact .cons hmn ih
      · exact ih

variable {p : Component → Bool} {m n : Component}

theorem Matches.insert (h : c.Matches R c')
    (hp : ∀ {m n}, Component.Matches R m n → p m = p n) (hmn : m.Matches R n) :
    ({ c with components := c.components.filter p }.insert m).Matches R
      ({ c' with components := c'.components.filter p }.insert n) where
  kind := h.kind
  size := by simp only [Composite.insert, Component.stop, h.size, hmn.offset, hmn.length]
  components := insertSorted_matches hmn (filter_matches hp h.components)

theorem placeMember_matches (h : c.Matches R c') (hxy : R x y) (offset length : Int) (name : Json) :
    (c.orElse (c.placeMember offset x length name)).Matches R
      (c'.orElse (c'.placeMember offset y length name)) := by
  unfold placeMember
  by_cases ho : offset < 0
  · simp only [if_pos ho]
    exact h
  · by_cases hl : length ≤ 0
    · simp only [if_neg ho, if_pos hl]
      exact h
    · simp only [if_neg ho, if_neg hl]
      refine h.insert (fun hmn => ?_) ⟨rfl, hxy, rfl, rfl, rfl, rfl⟩
      simp only [overlaps, Component.stop, hmn.offset, hmn.length]
      rfl

theorem placeBits_matches (h : c.Matches R c') (hxy : R x y) (offset width bitOffset bitSize : Int)
    (name : Json) :
    (c.orElse (c.placeBits offset width bitOffset x bitSize name)).Matches R
      (c'.orElse (c'.placeBits offset width bitOffset y bitSize name)) := by
  unfold placeBits
  by_cases hw : (decide (bitSize ≤ 0) || decide (width ≤ 0)) = true
  · simp only [if_pos hw]
    exact h
  · simp only [if_neg hw]
    refine h.insert (fun hmn => ?_) ⟨rfl, hxy, rfl, rfl, rfl, rfl⟩
    simp only [startsAtBit, Component.isBitField, hmn.offset, hmn.bitSize, hmn.bitOffset]

theorem addAlternative_matches (h : c.Matches R c') (hxy : R x y) (length : Int) (name : Json) :
    (c.orElse (c.addAlternative x length name)).Matches R
      (c'.orElse (c'.addAlternative y length name)) := by
  have new : Component.Matches R { offset := 0, type := x, length, name }
      { offset := 0, type := y, length, name } := ⟨rfl, hxy, rfl, rfl, rfl, rfl⟩
  unfold addAlternative
  by_cases hl : length ≤ 0
  · simp only [if_pos hl]
    exact h
  · simp only [if_neg hl]
    refine ⟨h.kind, by simp only [orElse, h.size], List.rel_append ?_ (.cons new .nil)⟩
    split
    · exact h.components
    · refine filter_matches (fun hmn => ?_) h.components
      simp only [hmn.name]

end Composite

namespace Import

open Document (Node Base Variable)

/-- Placing the same member keeps composites matched. -/
theorem Member.place_matches {c c' : Composite} {x y : TypeId} (h : c.Matches R c') (hxy : R x y)
    (e : Extent) (m : Member) : (m.place c x e).Matches R (m.place c' y e) := by
  have place_eq (c : Composite) (x : TypeId) : m.place c x e = c.orElse (m.place? c x e) := by
    unfold place
    cases m.place? c x e <;> rfl
  rw [place_eq, place_eq]
  unfold place?
  rw [← h.kind]
  cases c.kind with
  | union => exact Composite.addAlternative_matches h hxy _ _
  | record =>
      cases m with
      | bits => exact Composite.placeBits_matches h hxy _ _ _ _ _
      | base | field => exact Composite.placeMember_matches h hxy _ _ _

end Import

end StabsImport

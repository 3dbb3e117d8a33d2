import StabsImport.Proofs.Operations

/-!
# Placing members

What becomes of a session when a member is placed in a composite. Whether the member fits or is
refused, the composite is what `Member.place` makes of it, and nothing else changes but for types
that are added.
-/

namespace StabsImport.Import

open Document (Node)

variable {L : Scope} {s s' : Session} {bad : Fault → Session → Prop}

/-- What a session is with another composite in the place of one. -/
def Session.withComposite (s : Session) (id : TypeId) (name : Json) (c : Composite) : Session :=
  { s with
    program := { s.program with arena := s.program.arena.set id (.named name (.composite c)) } }

theorem Session.withComposite_self {id : TypeId} {name : Json} {c : Composite}
    (h : s.program.arena.get? id = some (.named name (.composite c))) :
    s.withComposite id name c = s := by
  simp only [withComposite, Arena.set_eq_self h]

/-- The type is a composite of a kind. -/
def Session.IsComposite (s : Session) (id : TypeId) (kind : CompositeKind) : Prop :=
  ∃ name c, s.program.arena.get? id = some (.named name (.composite c)) ∧ c.kind = kind

theorem Extends.isComposite (h : Extends L s s') {id : TypeId} {kind : CompositeKind} :
    s.IsComposite id kind → s'.IsComposite id kind := by
  rintro ⟨name, c, hid, rfl⟩
  obtain ⟨t', hg, rfl | ⟨_, _, c', heq, rfl, hk, _⟩⟩ := h.evolves hid
  · exact ⟨name, c, hg, rfl⟩
  · cases heq
    exact ⟨name, c', hg, hk⟩

/-- A member of this type was put into the composite, or refused. What was put is what stands for
the type in the place of a member. -/
def Puts (m : Member) (shell own : TypeId) (s s' : Session) : Prop :=
  ∀ name c, s.program.arena.get? shell = some (.named name (.composite c)) →
    ∃ id t, Gains s t ∧
      t.all.StandsFor (s.program.arena.extent own) (m.placed (s.program.arena.extent own)) own id ∧
      s' = t.withComposite shell name (m.place c id (m.placed (s.program.arena.extent own)))

/-- A member without a length is refused. -/
theorem Member.place_of_length_nonpos {m : Member} {e : Extent} (h : m.length e ≤ 0)
    (c : Composite) (type : TypeId) : m.place c type e = c := by
  unfold place
  rcases m.place?_cases c type e with ⟨_, hp, _⟩ | ⟨c', hp, _⟩
  · rw [hp]
  · simp only [place?] at hp
    split at hp
    · simp only [Composite.placeBits, h, decide_true, Bool.or_true, if_true] at hp
      cases hp
    · simp only [Composite.placeMember, if_pos h] at hp
      split at hp <;> cases hp
    · simp only [Composite.addAlternative, if_pos h] at hp
      cases hp

namespace Session.Sound

/-- Placing a type for a member in a composite of the kind that takes it. -/
theorem editComposite (hs : s.Sound) {shell type : TypeId} {name : Json} {c : Composite}
    (hc : s.program.arena.get? shell = some (.named name (.composite c)))
    (ht : type < s.program.arena.size) {f : Composite → Except Rejection Composite}
    (hf : IsPlacement type f) {m : Member} {e : Extent} (heq : m.place? c type e = f c) :
    Yields L (edit (Program.editComposite c.kind shell f)) s
      (fun _ s' => s' = s.withComposite shell name (m.place c type e))
      fun e' s' => e'.isTypeFault = true ∧ s' = s.withComposite shell name (m.place c type e) := by
  simp only [Yields, runs_edit, Program.editComposite, Runs.bind_iff, Runs.get_iff, hc,
    ne_eq, not_true_eq_false, if_false, Program.runs_ofExcept, Program.setType, Runs.modify_iff,
    Member.place, heq]
  cases hp : f c with
  | error cause =>
      refine ⟨.refl hs, ?_, ?_⟩
      · simp [Fault.isTypeFault, hf.refusal hp]
      · exact (withComposite_self hc).symm
  | ok c' =>
      refine ⟨.setComposite hs hc (hf.kind hp) (hf.size hp) fun m hm => ?_, rfl⟩
      rcases hf.components hp m hm with hm | rfl
      · exact hs.program.arena.placed hc m hm
      · exact ht

theorem kindOf? (hs : s.Sound) {shell : TypeId} {name : Json} {c : Composite}
    (hc : s.program.arena.get? shell = some (.named name (.composite c))) :
    Yields L (edit (Program.kindOf? shell)) s (fun k s' => k = some c.kind ∧ s' = s) bad := by
  have heq : s.program.arena.composite? shell = some c :=
    Arena.composite?_eq_some.mpr ⟨name, hc⟩
  refine ⟨.refl hs, ?_, rfl⟩
  simp [heq]

theorem placeBase (hs : s.Sound) {shell type : TypeId} (hc : s.IsComposite shell .record)
    (ht : type < s.program.arena.size) (index : Nat) (offset : Int) (node : Node) :
    Yields L (placeBase shell index offset type) s
      (fun _ s' => Puts (.base index offset node) shell type s s')
      fun e s' => e.isTypeFault = true ∧ Puts (.base index offset node) shell type s s' := by
  obtain ⟨name, c, hc, hk⟩ := hc
  have puts {t : Session} (h : t = s.withComposite shell name
      ((Member.base index offset node).place c type (s.program.arena.extent type))) :
      Puts (.base index offset node) shell type s t := by
    intro name' c' hc'
    rw [hc] at hc'
    cases hc'
    exact ⟨type, s, .refl s, .refl _ _ _, h⟩
  refine (hs.typeLength type).bind ?_
  rintro _ t - ⟨rfl, rfl⟩
  have heq : (Member.base index offset node).place? c type (t.program.arena.extent type) =
      c.placeMember offset type (t.program.arena.length type) (.text s!"base_{index}") := by
    simp only [Member.place?, hk, Member.length, Arena.length_extent, Member.offset, Member.name]
  have h := hs.editComposite (L := L) hc ht (isPlacement_placeMember offset type _ _) heq
  rw [hk] at h
  exact h.mono (fun _ _ _ h => puts h) fun _ _ _ h => ⟨h.1, puts h.2⟩

theorem placeBitField (hs : s.Sound) {shell type : TypeId} {kind : CompositeKind}
    (hc : s.IsComposite shell kind) (index : Nat) (common : Document.Common) (offsetBits : Int)
    (underlying : Node) :
    Yields L (placeBitField shell (.bitField common offsetBits underlying) offsetBits
        (fieldName (.bitField common offsetBits underlying) index) type) s
      (fun _ s' => Puts (.bits index common offsetBits underlying) shell type s s')
      fun e s' => e.isTypeFault = true ∧
        Puts (.bits index common offsetBits underlying) shell type s s' := by
  obtain ⟨name, c, hc, hk⟩ := hc
  refine (hs.sizedType type).bind ?_
  rintro sized t ha ⟨hg, hstands, hext⟩
  have hc' := hg.kept hc
  have hlength : t.program.arena.length sized = (s.program.arena.extent type).sized.length := by
    rw [← hext, Arena.length_extent]
  have hlt : sized < t.program.arena.size := by
    refine Arena.lt_size_of_length_pos ?_
    rw [hlength]
    exact Extent.length_sized_pos _
  have puts {u : Session} (h : u = t.withComposite shell name
      ((Member.bits index common offsetBits underlying).place c sized
        (s.program.arena.extent type).sized)) :
      Puts (.bits index common offsetBits underlying) shell type s u := by
    intro name' c' hc'
    rw [hc] at hc'
    cases hc'
    exact ⟨sized, t, hg, hstands, h⟩
  refine (ha.sound.typeLength sized).bind ?_
  rintro _ u - ⟨rfl, rfl⟩
  refine (ha.sound.kindOf? hc').bind ?_
  rintro _ v - ⟨rfl, rfl⟩
  cases hkind : c.kind with
  | record =>
      have heq : (Member.bits index common offsetBits underlying).place? c sized
          (s.program.arena.extent type).sized = c.placeBits (max common.relativeOffset 0)
            (v.program.arena.length sized) offsetBits sized common.sizeBits
            (fieldName (.bitField common offsetBits underlying) index) := by
        simp only [Member.place?, hkind, Member.length, hlength, Member.offset, Member.name]
      have h := ha.sound.editComposite (L := L) hc' hlt (isPlacement_placeBits _ _ _ sized _ _) heq
      rw [hkind] at h
      exact h.mono (fun _ _ _ h => puts h) fun _ _ _ h => ⟨h.1, puts h.2⟩
  | union =>
      have heq : (Member.bits index common offsetBits underlying).place? c sized
          (s.program.arena.extent type).sized = c.addAlternative sized
            (v.program.arena.length sized)
            (fieldName (.bitField common offsetBits underlying) index) := by
        simp only [Member.place?, hkind, Member.length, hlength, Member.name]
      have h := ha.sound.editComposite (L := L) hc' hlt (isPlacement_addAlternative sized _ _) heq
      rw [hkind] at h
      exact h.mono (fun _ _ _ h => puts h) fun _ _ _ h => ⟨h.1, puts h.2⟩

end Session.Sound

/-- The length a member takes up in a composite. -/
def memberLength (a : Arena) (field : Node) (type : TypeId) : Int :=
  if a.isZeroLength type && field.sizeBits > 0 then field.sizeBits / 8 else a.length type

theorem memberLength_eq (a : Arena) (index : Nat) (field : Node) (type : TypeId) :
    memberLength a field type = (Member.field index field).length (a.extent type) := by
  simp only [memberLength, Member.length, Arena.isEmpty_extent, Arena.length_extent]

/-- Places a member that is not void. -/
def placeSolid (shell : TypeId) (field : Node) (name : Json) (type : TypeId) : ImportM Unit := do
  let length := memberLength (← get).program.arena field type
  if length ≤ 0 then throw (.rejected (.typeWithoutSize (← typeName type)))
  match ← edit (Program.kindOf? shell) with
  | some .record => edit (Program.placeMember shell (max field.relativeOffset 0) type length name)
  | _ => edit (Program.addAlternative shell type length name)

theorem placeField_eq (shell : TypeId) (field : Node) (name : Json) (type : TypeId) :
    placeField shell field name type = (do
      let type ← (do if ← isVoid type then undefined1 else pure type)
      placeSolid shell field name type) := by
  simp only [placeField, bind_assoc]
  congr
  funext b
  cases b <;> rfl

namespace Session.Sound

/-- The type that stands for a member is not void. -/
theorem solidType (hs : s.Sound) {type : TypeId} (ht : type < s.program.arena.size) :
    Yields L (do if ← Import.isVoid type then Import.undefined1 else pure type) s
      (fun id s' => id < s'.program.arena.size ∧ Gains s s' ∧
        s'.all.StandsFor (s.program.arena.extent type) (s.program.arena.extent type).solid type id ∧
        s'.program.arena.extent id = (s.program.arena.extent type).solid) bad := by
  refine (hs.isVoid type).bind ?_
  rintro b t - ⟨rfl, hb⟩
  have hsolid := (t.program.arena.extent type).solid_eq_iff
  cases b with
  | false =>
      have he := hsolid.mpr fun h => Bool.noConfusion (hb.mpr h)
      refine .pure hs ⟨ht, .refl t, ?_, he.symm⟩
      rw [View.StandsFor, if_pos he]
  | true =>
      have hv := hb.mp rfl
      refine (hs.undefined1.gains_ok .undefined1).mono ?_ fun _ _ _ h => h
      rintro _ _ - ⟨hg, rfl, rfl⟩
      have hu := get?_push t (.undefinedOf 1)
      refine ⟨Arena.lt_size_of_get? hu, hg, ?_, ?_⟩
      · rw [View.StandsFor, if_neg fun he => hsolid.mp he hv]
        exact hu
      · rw [extent_undefinedOf hu, Extent.solid, if_pos hv]

theorem placeSolid (hs : s.Sound) {shell type : TypeId} {name : Json} {c : Composite}
    (hc : s.program.arena.get? shell = some (.named name (.composite c)))
    (ht : type < s.program.arena.size) (index : Nat) (field : Node) :
    Yields L (placeSolid shell field (fieldName field index) type) s
      (fun _ s' => s' = s.withComposite shell name
        ((Member.field index field).place c type (s.program.arena.extent type)))
      fun e s' => e.isTypeFault = true ∧ s' = s.withComposite shell name
        ((Member.field index field).place c type (s.program.arena.extent type)) := by
  have hlength := memberLength_eq s.program.arena index field type
  refine Yields.get ?_
  dsimp only
  split
  · next hl =>
      refine (hs.typeName type).bind ?_
      rintro shown t - ⟨rfl, -⟩
      refine Yields.throw hs ⟨rfl, ?_⟩
      rw [Member.place_of_length_nonpos (hlength ▸ hl), withComposite_self hc]
  · refine (hs.kindOf? hc).bind ?_
    rintro _ t - ⟨rfl, rfl⟩
    cases hkind : c.kind with
    | record =>
        have heq : (Member.field index field).place? c type (t.program.arena.extent type) =
            c.placeMember (max field.relativeOffset 0) type
              (memberLength t.program.arena field type) (fieldName field index) := by
          simp only [Member.place?, hkind, hlength, Member.offset, Member.name]
        have h := hs.editComposite (L := L) hc ht (isPlacement_placeMember _ type _ _) heq
        rwa [hkind] at h
    | union =>
        have heq : (Member.field index field).place? c type (t.program.arena.extent type) =
            c.addAlternative type (memberLength t.program.arena field type)
              (fieldName field index) := by
          simp only [Member.place?, hkind, hlength, Member.name]
        have h := hs.editComposite (L := L) hc ht (isPlacement_addAlternative type _ _) heq
        rwa [hkind] at h

theorem placeField (hs : s.Sound) {shell type : TypeId} {kind : CompositeKind}
    (hc : s.IsComposite shell kind) (ht : type < s.program.arena.size) (index : Nat)
    (field : Node) :
    Yields L (placeField shell field (fieldName field index) type) s
      (fun _ s' => Puts (.field index field) shell type s s')
      fun e s' => e.isTypeFault = true ∧ Puts (.field index field) shell type s s' := by
  obtain ⟨name, c, hc, -⟩ := hc
  rw [placeField_eq]
  refine (hs.solidType ht).bind ?_
  rintro id t ha ⟨hlt, hg, hstands, hext⟩
  have puts {u : Session} (h : u = t.withComposite shell name
      ((Member.field index field).place c id (t.program.arena.extent id))) :
      Puts (.field index field) shell type s u := by
    intro name' c' hc'
    rw [hc] at hc'
    cases hc'
    rw [hext] at h
    exact ⟨id, t, hg, hstands, h⟩
  exact (ha.sound.placeSolid (hg.kept hc) hlt index field).mono (fun _ _ _ h => puts h)
    fun _ _ _ h => ⟨h.1, puts h.2⟩

end Session.Sound

end StabsImport.Import

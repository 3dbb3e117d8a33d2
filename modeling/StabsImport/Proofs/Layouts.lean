import StabsImport.Proofs.Cycles
import StabsImport.Proofs.Frames

/-!
# Well-formed structures

A structure whose members lie apart from one another comes out as it is described, as long as no
member is placed where an earlier bit field has its storage unit, no storage unit reaches past the
end, and the shell is left alone while the types of the members are made. Placing a member displaces
whatever lies where it is put, and what a bit field takes up there is its storage unit and not its
bits.
-/

namespace StabsImport

namespace Component

/-- The first bit that a member takes up. -/
def firstBit (c : Component) : Int :=
  if c.isBitField then 8 * c.offset + c.bitOffset else 8 * c.offset

/-- The first bit after those that a member takes up. -/
def stopBit (c : Component) : Int := if c.isBitField then c.firstBit + c.bitSize else 8 * c.stop

/-- The members have no bit in common. -/
def Apart (c d : Component) : Prop := c.stopBit ≤ d.firstBit ∨ d.stopBit ≤ c.firstBit

instance (c d : Component) : Decidable (c.Apart d) :=
  inferInstanceAs (Decidable (_ ∨ _))

/-- The second member is not put where the first, a bit field, has its storage unit. Two bit fields
may share theirs. -/
def Spares (c d : Component) : Prop :=
  c.isBitField = true → d.isBitField = false → Composite.overlaps d.offset d.length c = false

variable {c d : Component}

/-- A member that is no bit field is put where no other lies. -/
theorem Apart.not_overlaps (h : d.Apart c) (spares : d.Spares c) (plain : c.isBitField = false) :
    Composite.overlaps c.offset c.length d = false := by
  cases hd : d.isBitField with
  | true => exact spares hd plain
  | false =>
      simp only [Apart, stopBit, firstBit, plain, hd, Bool.false_eq_true, if_false, stop] at h
      have hor : d.offset + d.length ≤ c.offset ∨ c.offset + c.length ≤ d.offset := by omega
      rw [Composite.overlaps, Bool.not_eq_false', Bool.or_eq_true, decide_eq_true_iff,
        decide_eq_true_iff]
      exact hor

/-- Bit fields that start at the same bit have it in common. -/
theorem Apart.not_startsAtBit (h : d.Apart c) (bits : c.isBitField = true) :
    Composite.startsAtBit c.offset c.bitOffset d = false := by
  rw [Bool.eq_false_iff]
  intro hs
  simp only [Composite.startsAtBit, Bool.and_eq_true, beq_iff_eq] at hs
  obtain ⟨⟨hd, ho⟩, hb⟩ := hs
  have hc : 0 < c.bitSize := by simpa [isBitField] using bits
  have hd' : 0 < d.bitSize := by simpa [isBitField] using hd
  simp only [Apart, stopBit, firstBit, bits, hd, if_true, ho, hb] at h
  omega

end Component

/-- The members of a structure of so many bytes lie apart inside of it. -/
structure LieApart (n : Int) (members : List Component) : Prop where
  offset : ∀ c ∈ members, 0 ≤ c.offset
  start : ∀ c ∈ members, 0 ≤ c.bitOffset
  length : ∀ c ∈ members, 0 < c.length
  stop : ∀ c ∈ members, c.stopBit ≤ 8 * n
  apart : members.Pairwise Component.Apart

/-- Their storage units lie inside, too, and those of bit fields are spared by what is placed
later. -/
structure UnitsFit (n : Int) (members : List Component) : Prop where
  stop : ∀ c ∈ members, c.stop ≤ n
  spares : members.Pairwise Component.Spares

theorem LieApart.tail {n : Int} {slot : Component} {slots : List Component}
    (h : LieApart n (slot :: slots)) : LieApart n slots where
  offset d hd := h.offset d (List.mem_cons_of_mem _ hd)
  start d hd := h.start d (List.mem_cons_of_mem _ hd)
  length d hd := h.length d (List.mem_cons_of_mem _ hd)
  stop d hd := h.stop d (List.mem_cons_of_mem _ hd)
  apart := h.apart.of_cons

theorem UnitsFit.tail {n : Int} {slot : Component} {slots : List Component}
    (h : UnitsFit n (slot :: slots)) : UnitsFit n slots where
  stop d hd := h.stop d (List.mem_cons_of_mem _ hd)
  spares := h.spares.of_cons

namespace Composite

/-- A composite from which nothing is displaced. -/
theorem filter_eq_self (s : Composite) {displaces : Component → Bool}
    (h : ∀ d ∈ s.components, displaces d = false) :
    { s with components := s.components.filter fun d => !displaces d } = s := by
  have hall : s.components.filter (fun d => !displaces d) = s.components :=
    List.filter_eq_self.mpr fun d hd => by rw [h d hd]; rfl
  rw [hall]

theorem placeMember_of_spare {s : Composite} {offset length : Int} (hoffset : 0 ≤ offset)
    (hlength : 0 < length) (spare : ∀ d ∈ s.components, overlaps offset length d = false)
    (type : TypeId) (name : Json) :
    s.placeMember offset type length name = .ok (s.insert { offset, type, length, name }) := by
  rw [placeMember, if_neg (Int.not_lt.mpr hoffset), if_neg (Int.not_le.mpr hlength)]
  simp only [s.filter_eq_self spare]

theorem placeBits_of_spare {s : Composite} {offset width bitOffset bitSize : Int}
    (hwidth : 0 < width) (hsize : 0 < bitSize)
    (spare : ∀ d ∈ s.components, startsAtBit offset bitOffset d = false) (type : TypeId)
    (name : Json) :
    s.placeBits offset width bitOffset type bitSize name =
      .ok (s.insert { offset, type, length := width, name, bitSize, bitOffset }) := by
  have hok : ¬ (decide (bitSize ≤ 0) || decide (width ≤ 0)) = true := by
    simp only [Bool.or_eq_true, decide_eq_true_eq]
    omega
  rw [placeBits, if_neg hok]
  simp only [s.filter_eq_self spare]

end Composite

namespace Import

open Document (Node)

variable {s t : Session} {shell type : TypeId} {owner : Json} {c c' : Composite} {index : Nat}

namespace Member

/-- What is to stand in a structure for a member of this type that takes up so many bytes. -/
def slot (type : TypeId) (length : Int) : Member → Component
  | base index offset _ => { offset, type, length, name := .text s!"base_{index}" }
  | bits index c offsetBits underlying =>
      { offset := c.relativeOffset, type, length
        name := fieldName (.bitField c offsetBits underlying) index
        bitSize := c.sizeBits, bitOffset := offsetBits }
  | field index node =>
      { offset := node.relativeOffset, type, length, name := fieldName node index }

@[simp] theorem slot_type (m : Member) (type : TypeId) (length : Int) :
    (m.slot type length).type = type := by
  cases m <;> rfl

@[simp] theorem slot_length (m : Member) (type : TypeId) (length : Int) :
    (m.slot type length).length = length := by
  cases m <;> rfl

/-- A bit field takes up some bits. -/
def IsSized : Member → Prop
  | bits _ c .. => 0 < c.sizeBits
  | _ => True

/-- A member that lies apart from all others takes its place beside them. -/
theorem place?_of_apart {m : Member} {e : Extent} (record : c.kind = .record) (sized : m.IsSized)
    (offset : 0 ≤ (m.slot type (m.length e)).offset) (length : 0 < m.length e)
    (apart : ∀ d ∈ c.components, d.Apart (m.slot type (m.length e)))
    (spares : ∀ d ∈ c.components, d.Spares (m.slot type (m.length e))) :
    m.place? c type e = .ok (c.insert (m.slot type (m.length e))) := by
  cases m with
  | base index offset' node =>
      simp only [place?, record, Member.offset, name]
      exact Composite.placeMember_of_spare offset length
        (fun d hd => (apart d hd).not_overlaps (spares d hd) rfl) type _
  | bits index common offsetBits underlying =>
      have hbits : ((bits index common offsetBits underlying).slot type
          ((bits index common offsetBits underlying).length e)).isBitField = true :=
        decide_eq_true sized
      have hoffset : 0 ≤ common.relativeOffset := offset
      simp only [place?, record, Member.offset, name, Int.max_eq_left hoffset]
      exact Composite.placeBits_of_spare length sized
        (fun d hd => (apart d hd).not_startsAtBit hbits) type _
  | field index node =>
      have hoffset : 0 ≤ node.relativeOffset := offset
      simp only [place?, record, Member.offset, name, Int.max_eq_left hoffset]
      exact Composite.placeMember_of_spare offset length
        (fun d hd => (apart d hd).not_overlaps (spares d hd) rfl) type _

end Member

/-! ## Placing what fits -/

theorem editComposite_apply {kind : CompositeKind} {f : Composite → Except Rejection Composite}
    (hshell : s.program.arena.get? shell = some (.named owner (.composite c)))
    (hkind : c.kind = kind) (hf : f c = .ok c') :
    edit (Program.editComposite kind shell f) s = (.ok (), s.withComposite shell owner c') := by
  refine Runs.eq_ok ?_
  simp only [runs_edit, Program.editComposite, Runs.bind_iff, Runs.get_iff, hshell, hkind, ne_eq,
    not_true_eq_false, if_false, Program.runs_ofExcept, hf, Program.setType, Runs.modify_iff]
  exact ⟨trivial, rfl⟩

theorem kindOf?_apply (hshell : s.program.arena.get? shell = some (.named owner (.composite c))) :
    edit (Program.kindOf? shell) s = (.ok (some c.kind), s) := by
  have heq : s.program.arena.composite? shell = some c :=
    Arena.composite?_eq_some.mpr ⟨owner, hshell⟩
  refine Runs.eq_ok ?_
  simp only [runs_edit, Program.kindOf?, Runs.bind_iff, Runs.get_iff, heq]
  exact ⟨rfl, rfl⟩

theorem placeBitField_apply
    (hshell : s.program.arena.get? shell = some (.named owner (.composite c)))
    (record : c.kind = .record) (long : 0 < s.program.arena.length type)
    {common : Document.Common} {offsetBits : Int} {underlying : Node}
    (fits : (Member.bits index common offsetBits underlying).place? c type
      (s.program.arena.extent type) = .ok c') :
    placeBitField shell (.bitField common offsetBits underlying) offsetBits
      (fieldName (.bitField common offsetBits underlying) index) type s =
        (.ok (), s.withComposite shell owner c') := by
  have hsized : edit (Program.sizedType (some type)) s = (.ok type, s) := by
    rw [edit_sizedType, if_neg (Int.not_le.mpr long)]
  simp only [Member.place?, record, Member.length, Arena.length_extent] at fits
  refine Runs.eq_ok ?_
  rw [placeBitField, Runs.bind_iff]
  refine Runs.of_eq hsized ?_
  rw [Runs.bind_iff]
  refine Runs.of_eq (a := s.program.arena.length type) rfl ?_
  rw [Runs.bind_iff]
  refine Runs.of_eq (kindOf?_apply hshell) ?_
  rw [record]
  exact Runs.of_eq (editComposite_apply hshell record fits) ⟨rfl, rfl⟩

theorem placeField_apply (hs : s.Sound)
    (hshell : s.program.arena.get? shell = some (.named owner (.composite c)))
    (record : c.kind = .record) (long : 0 < s.program.arena.length type) {field : Node}
    (room : 0 < (Member.field index field).length (s.program.arena.extent type))
    (fits : (Member.field index field).place? c type (s.program.arena.extent type) = .ok c') :
    placeField shell field (fieldName field index) type s =
      (.ok (), s.withComposite shell owner c') := by
  have hsolid : isVoid type s = (.ok false, s) := by
    have hvoid : Yields { cuts := True } (isVoid type) s _ NoFault := hs.isVoid type
    obtain ⟨b, t, hrun, -, rfl, hb⟩ := hvoid.exists_ok
    cases b with
    | false => exact hrun
    | true =>
        have hl := Arena.length_extent t.program.arena type
        rw [hb.mp rfl] at hl
        exact absurd hl (Int.ne_of_lt long)
  simp only [Member.place?, record, ← memberLength_eq] at fits
  rw [← memberLength_eq] at room
  refine Runs.eq_ok ?_
  rw [placeField_eq, Runs.bind_iff, Runs.bind_iff]
  refine Runs.of_eq hsolid ?_
  simp only [Bool.false_eq_true, if_false, Runs.pure_iff]
  rw [placeSolid, Runs.bind_iff, Runs.get_iff, if_neg (Int.not_le.mpr room), Runs.bind_iff]
  refine Runs.of_eq (kindOf?_apply hshell) ?_
  rw [record]
  exact Runs.of_eq (editComposite_apply hshell record fits) ⟨trivial, rfl⟩

/-! ## Filling -/

/-- Makes the type of a member. -/
def Member.resolve (owner : Json) (m : Member) : ImportM TypeId :=
  createType typeAt m.node (m.hint owner)

theorem Member.isName_hint (owner : Json) (m : Member) : (m.hint owner).IsName := by
  cases m with
  | field => exact .inr ⟨_, rfl⟩
  | _ => exact .inl rfl

theorem wellTyped_fieldMember {field : Node} (h : field.WellTyped) (index : Nat) :
    (fieldMember index field).node.WellTyped := by
  cases field with
  | bitField c offsetBits underlying => exact h.part (List.mem_singleton_self underlying)
  | _ => exact h

/-- The first field is placed, and then the others. -/
theorem fillFields_cons (enter : Int → ImportM TypeId) (shell : TypeId) (index : Nat) (field : Node)
    (fields : List Node) :
    fillFields enter shell index (field :: fields) = (do
      fillFields enter shell index [field]
      fillFields enter shell (index + 1) fields) := by
  rcases field.isBitField_or with ⟨c, offsetBits, underlying, rfl⟩ | hb
  · simp only [fillFields, bind_assoc, pure_bind]
  · rw [fillFields.eq_3 _ _ _ _ _ hb, fillFields.eq_3 _ _ _ _ _ hb]
    simp only [fillFields_nil, bind_assoc, pure_bind]

/-- A field whose type can be made and placed leaves nothing else behind. -/
theorem fillFields_singleton (hs : s.Sound) (hr : s.room = none) (ht : t.Sound)
    (hroom : t.room = none) {field : Node} {start : Composite}
    (hstart : s.program.arena.get? shell = some (.named owner (.composite start)))
    (hshell : t.program.arena.get? shell = some (.named owner (.composite c)))
    (record : c.kind = .record)
    (made : (fieldMember index field).resolve owner s = (.ok type, t))
    (long : 0 < t.program.arena.length type)
    (room : 0 < (fieldMember index field).length (t.program.arena.extent type))
    (fits : (fieldMember index field).place? c type (t.program.arena.extent type) = .ok c') :
    fillFields typeAt shell index [field] s = (.ok (), t.withComposite shell owner c') := by
  have hroom' : (t.withComposite shell owner c').room = none := hroom
  rcases field.isBitField_or with ⟨common, offsetBits, underlying, rfl⟩ | hb
  · refine Runs.eq_ok ?_
    simp only [fillFields, Runs.bind_iff, runs_onTypeFault]
    refine Runs.of_eq (a := ()) (inside_of_unlimited hr hroom' 2 (Runs.eq_ok ?_)) ⟨trivial, rfl⟩
    rw [Runs.bind_iff]
    refine Runs.of_eq made ?_
    exact Runs.of_eq (placeBitField_apply hshell record long fits) ⟨rfl, rfl⟩
  · rw [fieldMember_of_ne index hb] at made room fits
    have hname : typeName shell s = (.ok owner.plain, s) := by
      have hname : Yields { cuts := True } (typeName shell) s _ NoFault := hs.typeName shell
      obtain ⟨shown, u, hrun, -, rfl, hshown⟩ := hname.exists_ok
      rw [hrun, hshown hstart]
    refine Runs.eq_ok ?_
    rw [fillFields.eq_3 _ _ _ _ _ hb, Runs.bind_iff, runs_onTypeFault]
    refine Runs.of_eq (a := ()) (inside_of_unlimited hr hroom' 1 (Runs.eq_ok ?_)) ?_
    · rw [Runs.bind_iff]
      refine Runs.of_eq hname ?_
      rw [Runs.bind_iff]
      refine Runs.of_eq made ?_
      exact Runs.of_eq (placeField_apply ht hshell record long room fits) ⟨rfl, rfl⟩
    · rw [fillFields_nil]
      exact ⟨rfl, rfl⟩

/-- The members of a structure, from one on, have types with a length, made without a word, and
these are to stand for them. What is no bit field takes up as many bytes as is said. -/
inductive Resolves (occupies : Extent → Member → Int) (shell : TypeId) (owner : Json) :
    Nat → Session → List Node → List Component → Prop where
  | nil {index : Nat} {s : Session} : Resolves occupies shell owner index s [] []
  | cons {index : Nat} {s t : Session} {field : Node} {fields : List Node} {type : TypeId}
      {slot : Component} {slots : List Component}
      (made : (fieldMember index field).resolve owner s = (.ok type, t))
      (silent : t.journal = s.journal) (long : 0 < t.program.arena.length type)
      (is : (fieldMember index field).slot type
        (occupies (t.program.arena.extent type) (fieldMember index field)) = slot)
      (rest : Resolves occupies shell owner (index + 1)
        (fillFields typeAt shell index [field] s).2 fields slots) :
      Resolves occupies shell owner index s (field :: fields) (slot :: slots)

/-- The shell is left alone while the types of the members are made. -/
def SparesShell (shell : TypeId) (owner : Json) : Nat → Session → List Node → Prop
  | _, _, [] => True
  | index, s, field :: fields =>
      ((fieldMember index field).resolve owner s).2.program.arena.composite? shell =
          s.program.arena.composite? shell ∧
        SparesShell shell owner (index + 1) (fillFields typeAt shell index [field] s).2 fields

/-- So it is once every structure, union and enumeration of the table has its type. -/
theorem SparesShell.of_guarded (hg : Guarded (fun _ => False) s)
    (hshell : shell < s.program.arena.size) (fields : List Node) (index : Nat) :
    SparesShell shell owner index s fields := by
  have node (may : TypeId → Prop) (n : Node) (hint : Json) :
      Preserves (GuardedFrame may) (createType typeAt n hint) :=
    createType_frame typeAt_frame n hint
  induction fields generalizing s index with
  | nil => trivial
  | cons field fields ih =>
      have hmake : Preserves (GuardedFrame fun _ => False)
          ((fieldMember index field).resolve owner) := node _ _ _
      have hfill : Preserves (GuardedFrame (· = shell))
          (fillFields typeAt shell index [field]) := by
        refine fillFields_frame ?_ (fun f _ => node _ f) (fun _ _ u _ => node _ u) index
        exact rfl
      have hfilled := hfill.apply s (hg.mono fun _ h => h.elim)
      refine ⟨?_, ih (hg.after hfilled) (Nat.lt_of_lt_of_le hshell hfilled.size_le) (index + 1)⟩
      rw [Arena.composite?, Arena.composite?, (hmake.apply s hg).kept hshell id]

theorem Member.resolve_after (hs : s.Sound) (hr : s.room = none) {m : Member}
    (typed : m.node.WellTyped) (made : m.resolve owner s = (.ok type, t)) :
    After { cuts := True } s t ∧ type < t.program.arena.size := by
  have hroom := Room.allows_of_eq_none hr (nodeNeed (tableNeed s.document) m.node.height)
  have h : Yields { cuts := True } (typeOf m.node (m.hint owner)) s _ TypeFault :=
    typeOf_yields (.inl trivial) typed hs.ready (m.isName_hint owner) hroom
  rcases h.exists_result with ⟨id, u, hrun, ha, hid⟩ | ⟨_, _, hrun, -⟩
  · cases made.symm.trans hrun
    exact ⟨ha, hid⟩
  · cases made.symm.trans hrun

/-- The members of a structure, from one on, join those that are there. -/
theorem fillFields_of_resolves {n : Int} {fields : List Node} {slots : List Component}
    (h : Resolves Member.length shell owner index s fields slots)
    (spared : SparesShell shell owner index s fields) (hs : s.Sound) (hr : s.room = none)
    (typed : ∀ f ∈ fields, f.WellTyped) (sized : ∀ f ∈ fields, ∀ i, (fieldMember i f).IsSized)
    (hshell : s.program.arena.get? shell = some (.named owner (.composite c)))
    (record : c.kind = .record) (size : c.size = n) (apart : LieApart n slots)
    (units : UnitsFit n slots)
    (beside : ∀ d ∈ c.components, ∀ slot ∈ slots, d.Apart slot ∧ d.Spares slot) :
    ∃ t made, fillFields typeAt shell index fields s = (.ok (), t) ∧
      t.program.arena.get? shell = some (.named owner (.composite made)) ∧
      made.kind = .record ∧ made.size = n ∧ made.components.Perm (c.components ++ slots) ∧
      After { cuts := True } s t ∧ t.journal = s.journal := by
  induction h generalizing c with
  | @nil index s =>
      rw [fillFields_nil, List.append_nil]
      exact ⟨s, c, rfl, hshell, record, size, .refl _, .refl hs, rfl⟩
  | @cons index s t field fields type slot slots made silent long is rest ih =>
      obtain ⟨keep, spared⟩ := spared
      have hfield := typed field List.mem_cons_self
      obtain ⟨ha, htype⟩ := Member.resolve_after hs hr (wellTyped_fieldMember hfield index) made
      have hroom : t.room = none := ha.room.trans hr
      -- making the type has left the shell alone
      have hshell' : t.program.arena.get? shell = some (.named owner (.composite c)) := by
        rw [made] at keep
        obtain ⟨_, hg, rfl | ⟨_, _, c', heq, rfl, -⟩⟩ := ha.evolves hshell
        · exact hg
        · cases heq
          rw [Arena.composite?_eq_some.mpr ⟨_, hg⟩,
            Arena.composite?_eq_some.mpr ⟨_, hshell⟩] at keep
          cases keep
          exact hg
      have room : 0 < (fieldMember index field).length (t.program.arena.extent type) := by
        have hlength := apart.length slot List.mem_cons_self
        rwa [← is, Member.slot_length] at hlength
      have fits := Member.place?_of_apart record (sized field List.mem_cons_self index)
        (is ▸ apart.offset slot List.mem_cons_self) room
        (is ▸ fun d hd => (beside d hd slot List.mem_cons_self).1)
        (is ▸ fun d hd => (beside d hd slot List.mem_cons_self).2)
      rw [is] at fits
      have hone :=
        fillFields_singleton hs hr ha.sound hroom hshell hshell' record made long room fits
      rw [hone] at rest spared ih
      have hinsert : (c.insert slot).components.Perm (slot :: c.components) :=
        Composite.insertSorted_perm slot c.components
      have hafter : After { cuts := True } t (t.withComposite shell owner (c.insert slot)) := by
        refine .setComposite ha.sound hshell' rfl (c.size_le_size_insert slot) fun m hm => ?_
        rcases List.mem_cons.mp (hinsert.mem_iff.mp hm) with rfl | hm
        · rwa [← is, Member.slot_type]
        · exact ha.sound.program.arena.placed hshell' m hm
      have hgrown : (c.insert slot).size = n := by
        have hstop := units.stop slot List.mem_cons_self
        simp only [Composite.insert]
        omega
      have hbeside : ∀ d ∈ (c.insert slot).components, ∀ e ∈ slots, d.Apart e ∧ d.Spares e := by
        intro d hd e he
        rcases List.mem_cons.mp (hinsert.mem_iff.mp hd) with rfl | hd
        · exact ⟨List.rel_of_pairwise_cons apart.apart he,
            List.rel_of_pairwise_cons units.spares he⟩
        · exact beside d hd e (List.mem_cons_of_mem _ he)
      obtain ⟨u, final, hrun, hg, hkind, hsize, hperm, hu, hj⟩ := ih spared hafter.sound hroom
        (fun f hf => typed f (List.mem_cons_of_mem _ hf))
        (fun f hf => sized f (List.mem_cons_of_mem _ hf))
        (Arena.get?_set_self _ (Arena.lt_size_of_get? hshell')) record hgrown apart.tail units.tail
        hbeside
      refine ⟨u, final, ?_, hg, hkind, hsize, ?_, ha.trans (hafter.trans hu), hj.trans silent⟩
      · rw [fillFields_cons, Runs.bind_apply, hone]
        exact hrun
      · exact hperm.trans ((hinsert.append_right slots).trans List.perm_middle.symm)

/-- A structure of so many bytes without base classes whose members are to lie apart in its shell,
which is as it was made. -/
structure WellFormed (occupies : Extent → Member → Int) (s : Session) (n : Int)
    (common : Document.Common) (fields : List Node) (shell : TypeId) (owner : Json)
    (slots : List Component) : Prop where
  positive : 0 < n
  size : common.sizeBits = 8 * n
  fresh : s.program.arena.get? shell =
    some (.named owner (.composite (.empty .record (declaredBytes common.sizeBits))))
  resolves : Resolves occupies shell owner 0 s fields slots
  sized : ∀ f ∈ fields, ∀ i, (fieldMember i f).IsSized
  apart : LieApart n slots

/-- A field whose slot is known stands for itself in what is left. -/
theorem Resolves.next {occupies : Extent → Member → Int} {field : Node} {fields : List Node}
    {slot : Component} {slots : List Component}
    (made : ((fieldMember index field).resolve owner s).1 = .ok slot.type)
    (silent : ((fieldMember index field).resolve owner s).2.journal = s.journal)
    (long : 0 < ((fieldMember index field).resolve owner s).2.program.arena.length slot.type)
    (is : (fieldMember index field).slot slot.type (occupies
      (((fieldMember index field).resolve owner s).2.program.arena.extent slot.type)
      (fieldMember index field)) = slot)
    (rest : Resolves occupies shell owner (index + 1)
      (fillFields typeAt shell index [field] s).2 fields slots) :
    Resolves occupies shell owner index s (field :: fields) (slot :: slots) :=
  .cons (Prod.ext made rfl) silent long is rest

theorem declaredBytes_of_bytes {n : Int} (h : 0 < n) : declaredBytes (8 * n) = n := by
  rw [declaredBytes, if_pos (by omega)]
  omega

/-- Filling a well-formed structure puts each member in its place and nothing else, without a word,
and keeps its size, if the storage units fit as well and the shell is left alone. -/
theorem fill_wellFormed (hs : s.Sound) (unlimited : s.room = none) {common : Document.Common}
    {fields functions : List Node}
    (typed : (Node.composite common true [] fields functions).WellTyped) {n : Int} {slots : List Component}
    (h : WellFormed Member.length s n common fields shell owner slots) (units : UnitsFit n slots)
    (spared : SparesShell shell owner 0 s fields) :
    ∃ t made, fill typeAt shell true [] fields s = (.ok (), t) ∧
      t.program.arena.get? shell = some (.named owner (.composite made)) ∧
      made.kind = .record ∧ made.size = n ∧ made.components.Perm slots ∧
      t.journal = s.journal := by
  have fresh := h.fresh
  rw [h.size, declaredBytes_of_bytes h.positive] at fresh
  obtain ⟨t, made, hrun, hg, hkind, hsize, hperm, ha, hj⟩ := fillFields_of_resolves h.resolves
    spared hs unlimited (fun f hf => typed.part (Node.mem_parts_of_mem_fields hf)) h.sized fresh rfl
    rfl h.apart units nofun
  have hroom : t.room = none := ha.room.trans unlimited
  refine ⟨t, made, inside_of_unlimited unlimited hroom 1 ?_, hg, hkind, hsize, hperm, hj⟩
  simp only [if_true, fillBases_nil, pure_bind]
  exact hrun

/-- A session that holds an empty structure of so many bytes and nothing else. -/
def shellSession (n : Int) : Session :=
  ({ document := {}, program := {} } : Session).push
    (.named (.text "S") (.composite (.empty .record n)))

theorem shellSession_sound (n : Int) : (shellSession n).Sound := by
  have hnew : Session.IsNew { document := {}, program := {} } := .of_document ⟨nofun, nofun⟩
  have hafter := After.push (L := { cuts := True }) hnew.sound (.shell "S" .record n)
  exact hafter.sound

/-- A member and after it two bit fields that share their storage unit. -/
def flagFields : List Node :=
  [.builtIn { serial := 1, name := .text "a", relativeOffset := 0 } .signed32,
   .bitField { serial := 2, name := .text "x", relativeOffset := 4, sizeBits := 3 } 0
     (.builtIn { serial := 3 } .unsigned32),
   .bitField { serial := 4, name := .text "y", relativeOffset := 4, sizeBits := 5 } 3
     (.builtIn { serial := 5 } .unsigned32)]

theorem fill_wellFormed_flags :
    ∃ t made, fill typeAt 0 true [] flagFields (shellSession 8) = (.ok (), t) ∧
      t.program.arena.get? 0 = some (.named (.text "S") (.composite made)) ∧
      made.kind = .record ∧ made.size = 8 ∧
      made.components.Perm
        [⟨0, 1, 4, .text "a", 0, 0⟩, ⟨4, 2, 4, .text "x", 3, 0⟩, ⟨4, 2, 4, .text "y", 5, 3⟩] ∧
      t.journal = (shellSession 8).journal := by
  have name (t : String) : (Json.text t).IsName := .inr ⟨t, rfl⟩
  have hbits {c : Document.Common} (hn : c.name.IsName) (offsetBits : Int) (serial : Nat) :
      (Node.bitField c offsetBits (.builtIn { serial } .unsigned32)).WellTyped := by
    refine Node.wellTyped_iff.mpr ⟨hn, fun k hk => ?_⟩
    rw [List.mem_singleton.mp hk]
    exact Node.wellTyped_builtIn (.inl rfl) _
  have typed : (Node.composite { serial := 0, name := .text "S", sizeBits := 64 } true []
      flagFields []).WellTyped := by
    refine Node.wellTyped_composite (name _) _ ?_ _
    simp only [flagFields, List.forall_mem_cons]
    exact ⟨Node.wellTyped_builtIn (name _) _, hbits (name _) _ _, hbits (name _) _ _, nofun⟩
  have hresolves : Resolves Member.length 0 (.text "S") 0 (shellSession 8) flagFields
      [⟨0, 1, 4, .text "a", 0, 0⟩, ⟨4, 2, 4, .text "x", 3, 0⟩, ⟨4, 2, 4, .text "y", 5, 3⟩] := by
    refine .next (by decide +kernel) (by decide +kernel) (by decide +kernel) (by decide +kernel) ?_
    refine .next (by decide +kernel) (by decide +kernel) (by decide +kernel) (by decide +kernel) ?_
    exact .next (by decide +kernel) (by decide +kernel) (by decide +kernel) (by decide +kernel) .nil
  refine fill_wellFormed (shellSession_sound 8) rfl typed
    ⟨by decide, rfl, rfl, hresolves, ?_, ?_⟩ ?_ ?_
  · simp [flagFields, fieldMember, Member.IsSized]
  · exact ⟨by decide, by decide, by decide, by decide, by decide⟩
  · exact ⟨by decide, by simp [Component.Spares, Component.isBitField]⟩
  · exact ⟨by decide +kernel, by decide +kernel, by decide +kernel, trivial⟩

/-- A bit field of three bits, and a member in the second byte of its storage unit. -/
def coveredFields : List Node :=
  [.bitField { serial := 1, name := .text "x", relativeOffset := 0, sizeBits := 3 } 0
     (.builtIn { serial := 2 } .unsigned32),
   .builtIn { serial := 3, name := .text "c", relativeOffset := 1 } .signed8]

/-- A structure without a size. -/
def emptyDocument : Document where
  types := [.composite { serial := 0, name := .text "E", sizeBits := 0 } true [] [] []]
  size := 1

/-- A member without a size that declares four bytes, and a member in the second of these. -/
def emptyFields : List Node :=
  [.typeName { serial := 1, name := .text "e", relativeOffset := 0, sizeBits := 32 }
     ⟨.text "E", -1, none⟩,
   .builtIn { serial := 2, name := .text "c", relativeOffset := 1 } .signed8]

def twinFields : List Node :=
  [.builtIn { serial := 1, name := .text "a", relativeOffset := 0 } .signed32,
   .pointer { serial := 2, name := .text "p", relativeOffset := 4 } true
     (.typeName { serial := 3 } ⟨.text "S", -1, none⟩)]

/-- Two structures of one name and size, the first with a pointer to the second. -/
def twinDocument : Document where
  types :=
    [.composite { serial := 0, name := .text "S", sizeBits := 64 } true [] twinFields [],
     .composite { serial := 4, name := .text "S", sizeBits := 64 } true []
       [.builtIn { serial := 5, name := .text "z", relativeOffset := 0 } .signed8] []]
  size := 6

/-- The first of them has its shell, and the second has none of its own. -/
def twinSession : Session :=
  ((do
    prepare
    let shell ← newShell true 64 (.text "S")
    setEntry 0 (← edit (Program.addType shell)) : ImportM Unit)
    { document := twinDocument, program := {} }).2

/-- A member that takes up as many bytes as its type, whatever it declares. -/
def occupiesType (e : Extent) (_ : Member) : Int := e.length

theorem coveredFields_wellFormed :
    WellFormed occupiesType (shellSession 4) 4 { serial := 0, sizeBits := 32 } coveredFields 0
      (.text "S") [⟨0, 1, 4, .text "x", 3, 0⟩, ⟨1, 2, 1, .text "c", 0, 0⟩] := by
  refine ⟨by decide, rfl, rfl, ?_, ?_, ?_⟩
  · refine .next (by decide +kernel) (by decide +kernel) (by decide +kernel) (by decide +kernel) ?_
    exact .next (by decide +kernel) (by decide +kernel) (by decide +kernel) (by decide +kernel) .nil
  · simp [coveredFields, fieldMember, Member.IsSized]
  · exact ⟨by decide, by decide, by decide, by decide, by decide⟩

theorem overhangingFields_wellFormed :
    WellFormed occupiesType (shellSession 1) 1 { serial := 0, sizeBits := 8 }
      (coveredFields.take 1) 0 (.text "S") [⟨0, 1, 4, .text "x", 3, 0⟩] := by
  refine ⟨by decide, rfl, rfl, ?_, ?_, ?_⟩
  · exact .next (by decide +kernel) (by decide +kernel) (by decide +kernel) (by decide +kernel) .nil
  · simp [coveredFields, fieldMember, Member.IsSized]
  · exact ⟨by decide, by decide, by decide, by decide, by decide⟩

theorem emptyFields_wellFormed :
    WellFormed occupiesType { shellSession 4 with document := emptyDocument } 4
      { serial := 3, sizeBits := 32 } emptyFields 0 (.text "S")
      [⟨0, 1, 1, .text "e", 0, 0⟩, ⟨1, 2, 1, .text "c", 0, 0⟩] := by
  refine ⟨by decide, rfl, rfl, ?_, ?_, ?_⟩
  · refine .next (by decide +kernel) (by decide +kernel) (by decide +kernel) (by decide +kernel) ?_
    exact .next (by decide +kernel) (by decide +kernel) (by decide +kernel) (by decide +kernel) .nil
  · simp [emptyFields, fieldMember, Member.IsSized]
  · exact ⟨by decide, by decide, by decide, by decide, by decide⟩

theorem twinFields_wellFormed :
    WellFormed occupiesType twinSession 8 { serial := 0, sizeBits := 64 } twinFields 0 (.text "S")
      [⟨0, 1, 4, .text "a", 0, 0⟩, ⟨4, 4, 4, .text "p", 0, 0⟩] := by
  refine ⟨by decide, rfl, rfl, ?_, ?_, ?_⟩
  · refine .next (by decide +kernel) (by decide +kernel) (by decide +kernel) (by decide +kernel) ?_
    exact .next (by decide +kernel) (by decide +kernel) (by decide +kernel) (by decide +kernel) .nil
  · simp [twinFields, fieldMember, Member.IsSized]
  · exact ⟨by decide, by decide, by decide, by decide, by decide⟩

/-- That is not enough. The bit field is displaced by the member in its storage unit, or its unit
makes the structure grow; so is the member without a size, which takes up the bytes it declares;
and one structure is filled as the other one. -/
theorem fill_wellFormed_displaces :
    (WellFormed occupiesType (shellSession 4) 4 { serial := 0, sizeBits := 32 } coveredFields 0
        (.text "S") [⟨0, 1, 4, .text "x", 3, 0⟩, ⟨1, 2, 1, .text "c", 0, 0⟩] ∧
      (fill typeAt 0 true [] coveredFields (shellSession 4)).2.program.arena.composite? 0 =
        some ⟨.record, 4, [⟨1, 2, 1, .text "c", 0, 0⟩]⟩) ∧
    (WellFormed occupiesType (shellSession 1) 1 { serial := 0, sizeBits := 8 }
        (coveredFields.take 1) 0 (.text "S") [⟨0, 1, 4, .text "x", 3, 0⟩] ∧
      (fill typeAt 0 true [] (coveredFields.take 1) (shellSession 1)).2.program.arena.composite? 0 =
        some ⟨.record, 4, [⟨0, 1, 4, .text "x", 3, 0⟩]⟩) ∧
    (WellFormed occupiesType { shellSession 4 with document := emptyDocument } 4
        { serial := 3, sizeBits := 32 } emptyFields 0 (.text "S")
        [⟨0, 1, 1, .text "e", 0, 0⟩, ⟨1, 2, 1, .text "c", 0, 0⟩] ∧
      (fill typeAt 0 true [] emptyFields
        { shellSession 4 with document := emptyDocument }).2.program.arena.composite? 0 =
        some ⟨.record, 4, [⟨1, 2, 1, .text "c", 0, 0⟩]⟩) ∧
    (WellFormed occupiesType twinSession 8 { serial := 0, sizeBits := 64 } twinFields 0
        (.text "S") [⟨0, 1, 4, .text "a", 0, 0⟩, ⟨4, 4, 4, .text "p", 0, 0⟩] ∧
      (fill typeAt 0 true [] twinFields twinSession).2.program.arena.composite? 0 =
        some ⟨.record, 8, [⟨0, 3, 1, .text "z", 0, 0⟩, ⟨4, 4, 4, .text "p", 0, 0⟩]⟩) :=
  ⟨⟨coveredFields_wellFormed, by decide +kernel⟩,
    ⟨overhangingFields_wellFormed, by decide +kernel⟩,
    ⟨emptyFields_wellFormed, by decide +kernel⟩,
    ⟨twinFields_wellFormed, by decide +kernel⟩⟩

end Import

end StabsImport

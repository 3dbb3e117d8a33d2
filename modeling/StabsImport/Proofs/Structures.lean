import Mathlib.Order.Bounds.Basic
import StabsImport.Proofs.Actions
import StabsImport.Proofs.Placements

/-!
# Structures under any placements

A member displaces all that it overlaps, a bit field only a bit field that starts at the same bit.
In whatever order the two kinds are placed, the components of a structure stand in order, its
members lie apart, no two bit fields start at the same bit, and the structure is as large as the
largest of all that was ever placed in it asked for. Main statement: `newComposite_arranges`.
-/

namespace StabsImport

namespace Component

variable {c d e : Component}

/-- By offset, and at one offset by the bit where it starts, the first does not come later. -/
def Precedes (c d : Component) : Prop :=
  c.offset < d.offset ∨ c.offset = d.offset ∧ c.bitOffset ≤ d.bitOffset

/-- The bytes of the one end before those of the other begin. -/
def IsClearOf (c d : Component) : Prop := c.stop ≤ d.offset ∨ d.stop ≤ c.offset

/-- Two bit fields that start at the same bit, or two members that share a byte, are not. -/
structure Tolerates (c d : Component) : Prop where
  members : c.isBitField = false → d.isBitField = false → c.IsClearOf d
  bits : c.isBitField = true → d.isBitField = true →
    (c.offset, c.bitOffset) ≠ (d.offset, d.bitOffset)

theorem Precedes.trans (h : c.Precedes d) (h' : d.Precedes e) : c.Precedes e := by
  unfold Precedes at h h' ⊢
  omega

theorem precedes_of_comesBefore (h : Composite.comesBefore c d = true) : c.Precedes d := by
  simp only [Composite.comesBefore, Bool.or_eq_true, Bool.and_eq_true, decide_eq_true_eq,
    beq_iff_eq] at h
  unfold Precedes
  omega

theorem precedes_of_not_comesBefore (h : ¬ Composite.comesBefore c d = true) : d.Precedes c := by
  simp only [Composite.comesBefore, Bool.or_eq_true, Bool.and_eq_true, decide_eq_true_eq,
    beq_iff_eq] at h
  unfold Precedes
  omega

theorem Tolerates.symm (h : c.Tolerates d) : d.Tolerates c where
  members hd hc := (h.members hc hd).symm
  bits hd hc := (h.bits hc hd).symm

/-- A member is placed clear of what it does not overlap. -/
theorem isClearOf_of_not_overlaps (h : Composite.overlaps c.offset c.length d = false) :
    c.IsClearOf d := by
  simp only [Composite.overlaps, Bool.not_eq_false', Bool.or_eq_true, decide_eq_true_eq] at h
  exact h.symm

/-- Only at the bit where a bit field starts does another stand in its way. -/
theorem starts_apart (h : Composite.startsAtBit c.offset c.bitOffset d = false)
    (bits : d.isBitField = true) : (c.offset, c.bitOffset) ≠ (d.offset, d.bitOffset) := by
  intro same
  obtain ⟨hoffset, hbit⟩ := Prod.mk.inj same
  simp [Composite.startsAtBit, bits, hoffset, hbit] at h

end Component

namespace Composite

open Component (Precedes Tolerates)

variable {s : Composite} {c : Component}

/-- An insertion keeps a list in order, of whatever order the places before and after are told. -/
theorem pairwise_insertSorted {R : Component → Component → Prop} {cs : List Component}
    (trans : ∀ {d e}, R c d → R d e → R c e) (before : ∀ {d}, comesBefore c d = true → R c d)
    (after : ∀ d ∈ cs, ¬ comesBefore c d = true → R d c) (h : cs.Pairwise R) :
    (insertSorted c cs).Pairwise R := by
  induction cs with
  | nil => exact List.pairwise_singleton R c
  | cons d rest ih =>
      obtain ⟨hd, hrest⟩ := List.pairwise_cons.mp h
      simp only [insertSorted]
      split
      · next hbefore =>
          have hcd : R c d := before hbefore
          refine List.pairwise_cons.mpr ⟨fun e he => ?_, h⟩
          rcases List.mem_cons.mp he with rfl | he
          · exact hcd
          · exact trans hcd (hd e he)
      · next hafter =>
          refine List.pairwise_cons.mpr
            ⟨fun e he => ?_, ih (fun e he => after e (List.mem_cons_of_mem d he)) hrest⟩
          rcases mem_insertSorted he with rfl | he
          · exact after d List.mem_cons_self hafter
          · exact hd e he

theorem insertSorted_sorted {cs : List Component} (h : cs.Pairwise Precedes) :
    (insertSorted c cs).Pairwise Precedes :=
  pairwise_insertSorted Precedes.trans Component.precedes_of_comesBefore
    (fun _ _ => Component.precedes_of_not_comesBefore) h

/-- How the components of a structure stand. -/
structure Arranged (s : Composite) : Prop where
  sorted : s.components.Pairwise Precedes
  tolerant : s.components.Pairwise Tolerates
  covered : ∀ c ∈ s.components, c.stop ≤ s.size

theorem arranged_empty (kind : CompositeKind) (size : Int) : (empty kind size).Arranged :=
  ⟨.nil, .nil, nofun⟩

/-- Whatever is displaced, the rest stands as before. -/
theorem Arranged.filter (h : s.Arranged) (keep : Component → Bool) :
    Arranged { s with components := s.components.filter keep } where
  sorted := h.sorted.sublist List.filter_sublist
  tolerant := h.tolerant.sublist List.filter_sublist
  covered c hc := h.covered c (List.mem_filter.mp hc).1

theorem Arranged.insert (h : s.Arranged) (tolerant : ∀ d ∈ s.components, c.Tolerates d) :
    (s.insert c).Arranged where
  sorted := insertSorted_sorted h.sorted
  tolerant :=
    ((insertSorted_perm c s.components).pairwise_iff fun h => h.symm).mpr
      (List.pairwise_cons.mpr ⟨tolerant, h.tolerant⟩)
  covered d hd := by
    rcases mem_insertSorted hd with rfl | hd
    · exact stop_le_size_insert s d
    · exact Int.le_trans (h.covered d hd) (size_le_size_insert s c)

end Composite

/-- What may be asked of a structure. -/
inductive Placement where
  | member (offset : Int) (type : TypeId) (length : Int) (name : Json)
  | bits (offset width bitOffset : Int) (type : TypeId) (bitSize : Int) (name : Json)

namespace Placement

variable {call : Placement} {s s' : Composite}

/-- What is to stand in the structure. -/
def component : Placement → Component
  | member offset type length name => { offset, type, length, name }
  | bits offset width bitOffset type bitSize name =>
      { offset, type, length := width, name, bitSize, bitOffset }

def place (s : Composite) : Placement → Except Rejection Composite
  | member offset type length name => s.placeMember offset type length name
  | bits offset width bitOffset type bitSize name =>
      s.placeBits offset width bitOffset type bitSize name

def edit (owner : TypeId) : Placement → Edit Unit
  | member offset type length name => Program.placeMember owner offset type length name
  | bits offset width bitOffset type bitSize name =>
      Program.placeBits owner offset width bitOffset type bitSize name

theorem edit_eq (owner : TypeId) (call : Placement) :
    call.edit owner = Program.editComposite .record owner (call.place ·) := by
  cases call <;> rfl

/-- What is placed joins what it tolerates. -/
theorem place_eq_insert (h : call.place s = .ok s') : ∃ keep : Component → Bool,
    s' = Composite.insert { s with components := s.components.filter keep } call.component ∧
      ∀ d ∈ s.components.filter keep, call.component.Tolerates d := by
  cases call with
  | member offset type length name =>
      simp only [place, Composite.placeMember] at h
      split at h
      · cases h
      split at h
      · cases h
      cases h
      refine ⟨fun d => !Composite.overlaps offset length d, rfl, fun d hd => ⟨fun _ _ => ?_, ?_⟩⟩
      · have kept := (List.mem_filter.mp hd).2
        rw [Bool.not_eq_true'] at kept
        exact Component.isClearOf_of_not_overlaps kept
      · intro bits
        cases bits
  | bits offset width bitOffset type bitSize name =>
      simp only [place, Composite.placeBits] at h
      split at h
      · cases h
      next hsizes =>
      cases h
      have isBits : (bits offset width bitOffset type bitSize name).component.isBitField = true := by
        simp only [Bool.or_eq_true, decide_eq_true_eq, not_or, Int.not_le] at hsizes
        exact decide_eq_true hsizes.1
      refine ⟨fun d => !Composite.startsAtBit offset bitOffset d, rfl, fun d hd => ⟨?_, ?_⟩⟩
      · intro plain
        rw [isBits] at plain
        cases plain
      · intro _ bits
        have kept := (List.mem_filter.mp hd).2
        rw [Bool.not_eq_true'] at kept
        exact Component.starts_apart kept bits

/-- Each placement keeps a structure arranged. -/
theorem place_arranged (h : call.place s = .ok s') (arranged : s.Arranged) : s'.Arranged := by
  obtain ⟨keep, rfl, tolerant⟩ := place_eq_insert h
  exact (arranged.filter keep).insert tolerant

theorem mem_of_place (h : call.place s = .ok s') : call.component ∈ s'.components := by
  obtain ⟨keep, rfl, -⟩ := place_eq_insert h
  exact (Composite.insertSorted_perm _ _).mem_iff.mpr List.mem_cons_self

theorem size_of_place (h : call.place s = .ok s') :
    s'.size = max s.size call.component.stop := by
  obtain ⟨keep, rfl, -⟩ := place_eq_insert h
  rfl

theorem kind_of_place (h : call.place s = .ok s') : s'.kind = s.kind := by
  obtain ⟨keep, rfl, -⟩ := place_eq_insert h
  rfl

/-! ## Calls on a program -/

variable {owner : TypeId} {name : Json} {declared : Int} {placed : List Component} {p : Program}

/-- The sizes that are asked for: the one declared, and those that the components need. -/
def demands (declared : Int) (placed : List Component) : Set Int :=
  {n | n = declared ∨ ∃ c ∈ placed, c.stop = n}

theorem demands_nil (declared : Int) : demands declared [] = {declared} := by
  simp [demands]

theorem demands_append (declared : Int) (placed : List Component) (c : Component) :
    demands declared (placed ++ [c]) = demands declared placed ∪ {c.stop} := by
  ext n
  constructor
  · rintro (rfl | ⟨d, hd, rfl⟩)
    · exact .inl (.inl rfl)
    · rcases List.mem_append.mp hd with hd | hd
      · exact .inl (.inr ⟨d, hd, rfl⟩)
      · exact .inr (congrArg Component.stop (List.mem_singleton.mp hd))
  · rintro ((rfl | ⟨d, hd, rfl⟩) | rfl)
    · exact .inl rfl
    · exact .inr ⟨d, List.mem_append_left _ hd, rfl⟩
    · exact .inr ⟨c, List.mem_append_right _ (List.mem_singleton_self c), rfl⟩

/-- A structure of the program that was declared with some size, and in which all this was ever
placed, whether it is still there or was displaced. -/
structure Arranges (p : Program) (owner : TypeId) (name : Json) (declared : Int)
    (placed : List Component) (s : Composite) : Prop where
  here : p.arena.get? owner = some (.named name (.composite s))
  kind : s.kind = .record
  arranged : s.Arranged
  size : IsGreatest (demands declared placed) s.size

/-- A placement is carried out, or refused and nothing is changed. -/
theorem runs_edit (h : Arranges p owner name declared placed s) (call : Placement) :
    Runs (call.edit owner) p
      (fun _ q => ∃ s', call.place s = .ok s' ∧
        Arranges q owner name declared (placed ++ [call.component]) s')
      fun _ q => q = p := by
  have hlt : owner < p.arena.size := Arena.lt_size_of_get? h.here
  rw [edit_eq, Program.editComposite, Runs.bind_iff, Runs.get_iff, h.here]
  dsimp only
  rw [if_neg (not_not_intro h.kind), Runs.bind_iff, Program.runs_ofExcept]
  cases hplace : call.place s with
  | error cause => rfl
  | ok s' =>
      refine ⟨s', rfl, Arena.get?_set_self _ hlt, (kind_of_place hplace).trans h.kind,
        place_arranged hplace h.arranged, ?_⟩
      rw [demands_append, size_of_place hplace]
      exact h.size.union isGreatest_singleton

/-- The program a call leaves behind, granted or refused. -/
def make (owner : TypeId) (p : Program) (call : Placement) : Program := (call.edit owner p).2

def makeAll (owner : TypeId) (p : Program) (calls : List Placement) : Program :=
  calls.foldl (make owner) p

/-- What is placed by those of the calls that are granted in their turn. -/
def granted (owner : TypeId) : Program → List Placement → List Component
  | _, [] => []
  | p, call :: rest =>
      match call.edit owner p with
      | (.ok _, q) => call.component :: granted owner q rest
      | (.error _, q) => granted owner q rest

theorem makeAll_arranges (h : Arranges p owner name declared placed s) (calls : List Placement) :
    ∃ s', Arranges (makeAll owner p calls) owner name declared (placed ++ granted owner p calls)
      s' := by
  induction calls generalizing p placed s with
  | nil => exact ⟨s, by simpa [makeAll, granted] using h⟩
  | cons call rest ih =>
      have hrun := runs_edit h call
      rw [Runs] at hrun
      simp only [makeAll, List.foldl_cons, make, granted]
      rcases hedit : call.edit owner p with ⟨_ | _, q⟩ <;> rw [hedit] at hrun
      · obtain rfl : q = p := hrun
        exact ih h
      · obtain ⟨s', -, hs'⟩ := hrun
        simpa [makeAll] using ih hs'

/-- What one more call does. -/
structure Outcome (q : Program) (owner : TypeId) (name : Json) (s : Composite) (call : Placement) :
    Prop where
  granted : (call.edit owner q).1 = .ok () → ∃ s',
    (make owner q call).arena.get? owner = some (.named name (.composite s')) ∧
      call.component ∈ s'.components ∧ s.size ≤ s'.size
  refused : ∀ e, (call.edit owner q).1 = .error e → make owner q call = q

theorem outcome_of_arranges (h : Arranges p owner name declared placed s) (call : Placement) :
    Outcome p owner name s call := by
  have hrun := runs_edit h call
  rw [Runs] at hrun
  rcases hedit : call.edit owner p with ⟨e | _, q⟩ <;> rw [hedit] at hrun
  · obtain rfl : q = p := hrun
    constructor
    · intro hok
      rw [hedit] at hok
      cases hok
    · intro _ _
      rw [make, hedit]
  · obtain ⟨s', hplace, hs'⟩ := hrun
    constructor
    · intro _
      rw [make, hedit]
      exact ⟨s', hs'.here, mem_of_place hplace, size_of_place hplace ▸ Int.le_max_left _ _⟩
    · intro e he
      rw [hedit] at he
      cases he

/-- A new structure stays arranged and of the size that was asked for, whatever calls are made on
it. A call that is granted places its component and makes nothing smaller, and one that is refused
changes nothing. -/
theorem newComposite_arranges (p : Program) (name : Json) (declared : Int)
    (calls : List Placement) :
    Runs (Program.newComposite .record name declared) p
      (fun owner start => ∃ s,
        Arranges (makeAll owner start calls) owner name declared (granted owner start calls) s ∧
          ∀ call, Outcome (makeAll owner start calls) owner name s call)
      fun _ _ => False := by
  have start : Arranges { p with arena := p.arena.push (.named name (.composite
      (.empty .record declared))) } p.arena.size name declared [] (.empty .record declared) := by
    refine ⟨Arena.get?_push_self _ _, rfl, Composite.arranged_empty _ _, ?_⟩
    rw [demands_nil]
    exact isGreatest_singleton
  obtain ⟨s, hs⟩ := makeAll_arranges start calls
  exact ⟨s, hs, fun call => outcome_of_arranges hs call⟩

end Placement

end StabsImport

import Mathlib.Data.List.Nodup
import StabsImport.Program.Storage
import StabsImport.Proofs.Hexadecimal

/-!
# Places of arguments

A calling convention whose slots have a size finds a place for every argument, and no two arguments
share one. `Passes` is its walk over the arguments, one constructor for each way to place the next
of them, and every law of the places is an induction over that walk: the registers taken are the
first of the convention, in its order, and the slots of the stack rise from its first one without
meeting.
-/

namespace StabsImport

namespace CallingConvention

theorem stackSlot_injective : Function.Injective stackSlot := by
  intro m n h
  exact Text.hex_injective (by simpa [stackSlot, toString] using h)

/-- A register that does not begin as slots of the stack do is none of them. -/
theorem ne_stackSlot {register : String} (h : ¬ "Stack[".toList <+: register.toList)
    (offset : Int) : register ≠ stackSlot offset := by
  intro heq
  apply h
  rw [heq]
  exact ⟨(Text.hex offset ++ "]").toList, by simp [stackSlot, toString]⟩

/-! ## Slots of the stack -/

section

variable {alignment : Int} (sized : 0 < alignment)

include sized

/-- What an argument takes on the stack covers it, with a byte for one without a length. -/
theorem le_stackSize (length : Int) : max length 1 ≤ stackSize alignment length := by
  have rest := Int.fmod_lt_of_pos (max length 1 + alignment - 1) sized
  simp only [stackSize]
  omega

theorem stackSize_pos (length : Int) : 0 < stackSize alignment length := by
  have := le_stackSize sized length
  omega

end

theorem dvd_stackSize (alignment length : Int) : alignment ∣ stackSize alignment length := by
  have parted := Int.mul_fdiv_add_fmod (max length 1 + alignment - 1) alignment
  refine ⟨(max length 1 + alignment - 1).fdiv alignment, ?_⟩
  simp only [stackSize]
  omega

/-! ## The walk over the arguments -/

/-- The walk over arguments of some lengths, with these registers free and the next slot of the
stack at an offset, hands out these places. -/
inductive Passes (alignment : Int) : List String → Int → List Int → List String → Prop
  | done (registers offset) : Passes alignment registers offset [] []
  | inRegister {register registers offset length lengths places}
      (short : length ≤ alignment * 2) (later : Passes alignment registers offset lengths places) :
      Passes alignment (register :: registers) offset (length :: lengths) (register :: places)
  | onStack {registers offset length lengths places}
      (spills : alignment * 2 < length ∨ registers = [])
      (later : Passes alignment registers (offset + stackSize alignment length) lengths places) :
      Passes alignment registers offset (length :: lengths) (stackSlot offset :: places)

/-- Slots with a size place every list of arguments. -/
theorem assignFrom_passes {alignment : Int} (sized : alignment ≠ 0) (registers : List String)
    (offset : Int) (lengths : List Int) :
    ∃ places, assignFrom alignment registers offset lengths = .ok places ∧
      Passes alignment registers offset lengths places := by
  induction lengths generalizing registers offset with
  | nil => exact ⟨[], by cases registers <;> rfl, .done registers offset⟩
  | cons length lengths ih =>
      cases registers with
      | nil =>
          obtain ⟨places, later, passes⟩ := ih [] (offset + stackSize alignment length)
          exact ⟨stackSlot offset :: places, by simp [assignFrom, sized, later, Except.map],
            .onStack (.inr rfl) passes⟩
      | cons register registers =>
          by_cases short : length ≤ alignment * 2
          · obtain ⟨places, later, passes⟩ := ih registers offset
            exact ⟨register :: places, by simp [assignFrom, short, later, Except.map],
              .inRegister short passes⟩
          · obtain ⟨places, later, passes⟩ :=
              ih (register :: registers) (offset + stackSize alignment length)
            exact ⟨stackSlot offset :: places,
              by simp [assignFrom, sized, short, later, Except.map],
              .onStack (.inl (by omega)) passes⟩

/-- None of the registers is spelled like a slot of the stack. -/
def Spelled (registers : List String) : Prop :=
  ∀ register ∈ registers, ∀ offset, register ≠ stackSlot offset

theorem Spelled.tail {register : String} {registers : List String}
    (h : Spelled (register :: registers)) : Spelled registers :=
  fun r hr => h r (List.mem_cons_of_mem register hr)

namespace Passes

section

variable {alignment : Int} {registers : List String} {offset : Int} {lengths : List Int}
variable {places : List String}

theorem length_eq (h : Passes alignment registers offset lengths places) :
    places.length = lengths.length := by
  induction h with
  | done => rfl
  | inRegister _ _ ih => simp [ih]
  | onStack _ _ ih => simp [ih]

/-- A place is a register that was free, or a slot of the stack from the next one on. -/
theorem mem_places (sized : 0 < alignment)
    (h : Passes alignment registers offset lengths places) {place : String}
    (hmem : place ∈ places) :
    place ∈ registers ∨
      ∃ o, place = stackSlot o ∧ offset ≤ o ∧ alignment ∣ o - offset := by
  induction h with
  | done => cases hmem
  | inRegister _ _ ih =>
      cases hmem with
      | head => exact .inl List.mem_cons_self
      | tail _ hmem => exact (ih hmem).imp_left (List.mem_cons_of_mem _)
  | @onStack _ offset length _ _ _ _ ih =>
      cases hmem with
      | head => exact .inr ⟨offset, rfl, Int.le_refl _, by simp⟩
      | tail _ hmem =>
          apply (ih hmem).imp_right
          rintro ⟨o, rfl, later, multiple⟩
          have positive := stackSize_pos sized length
          have total := Int.dvd_add (dvd_stackSize alignment length) multiple
          exact ⟨o, rfl, by omega, by rwa [show o - offset = stackSize alignment length +
            (o - (offset + stackSize alignment length)) by omega]⟩

theorem nodup (sized : 0 < alignment) (h : Passes alignment registers offset lengths places)
    (distinct : registers.Nodup) (spelled : Spelled registers) : places.Nodup := by
  induction h with
  | done => exact List.nodup_nil
  | @inRegister register _ _ _ _ _ _ later ih =>
      refine List.nodup_cons.mpr ⟨fun hmem => ?_, ih distinct.of_cons spelled.tail⟩
      obtain held | ⟨o, slot, _⟩ := later.mem_places sized hmem
      · exact (List.nodup_cons.mp distinct).1 held
      · exact spelled register List.mem_cons_self o slot
  | @onStack _ offset length _ _ _ later ih =>
      refine List.nodup_cons.mpr ⟨fun hmem => ?_, ih distinct spelled⟩
      obtain held | ⟨o, slot, after, _⟩ := later.mem_places sized hmem
      · exact spelled _ held offset rfl
      · have positive := stackSize_pos sized length
        have same := stackSlot_injective slot
        omega

/-- The registers taken are the first free ones, in their order. -/
theorem filter_registers (h : Passes alignment registers offset lengths places)
    {all : List String} (spelled : Spelled all) (within : registers ⊆ all) :
    places.filter (· ∈ all) <+: registers := by
  induction h with
  | done => exact List.nil_prefix
  | inRegister _ _ ih =>
      rw [List.filter_cons_of_pos (by simpa using within List.mem_cons_self)]
      exact (List.prefix_cons_inj _).mpr (ih fun r hr => within (List.mem_cons_of_mem _ hr))
  | @onStack _ offset _ _ _ _ _ ih =>
      have slot : stackSlot offset ∉ all := fun hmem => spelled _ hmem offset rfl
      rw [List.filter_cons_of_neg (by simpa using slot)]
      exact ih within

/-- An argument is spilled when it is too long for a register or the free ones are all taken. -/
theorem spilled_iff (h : Passes alignment registers offset lengths places)
    (distinct : registers.Nodup) (spelled : Spelled registers) {i : Nat} {length : Int}
    {place : String} (hlength : lengths[i]? = some length) (hplace : places[i]? = some place) :
    (∃ o, place = stackSlot o) ↔
      alignment * 2 < length ∨ ∀ register ∈ registers, register ∈ places.take i := by
  induction h generalizing i with
  | done => cases hplace
  | @inRegister register registers _ _ _ places short _ ih =>
      cases i with
      | zero =>
          cases hlength
          cases hplace
          have kept : ¬ ∃ o, place = stackSlot o :=
            fun ⟨o, slot⟩ => spelled place List.mem_cons_self o slot
          simp only [kept, List.take_zero, List.not_mem_nil, imp_false, false_iff, not_or]
          exact ⟨by omega, fun none => none place List.mem_cons_self⟩
      | succ i =>
          rw [ih distinct.of_cons spelled.tail hlength hplace]
          refine or_congr_right ⟨fun taken r hr => ?_, fun taken r hr => ?_⟩
          · cases hr with
            | head => exact List.mem_cons_self
            | tail _ hr => exact List.mem_cons_of_mem _ (taken r hr)
          · apply List.mem_of_ne_of_mem _ (taken r (List.mem_cons_of_mem _ hr))
            rintro rfl
            exact (List.nodup_cons.mp distinct).1 hr
  | @onStack registers offset _ _ places spills _ ih =>
      cases i with
      | zero =>
          cases hlength
          cases hplace
          refine iff_of_true ⟨offset, rfl⟩ (spills.imp_right ?_)
          rintro rfl
          simp
      | succ i =>
          rw [ih distinct spelled hlength hplace]
          refine or_congr_right (forall₂_congr fun r hr => ⟨List.mem_cons_of_mem _, fun taken => ?_⟩)
          exact List.mem_of_ne_of_mem (spelled r hr offset) taken

/-- The first slot handed out is the next one. -/
theorem first_slot (h : Passes alignment registers offset lengths places)
    (spelled : Spelled registers) {i : Nat} {o : Int} (hplace : places[i]? = some (stackSlot o))
    (first : ∀ j < i, ∀ o', places[j]? ≠ some (stackSlot o')) : o = offset := by
  induction h generalizing i with
  | done => cases hplace
  | inRegister _ _ ih =>
      cases i with
      | zero => exact absurd (Option.some.inj hplace) (spelled _ List.mem_cons_self o)
      | succ i => exact ih spelled.tail hplace fun j hj => first (j + 1) (by omega)
  | @onStack _ offset _ _ _ _ _ ih =>
      cases i with
      | zero => exact (stackSlot_injective (Option.some.inj hplace)).symm
      | succ i => exact absurd rfl (first 0 (by omega) offset)

/-- A slot ends before the next one starts. -/
theorem slots_apart (sized : 0 < alignment)
    (h : Passes alignment registers offset lengths places) (spelled : Spelled registers)
    {i j : Nat} (hij : i < j) {length o o' : Int} (hlength : lengths[i]? = some length)
    (hi : places[i]? = some (stackSlot o)) (hj : places[j]? = some (stackSlot o')) :
    o + max length 1 ≤ o' := by
  induction h generalizing i j with
  | done => cases hi
  | inRegister _ _ ih =>
      obtain ⟨j, rfl⟩ := Nat.exists_eq_add_of_lt hij
      cases i with
      | zero => exact absurd (Option.some.inj hi) (spelled _ List.mem_cons_self o)
      | succ i => exact ih spelled.tail (j := i + 1 + j) (by omega) hlength hi hj
  | @onStack registers offset length _ _ _ later ih =>
      obtain ⟨j, rfl⟩ := Nat.exists_eq_add_of_lt hij
      cases i with
      | zero =>
          cases hlength
          have start := stackSlot_injective (Option.some.inj hi)
          have covered := le_stackSize sized length
          obtain held | ⟨o'', slot, after, _⟩ :=
            later.mem_places sized (List.mem_of_getElem? (i := 0 + j) hj)
          · exact absurd rfl (spelled _ held o')
          · have same := stackSlot_injective slot
            omega
      | succ i => exact ih spelled (j := i + 1 + j) (by omega) hlength hi hj

end

end Passes

/-! ## The places of a convention -/

/-- An argument on the stack covers its bytes from its offset on, one at least. -/
def Covers (offset length byte : Int) : Prop := offset ≤ byte ∧ byte < offset + max length 1

/-- How the places of arguments of some lengths lie. -/
structure Apart (c : CallingConvention) (lengths : List Int) (places : List String) : Prop where
  length_eq : places.length = lengths.length
  distinct : places.Nodup
  placed : ∀ place ∈ places, place ∈ c.registers ∨ ∃ o, place = stackSlot o
  registers_taken : places.filter (· ∈ c.registers) <+: c.registers
  spilled_iff {i : Nat} {length : Int} {place : String} : lengths[i]? = some length →
    places[i]? = some place → ((∃ o, place = stackSlot o) ↔
      c.alignment * 2 < length ∨ ∀ register ∈ c.registers, register ∈ places.take i)
  first_slot {i : Nat} {o : Int} : places[i]? = some (stackSlot o) →
    (∀ j < i, ∀ o', places[j]? ≠ some (stackSlot o')) → o = c.stackOffset
  aligned {i : Nat} {o : Int} : places[i]? = some (stackSlot o) →
    c.stackOffset ≤ o ∧ c.alignment ∣ o - c.stackOffset
  rising {i j : Nat} {o o' : Int} : i < j → places[i]? = some (stackSlot o) →
    places[j]? = some (stackSlot o') → o < o'
  disjoint {i j : Nat} {length length' o o' : Int} : i ≠ j →
    lengths[i]? = some length → lengths[j]? = some length' →
    places[i]? = some (stackSlot o) → places[j]? = some (stackSlot o') →
    ∀ byte, ¬ (Covers o length byte ∧ Covers o' length' byte)

theorem Passes.apart {c : CallingConvention} {lengths : List Int} {places : List String}
    (h : Passes c.alignment c.registers c.stackOffset lengths places) (sized : 0 < c.alignment)
    (distinct : c.registers.Nodup) (spelled : Spelled c.registers) : c.Apart lengths places where
  length_eq := h.length_eq
  distinct := h.nodup sized distinct spelled
  placed place hmem := (h.mem_places sized hmem).imp_right fun ⟨o, slot, _⟩ => ⟨o, slot⟩
  registers_taken := h.filter_registers spelled (List.Subset.refl _)
  spilled_iff := h.spilled_iff distinct spelled
  first_slot := h.first_slot spelled
  aligned {i o} hi := by
    obtain held | ⟨o', slot, later, multiple⟩ := h.mem_places sized (List.mem_of_getElem? hi)
    · exact absurd rfl (spelled _ held o)
    · cases stackSlot_injective slot
      exact ⟨later, multiple⟩
  rising {i j o o'} hij hi hj := by
    have bounded : i < lengths.length := h.length_eq ▸ (List.getElem?_eq_some_iff.mp hi).1
    have := h.slots_apart sized spelled hij (List.getElem?_eq_getElem bounded) hi hj
    omega
  disjoint {i j length length' o o'} hne hlength hlength' hi hj := by
    intro byte hbyte
    unfold Covers at hbyte
    obtain hij | hji := Nat.lt_or_gt_of_ne hne
    · have := h.slots_apart sized spelled hij hlength hi hj
      omega
    · have := h.slots_apart sized spelled hji hlength' hj hi
      omega

/-- A convention with slots of some size, whose registers are distinct and none of them spelled
like a slot, finds a place for every argument, and the places do not meet. -/
theorem assignStorage_apart (c : CallingConvention) (lengths : List Int)
    (sized : 0 < c.alignment) (distinct : c.registers.Nodup) (spelled : Spelled c.registers) :
    ∃ places, c.assignStorage lengths = .ok places ∧ c.Apart lengths places := by
  obtain ⟨places, assigned, passes⟩ :=
    assignFrom_passes (show c.alignment ≠ 0 by omega) c.registers c.stackOffset lengths
  exact ⟨places, assigned, passes.apart sized distinct spelled⟩

/-- Two registers and a stack that grows from below zero: a long argument is spilled before the
registers are used up, and a short one after. -/
def spilling : CallingConvention := ⟨["a0", "a1"], -6, 4⟩

theorem spilling_apart :
    (0 < spilling.alignment ∧ spilling.registers.Nodup ∧ Spelled spilling.registers) ∧
      spilling.assignStorage [9, 4, 0, -3, 5] =
        .ok ["Stack[0x-6]", "a0", "a1", "Stack[0x6]", "Stack[0xa]"] ∧
      spilling.Apart [9, 4, 0, -3, 5]
        ["Stack[0x-6]", "a0", "a1", "Stack[0x6]", "Stack[0xa]"] := by
  have spelled : Spelled spilling.registers := by
    intro register hmem
    apply ne_stackSlot
    revert register
    decide
  have assigned : spilling.assignStorage [9, 4, 0, -3, 5] =
      .ok ["Stack[0x-6]", "a0", "a1", "Stack[0x6]", "Stack[0xa]"] := by decide +kernel
  obtain ⟨places, found, apart⟩ :=
    assignStorage_apart spilling [9, 4, 0, -3, 5] (by decide) (by decide) spelled
  cases assigned.symm.trans found
  exact ⟨⟨by decide, by decide, spelled⟩, assigned, apart⟩

end CallingConvention

end StabsImport

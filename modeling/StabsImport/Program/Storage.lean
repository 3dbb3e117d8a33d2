import StabsImport.Fault

/-!
# Parameter storage

A calling convention places each argument in the next free register while it is no longer than two
stack slots, and otherwise on the stack, where every argument takes a whole number of slots.
-/

namespace StabsImport

structure CallingConvention where
  registers : List String
  stackOffset : Int := 0
  alignment : Int := 4
  deriving DecidableEq, Repr, Inhabited

namespace CallingConvention

/-- Eight registers, slots of four bytes. -/
def standard : CallingConvention :=
  { registers := ["a0", "a1", "a2", "a3", "t0", "t1", "t2", "t3"] }

def stackSlot (offset : Int) : String := s!"Stack[{Text.hex offset}]"

/-- The bytes an argument takes on the stack, none of them shared. -/
def stackSize (alignment length : Int) : Int :=
  let reach := max length 1 + alignment - 1
  reach - reach.fmod alignment

/-- Places the arguments from the given registers and stack offset on. -/
def assignFrom (alignment : Int) : List String → Int → List Int → Except Fault (List String)
  | _, _, [] => .ok []
  | register :: registers, offset, length :: lengths =>
      if length ≤ alignment * 2 then
        (assignFrom alignment registers offset lengths).map (register :: ·)
      else if alignment = 0 then .error .zeroAlignment
      else
        (assignFrom alignment (register :: registers) (offset + stackSize alignment length)
          lengths).map (stackSlot offset :: ·)
  | [], offset, length :: lengths =>
      if alignment = 0 then .error .zeroAlignment
      else
        (assignFrom alignment [] (offset + stackSize alignment length) lengths).map
          (stackSlot offset :: ·)

def assignStorage (c : CallingConvention) (lengths : List Int) : Except Fault (List String) :=
  assignFrom c.alignment c.registers c.stackOffset lengths

end CallingConvention

end StabsImport

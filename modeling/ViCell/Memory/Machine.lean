import ViCell.Memory.FrameAllocator

/-!
# Physical memory

The frame allocator and the 64-bit words of physical memory that translation
tables live in.
-/

namespace ViCell.Memory

abbrev Word := BitVec 64

structure Machine where
  allocator : FrameAllocator
  memory : Nat → Word

def Machine.zeroWords (machine : Machine) (page count : Nat) : Machine :=
  { machine with
    memory := fun place =>
      if page ≤ place ∧ place < page + 8 * count then 0 else machine.memory place }

def Machine.write (machine : Machine) (place : Nat) (word : Word) : Machine :=
  { machine with memory := Function.update machine.memory place word }

end ViCell.Memory

import ViCell.Lib.RadixTable
import ViCell.Memory.Machine

/-!
# Sv39 page tables

`hal/arch/riscv/src/rv64/paging.rs` and the kernel's `map_page`, `unmap_page`
and `virt_to_phys` on riscv64. Three levels of 512 entries; only 4 KiB leaves
are ever written. `KERNEL_ROOT` is set once at boot, so the root is a parameter.
-/

namespace ViCell.Memory

open Lib

namespace Flags

def valid : Word := 1 <<< 0
def read : Word := 1 <<< 1
def write : Word := 1 <<< 2
def execute : Word := 1 <<< 3
def user : Word := 1 <<< 4
def accessed : Word := 1 <<< 6
def dirty : Word := 1 <<< 7

end Flags

def toRiscvFlags (flags : Word) : Word := if flags ≠ 0 then flags ||| 1 else flags

namespace PageTableEntry

def ppnMask : Word := 0x003FFFFFFFFFFFFF

def isValid (entry : Word) : Bool := entry &&& 1 != 0

def isLeaf (entry : Word) : Bool := (entry >>> 1) &&& 7 != 0

def toPhys (entry : Word) : Nat := (((entry >>> 10) &&& ppnMask) <<< 12).toNat

def set (addr : Nat) (flags : Word) : Word :=
  (((BitVec.ofNat 64 addr >>> 12) &&& ppnMask) <<< 10) ||| flags

end PageTableEntry

def vpn (level virt : Nat) : Nat := virt / 2 ^ (12 + level * 9) % 512

inductive PageTableError where
  | outOfMemory
  deriving DecidableEq, Repr

namespace PageTable

/-- The step of `map` at levels 2 and 1: an invalid entry gets a fresh table. -/
def child (machine : Machine) (table index : Nat) : Machine × Option Nat :=
  let entry := machine.memory (RadixTable.slot table index)
  if PageTableEntry.isValid entry then (machine, some (PageTableEntry.toPhys entry))
  else
    match machine.allocator.allocateFrame with
    | (allocator, none) => ({ machine with allocator := allocator }, none)
    | (allocator, some frame) =>
      let entry := PageTableEntry.set frame 1
      (({ machine with allocator := allocator }.write (RadixTable.slot table index)
        entry).zeroWords frame 512, some (PageTableEntry.toPhys entry))

def map (root : Nat) (machine : Machine) (virt phys : Nat) (flags : Word) :
    Machine × Except PageTableError Unit :=
  match child machine root (vpn 2 virt) with
  | (machine, none) => (machine, .error .outOfMemory)
  | (machine, some middle) =>
    match child machine middle (vpn 1 virt) with
    | (machine, none) => (machine, .error .outOfMemory)
    | (machine, some low) =>
      (machine.write (RadixTable.slot low (vpn 0 virt))
        (PageTableEntry.set phys (toRiscvFlags flags)), .ok ())

/-- `unmap_page` reports success also when nothing was mapped. -/
def unmap (root : Nat) (machine : Machine) (virt : Nat) : Machine :=
  let upper := machine.memory (RadixTable.slot root (vpn 2 virt))
  if !PageTableEntry.isValid upper || PageTableEntry.isLeaf upper then machine
  else
    let middle := PageTableEntry.toPhys upper
    let lower := machine.memory (RadixTable.slot middle (vpn 1 virt))
    if !PageTableEntry.isValid lower || PageTableEntry.isLeaf lower then machine
    else machine.write (RadixTable.slot (PageTableEntry.toPhys lower) (vpn 0 virt)) 0

def translateFrom (memory : Nat → Word) (virt : Nat) : List Nat → Nat → Option Nat
  | [], _ => none
  | level :: lower, table =>
    let entry := memory (RadixTable.slot table (vpn level virt))
    if PageTableEntry.isValid entry = false then none
    else if PageTableEntry.isLeaf entry then
      some (PageTableEntry.toPhys entry ||| virt % 2 ^ (12 + level * 9))
    else translateFrom memory virt lower (PageTableEntry.toPhys entry)

def translate (root : Nat) (machine : Machine) (virt : Nat) : Option Nat :=
  translateFrom machine.memory virt [2, 1, 0] root

end PageTable

end ViCell.Memory

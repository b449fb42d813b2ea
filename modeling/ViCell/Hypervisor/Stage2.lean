import ViCell.Lib.RadixTable
import ViCell.Memory.Machine

/-!
# Stage-2 tables and the VM registry

`memory/stage2.rs` and the VM calls of `hypervisor/registry.rs` on the frame
allocator and on physical memory as 64-bit words. Sizes and addresses are
64-bit and wrap where the source does not check. Virtual CPUs, the hardware
registers and the interrupt controller are left out: no call here reads them.
-/

namespace ViCell.Hypervisor

open Lib Memory RadixTable

def descValid : Word := 1
def descTable : Word := 2

def s2MemattrNormal : Word := 0b1111 <<< 2
def s2S2apRw : Word := 0b11 <<< 6
def s2S2apRo : Word := 0b01 <<< 6
def s2ShInner : Word := 0b11 <<< 8
def s2Af : Word := 1 <<< 10

def s2BaseRw : Word := s2MemattrNormal ||| s2S2apRw ||| s2ShInner ||| s2Af
def s2BaseRo : Word := s2MemattrNormal ||| s2S2apRo ||| s2ShInner ||| s2Af

def paMask : Word := 0x0000FFFFFFFFF000

def ipaLimit : Nat := 2 ^ 40

def mmioHoles : List (Nat × Nat) :=
  [(0x08000000, 0x08020000), (0x09000000, 0x09001000), (0x0a000000, 0x0a004000)]

def l1Idx (ipa : Nat) : Nat := ipa / 2 ^ 30 % 1024
def l2Idx (ipa : Nat) : Nat := ipa / 2 ^ 21 % 512
def l3Idx (ipa : Nat) : Nat := ipa / 2 ^ 12 % 512

def descPa (desc : Word) : Nat := (desc &&& paMask).toNat

def tableDesc (nextPa : Nat) : Word := (BitVec.ofNat 64 nextPa &&& paMask) ||| descTable ||| descValid

def pageDesc (pa : Nat) (writable : Bool) : Word :=
  (BitVec.ofNat 64 pa &&& paMask) ||| (if writable then s2BaseRw else s2BaseRo) |||
    descTable ||| descValid

def pageDescDevice (pa : Nat) (writable : Bool) : Word :=
  (BitVec.ofNat 64 pa &&& paMask) ||| (if writable then s2S2apRw else s2S2apRo) ||| s2Af |||
    descTable ||| descValid

def isTable (desc : Word) : Bool :=
  desc &&& (descValid ||| descTable) == descValid ||| descTable

def isValid (desc : Word) : Bool := desc &&& descValid != 0

inductive S2MapError where
  | overflow
  | outOfBounds
  | sasViolation
  | blockConflict
  | outOfMemory
  | mmioHole
  deriving DecidableEq, Repr

structure Stage2Table where
  rootPa : Nat
  subFrames : List Nat
  guestRamPa : Nat
  guestRamPages : Nat
  deriving DecidableEq, Repr

/-- `checked_add` of a page count in bytes; the product itself wraps. -/
def rangeEnd (base pages : Nat) : Option Nat :=
  if base + usize (pages * pageSize) < 2 ^ 64 then some (base + usize (pages * pageSize))
  else none

namespace Stage2Table

/-- `none` in the outer option is the allocator's index panic. -/
def new (machine : Machine) : Option (Machine × Option Stage2Table) :=
  match machine.allocator.allocateContiguous 2 with
  | none => none
  | some (allocator, none) => some ({ machine with allocator := allocator }, none)
  | some (allocator, some rootPa) =>
    some ({ machine with allocator := allocator }.zeroWords rootPa 1024,
      some { rootPa := rootPa, subFrames := [], guestRamPa := 0, guestRamPages := 0 })

def allocSubtable (machine : Machine) (table : Stage2Table) :
    Machine × Stage2Table × Option Nat :=
  match machine.allocator.allocateFrame with
  | (allocator, some pa) =>
    ({ machine with allocator := allocator }.zeroWords pa 512,
      { table with subFrames := table.subFrames ++ [pa] }, some pa)
  | (allocator, none) => ({ machine with allocator := allocator }, table, none)

/-- The step of the walk at levels 1 and 2: the table an entry points to,
allocated if the entry is invalid. -/
def descend (machine : Machine) (table : Stage2Table) (entry : Nat) :
    Machine × Stage2Table × Except S2MapError Nat :=
  let desc := machine.memory entry
  if isTable desc then (machine, table, .ok (descPa desc))
  else if isValid desc = false then
    match table.allocSubtable machine with
    | (machine, table, some pa) => (machine.write entry (tableDesc pa), table, .ok pa)
    | (machine, table, none) => (machine, table, .error .outOfMemory)
  else (machine, table, .error .blockConflict)

/-- `map_single` and `map_single_device` share the walk and differ in the
descriptor they write. -/
def mapLeaf (machine : Machine) (table : Stage2Table) (ipa : Nat) (desc : Word) :
    Machine × Stage2Table × Except S2MapError Unit :=
  match table.descend machine (slot table.rootPa (l1Idx ipa)) with
  | (machine, table, .error error) => (machine, table, .error error)
  | (machine, table, .ok l2) =>
    match table.descend machine (slot l2 (l2Idx ipa)) with
    | (machine, table, .error error) => (machine, table, .error error)
    | (machine, table, .ok l3) =>
      (machine.write (slot l3 (l3Idx ipa)) desc, table, .ok ())

def mapSingle (writable : Bool) (machine : Machine) (table : Stage2Table) (ipa hpa : Nat) :
    Machine × Stage2Table × Except S2MapError Unit :=
  table.mapLeaf machine ipa (pageDesc hpa writable)

def mapSingleDevice (writable : Bool) (machine : Machine) (table : Stage2Table)
    (ipa hpa : Nat) : Machine × Stage2Table × Except S2MapError Unit :=
  table.mapLeaf machine ipa (pageDescDevice hpa writable)

def mapPages
    (single : Machine → Stage2Table → Nat → Nat → Machine × Stage2Table × Except S2MapError Unit) :
    Nat → Nat → Nat → Machine → Stage2Table → Machine × Stage2Table × Except S2MapError Unit
  | 0, _, _, machine, table => (machine, table, .ok ())
  | pages + 1, ipa, hpa, machine, table =>
    match single machine table ipa hpa with
    | (machine, table, .error error) => (machine, table, .error error)
    | (machine, table, .ok ()) =>
      mapPages single pages (usize (ipa + pageSize)) (usize (hpa + pageSize)) machine table

/-- The checks of `map` before its loop, in order. -/
def mapCheck (table : Stage2Table) (ipa hpa pages : Nat) : Except S2MapError Unit :=
  match rangeEnd ipa pages with
  | none => .error .overflow
  | some ipaEnd =>
    match rangeEnd hpa pages with
    | none => .error .overflow
    | some hpaEnd =>
      if ipaLimit < ipaEnd then .error .outOfBounds
      else if ipaLimit < hpaEnd then .error .outOfBounds
      else if mmioHoles.any (fun hole => decide (ipa < hole.2) && decide (hole.1 < ipaEnd)) then
        .error .mmioHole
      else if 0 < table.guestRamPages ∧ (hpa < table.guestRamPa ∨
            usize (table.guestRamPa + usize (table.guestRamPages * pageSize)) < hpaEnd) then
        .error .sasViolation
      else .ok ()

def map (machine : Machine) (table : Stage2Table) (ipa hpa pages : Nat) (writable : Bool) :
    Machine × Stage2Table × Except S2MapError Unit :=
  match table.mapCheck ipa hpa pages with
  | .error error => (machine, table, .error error)
  | .ok () => mapPages (mapSingle writable) pages ipa hpa machine table

def mapMmioPassthrough (machine : Machine) (table : Stage2Table) (ipa hpa pages : Nat)
    (writable : Bool) : Machine × Stage2Table × Except S2MapError Unit :=
  match rangeEnd ipa pages with
  | none => (machine, table, .error .overflow)
  | some ipaEnd =>
    match rangeEnd hpa pages with
    | none => (machine, table, .error .overflow)
    | some hpaEnd =>
      if ipaLimit < ipaEnd then (machine, table, .error .outOfBounds)
      else if ipaLimit < hpaEnd then (machine, table, .error .outOfBounds)
      else mapPages (mapSingleDevice writable) pages ipa hpa machine table

def unmapSingle (table : Stage2Table) (machine : Machine) (ipa : Nat) : Machine :=
  let l1 := machine.memory (slot table.rootPa (l1Idx ipa))
  if isTable l1 = false then machine
  else
    let l2 := machine.memory (slot (descPa l1) (l2Idx ipa))
    if isTable l2 = false then machine
    else machine.write (slot (descPa l2) (l3Idx ipa)) 0

def unmap (table : Stage2Table) : Nat → Nat → Machine → Machine
  | 0, _, machine => machine
  | pages + 1, ipa, machine =>
    table.unmap pages (usize (ipa + pageSize)) (table.unmapSingle machine ipa)

def drop (table : Stage2Table) (machine : Machine) : Machine :=
  let subtables := table.subFrames.foldl FrameAllocator.deallocateFrame machine.allocator
  let roots := (subtables.deallocateFrame table.rootPa).deallocateFrame
    (usize (table.rootPa + pageSize))
  { machine with
    allocator := (List.range table.guestRamPages).foldl
      (fun allocator i => allocator.deallocateFrame (usize (table.guestRamPa + i * pageSize)))
      roots }

end Stage2Table

end ViCell.Hypervisor

import ViCell.Memory.Sv39

/-!
# The RISC-V IOMMU

`iommu_pt.rs` and `iommu_riscv.rs`: a page table for every task that does DMA,
and a three-level directory of device contexts that tells the hardware which of
them a device goes through. Tables are pages of the kernel heap, which are never
given back; the heap is the list of pages it will hand out, and an empty list is
the panic of a failed allocation.
-/

namespace ViCell.Cells

open Lib Memory RadixTable

structure HeapMachine where
  memory : Nat → Word
  heap : List Nat

def HeapMachine.write (machine : HeapMachine) (place : Nat) (word : Word) : HeapMachine :=
  { machine with memory := Function.update machine.memory place word }

def allocPage (machine : HeapMachine) : Option (HeapMachine × Nat) :=
  match machine.heap with
  | [] => none
  | page :: rest =>
    some ({ memory := fun place =>
              if page ≤ place ∧ place < page + 8 * 512 then 0 else machine.memory place
            heap := rest }, page)

def tablePointer (page : Nat) : Word := ((BitVec.ofNat 64 page >>> 12) <<< 10) ||| 1

def ensureTable (address : Word → Nat) (machine : HeapMachine) (table index : Nat) :
    Option (HeapMachine × Nat) :=
  let entry := machine.memory (slot table index)
  if entry &&& 1 ≠ 0 then some (machine, address entry)
  else
    (allocPage machine).map (fun (machine, child) =>
      (machine.write (slot table index) (tablePointer child), child))

namespace Sv39IommuPt

def childAddress (entry : Word) : Nat := ((entry >>> 10) <<< 12).toNat

def ensureSv39Child (machine : HeapMachine) (table index : Nat) : Option (HeapMachine × Nat) :=
  ensureTable childAddress machine table index

/-- V, R, W, A and D: readable and writable, no execute. -/
def pteDma : Word := 1 <<< 0 ||| 1 <<< 1 ||| 1 <<< 2 ||| 1 <<< 6 ||| 1 <<< 7

def leaf (pa : Nat) : Word := ((BitVec.ofNat 64 pa >>> 12) <<< 10) ||| pteDma

def mapPage (root pa : Nat) (machine : HeapMachine) : Option HeapMachine :=
  match ensureSv39Child machine root (vpn 2 pa) with
  | none => none
  | some (machine, middle) =>
    match ensureSv39Child machine middle (vpn 1 pa) with
    | none => none
    | some (machine, low) => some (machine.write (slot low (vpn 0 pa)) (leaf pa))

def mapPages (root : Nat) : Nat → Nat → HeapMachine → Option HeapMachine
  | 0, _, machine => some machine
  | count + 1, pa, machine =>
    match mapPage root pa machine with
    | none => none
    | some machine => mapPages root count (pa + pageSize) machine

def mapRange (root phys size : Nat) (machine : HeapMachine) : Option HeapMachine :=
  let start := phys / pageSize * pageSize
  let finish := usize (usize (phys + size) + 0xFFF) / pageSize * pageSize
  mapPages root ((finish - start) / pageSize) start machine

end Sv39IommuPt

namespace Ddt

def childAddress (entry : Word) : Nat :=
  (((entry >>> 10) &&& 0x000FFFFFFFFFFFFF) <<< 12).toNat

def ensureChildTable (machine : HeapMachine) (table index : Nat) : Option (HeapMachine × Nat) :=
  ensureTable childAddress machine table index

def ddi2 (bdf : Nat) : Nat := bdf / 2 ^ 15 % 512

def ddi1 (bdf : Nat) : Nat := bdf / 2 ^ 6 % 512

def ddi0 (bdf : Nat) : Nat := bdf % 64

/-- The leaf table with the device's context; the context starts at word
`ddi0 * 8` of it. -/
def getDcTable (machine : HeapMachine) (directory bdf : Nat) : Option (HeapMachine × Nat) :=
  match ensureChildTable machine directory (ddi2 bdf) with
  | none => none
  | some (machine, middle) => ensureChildTable machine middle (ddi1 bdf)

/-- The words of a context: the valid bit, `iohgatp`, `ta`, `fsc`, and the rest. -/
def dcWords (fsc : Word) (pscid : Nat) : List Word :=
  [1, 0, BitVec.ofNat 64 pscid <<< 12, fsc, 0, 0, 0, 0]

def writeWords (table first : Nat) : List Word → HeapMachine → HeapMachine
  | [], machine => machine
  | word :: rest, machine =>
    writeWords table (first + 1) rest (machine.write (slot table first) word)

def writeDc (directory bdf : Nat) (fsc : Word) (pscid : Nat) (machine : HeapMachine) :
    Option HeapMachine :=
  (getDcTable machine directory bdf).map (fun (machine, table) =>
    writeWords table (ddi0 bdf * 8) (dcWords fsc pscid) machine)

def zeroDc (directory bdf : Nat) (machine : HeapMachine) : Option HeapMachine :=
  (getDcTable machine directory bdf).map (fun (machine, table) =>
    writeWords table (ddi0 bdf * 8) (List.replicate 8 0) machine)

end Ddt

structure RiscvDomain where
  root : Nat
  pscid : Nat
  bdfs : List Nat
  deriving DecidableEq, Repr

/-- `directory` is `none` when no IOMMU was found. The free process ids are a
stack, its top first. -/
structure Iommu where
  machine : HeapMachine
  directory : Option Nat
  domains : Std.TreeMap Nat RiscvDomain
  pscidFree : List Nat
  pscidNext : Nat

namespace Iommu

/-- `init_hw` with the hardware present: the directory's first table, and a page
for the command queue. -/
def initHw (machine : HeapMachine) : Option Iommu :=
  match allocPage machine with
  | none => none
  | some (machine, directory) =>
    (allocPage machine).map (fun (machine, _) =>
      { machine := machine, directory := some directory, domains := ∅, pscidFree := [],
        pscidNext := 1 })

/-- A wrapped counter gives no id, and has moved on all the same. -/
def allocPscid (iommu : Iommu) : Option (Iommu × Nat) :=
  match iommu.pscidFree with
  | id :: rest => some ({ iommu with pscidFree := rest }, id)
  | [] =>
    if iommu.pscidNext = 0 then none
    else some ({ iommu with pscidNext := (iommu.pscidNext + 1) % 2 ^ 16 }, iommu.pscidNext)

def fscOf (root : Nat) : Word := (8 <<< 60) ||| (BitVec.ofNat 64 root >>> 12)

def domainFor (iommu : Iommu) (task : Nat) : Option (Iommu × RiscvDomain) :=
  match iommu.domains[task]? with
  | some domain => some (iommu, domain)
  | none =>
    match iommu.allocPscid with
    | none => none
    | some (iommu, pscid) =>
      match allocPage iommu.machine with
      | none => none
      | some (machine, root) =>
        let domain := { root := root, pscid := pscid, bdfs := [] }
        some ({ iommu with machine := machine, domains := iommu.domains.insert task domain },
          domain)

/-- Device 0 stands for no device. -/
def mapRangeForCell (iommu : Iommu) (task bdf phys size : Nat) : Option Iommu :=
  match iommu.directory with
  | none => some iommu
  | some directory =>
    match iommu.domainFor task with
    | none => none
    | some (iommu, domain) =>
      match Sv39IommuPt.mapRange domain.root phys size iommu.machine with
      | none => none
      | some machine =>
        if bdf = 0 then some { iommu with machine := machine }
        else
          match Ddt.writeDc directory bdf (fscOf domain.root) domain.pscid machine with
          | none => none
          | some machine =>
            let bdfs := if bdf ∈ domain.bdfs then domain.bdfs else domain.bdfs ++ [bdf]
            some { iommu with
                   machine := machine
                   domains := iommu.domains.insert task { domain with bdfs := bdfs } }

def freePscid (iommu : Iommu) (id : Nat) : Iommu :=
  if id = 0 then iommu else { iommu with pscidFree := id :: iommu.pscidFree }

def unmapCell (iommu : Iommu) (task : Nat) : Option Iommu :=
  match iommu.domains[task]? with
  | none => some iommu
  | some domain =>
    let iommu := { iommu with domains := iommu.domains.erase task }
    match iommu.directory with
    | none => some (iommu.freePscid domain.pscid)
    | some directory =>
      (domain.bdfs.foldlM (fun machine bdf => Ddt.zeroDc directory bdf machine)
        iommu.machine).map (fun machine =>
          { iommu with machine := machine }.freePscid domain.pscid)

end Iommu

end ViCell.Cells

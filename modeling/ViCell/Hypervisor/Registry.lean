import ViCell.Hypervisor.Stage2
import ViCell.Memory.GuestRam

/-!
# VM calls

`create_vm` and `map_guest_memory` with the syscall arms in front of them, and
`Stage2Table::unmap` on a registered VM. The caller holds `HypervisorCap`:
without it a call is refused before it gets here.
-/

namespace ViCell.Hypervisor

open Lib Memory

structure Vm where
  stage2 : Stage2Table
  guestPa : Nat
  guestPages : Nat
  vmid : Nat
  deriving DecidableEq, Repr

/-- A VM is registered under its owner's task id and a per-owner number. -/
abbrev VmKey := Nat × Nat

structure VmState where
  machine : Machine
  vms : List (VmKey × Vm)
  nextVmid : Nat

namespace VmState

def find (state : VmState) (key : VmKey) : Option Vm := state.vms.lookup key

/-- `map.insert` of a key that is not registered (`next_id` never returns one). -/
def insert (state : VmState) (key : VmKey) (vm : Vm) : VmState :=
  { state with vms := (key, vm) :: state.vms }

def modify (state : VmState) (key : VmKey) (vm : Vm) : VmState :=
  { state with vms := state.vms.map (fun entry => if entry.1 = key then (key, vm) else entry) }

def nextId (state : VmState) (owner : Nat) : Nat :=
  (state.vms.filter (fun entry => entry.1.1 = owner)).length + 1

/-- The Stage-2 table with guest RAM and the GIC window mapped, or dropped again. -/
def buildTable (machine : Machine) (table : Stage2Table) (guestPa guestPages : Nat) :
    Machine × Except ViError Stage2Table :=
  let carved := { table with guestRamPa := guestPa, guestRamPages := guestPages }
  match carved.map machine 0x40000000 guestPa guestPages true with
  | (machine, table, .error _) => (table.drop machine, .error .outOfMemory)
  | (machine, table, .ok ()) =>
    match table.mapMmioPassthrough machine 0x08010000 0x08040000 16 false with
    | (machine, table, .error _) => (table.drop machine, .error .outOfMemory)
    | (machine, table, .ok ()) => (machine, .ok table)

/-- The end of `create_vm`: a finished table is registered under a new number. -/
def register (state : VmState) (owner guestPa guestPages : Nat) :
    Machine × Except ViError Stage2Table → VmState × Except ViError Nat
  | (machine, .error error) => ({ state with machine := machine }, .error error)
  | (machine, .ok table) =>
    ({ state with machine := machine, nextVmid := (state.nextVmid + 1) % 2 ^ 16 }.insert
      (owner, state.nextId owner)
      { stage2 := table, guestPa := guestPa, guestPages := guestPages, vmid := state.nextVmid },
      .ok (state.nextId owner))

def createVm (state : VmState) (owner guestPages : Nat) :
    Option (VmState × Except ViError Nat) :=
  match Stage2Table.new state.machine with
  | none => none
  | some (machine, none) => some ({ state with machine := machine }, .error .outOfMemory)
  | some (machine, some table) =>
    match allocateGuestRam machine.allocator guestPages with
    | none => none
    | some (allocator, none) =>
      some ({ state with machine := table.drop { machine with allocator := allocator } },
        .error .outOfMemory)
    | some (allocator, some guestPa) =>
      some (state.register owner guestPa guestPages
        (buildTable { machine with allocator := allocator } table guestPa guestPages))

/-- `Syscall::MapGuestMemory` and `map_guest_memory`. -/
def mapGuestMemory (state : VmState) (owner vmId ipa size : Nat) (writable : Bool) :
    VmState × Except ViError Unit :=
  if 2 ^ 64 ≤ ipa + size then (state, .error .invalidInput)
  else
    match state.find (owner, vmId) with
    | none => (state, .error .notFound)
    | some vm =>
      let pages := (size + pageSize - 1) / pageSize
      match vm.stage2.map state.machine ipa vm.guestPa pages writable with
      | (machine, table, result) =>
        ({ state with machine := machine }.modify (owner, vmId) { vm with stage2 := table },
          match result with
          | .ok () => .ok ()
          | .error _ => .error .outOfMemory)

def unmapGuestMemory (state : VmState) (owner vmId ipa pages : Nat) : VmState :=
  match state.find (owner, vmId) with
  | none => state
  | some vm => { state with machine := vm.stage2.unmap pages ipa state.machine }

end VmState

inductive VmCall where
  | createVm (owner guestPages : Nat)
  | mapGuestMemory (owner vmId ipa size : Nat) (writable : Bool)
  | unmap (owner vmId ipa pages : Nat)
  deriving DecidableEq, Repr

def VmState.step (state : VmState) : VmCall → Option VmState
  | .createVm owner guestPages => (state.createVm owner guestPages).map Prod.fst
  | .mapGuestMemory owner vmId ipa size writable =>
    some (state.mapGuestMemory owner vmId ipa size writable).1
  | .unmap owner vmId ipa pages => some (state.unmapGuestMemory owner vmId ipa pages)

end ViCell.Hypervisor

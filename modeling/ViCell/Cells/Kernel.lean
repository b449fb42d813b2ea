import ViCell.Cells.Iommu
import ViCell.Cells.Tables
import ViCell.Hypervisor.Registry

/-!
# How tasks get resources and how they end

The tables that outlive a syscall, the calls that fill them, and the six ways a
task ends with what each of them cleans up: `Exit`, `ForceExit`, a fault, the
real-time watchdog, heartbeat expiry and the retirement of a hot-swapped cell.
The two kills of the scheduler leave part of their work to the next `yield_cpu`.

`passed` and `openedBy` are ghosts: the ranges a task gave to `GrantDma`, and the
task that opened the capability an id stands for.
-/

namespace ViCell.Cells

open Memory Hypervisor Function

structure TaskIds where
  cellId : Nat
  mmioDevices : Nat
  deriving DecidableEq, Repr

structure CellKernel where
  tasks : Std.TreeMap Nat TaskIds
  nextTaskId : Nat
  currentTask : Nat → Nat
  currentCell : Nat → Nat
  ticks : Nat
  caps : CapTable
  quota : CellQuota
  mmio : MmioRegistry
  bdfOwners : BdfOwners
  iommu : Iommu
  vms : VmState
  pendingGrantReap : List Nat
  passed : Nat → List (Nat × Nat)
  openedBy : Nat → Option Nat

namespace CellKernel

def cellOf (kernel : CellKernel) (task : Nat) : Nat :=
  ((kernel.tasks[task]?).map TaskIds.cellId).getD 0

/-- `Scheduler::spawn` and `spawn_thread`, as `Spawn`, `SpawnFromMem` and the
loader call them: the new task has cell id 0. -/
def spawn (kernel : CellKernel) : CellKernel :=
  { kernel with
    tasks := kernel.tasks.insert kernel.nextTaskId { cellId := 0, mmioDevices := 0 }
    nextTaskId := kernel.nextTaskId + 1 }

def adoptCell (kernel : CellKernel) (task : Nat) : CellKernel :=
  match kernel.tasks[task]? with
  | none => kernel
  | some ids => { kernel with tasks := kernel.tasks.insert task { ids with cellId := task } }

/-- The loader's quota entry, and the device classes of the granted capabilities. -/
def finishCell (kernel : CellKernel) (task devices : Nat) : CellKernel :=
  let kernel := { kernel with quota := kernel.quota.register task CellQuota.defaultQuotaBytes }
  match kernel.tasks[task]? with
  | none => kernel
  | some ids => { kernel with tasks := kernel.tasks.insert task { ids with mmioDevices := devices } }

def dispatch (kernel : CellKernel) (hart task : Nat) : CellKernel :=
  { kernel with
    currentTask := update kernel.currentTask hart task
    currentCell := update kernel.currentCell hart (kernel.cellOf task) }

def openCap (kernel : CellKernel) (caller file : Nat) : CellKernel × Nat :=
  let allocated := kernel.caps.alloc (kernel.cellOf caller) file CapTable.fileRw
  ({ kernel with
      caps := allocated.1
      openedBy := update kernel.openedBy allocated.2 (some caller) },
    allocated.2)

/-- The first half of `ReadCap` and the other calls that do I/O. -/
def beginIo (kernel : CellKernel) (caller id : Nat) : CellKernel × Except ViError Nat :=
  let parked := kernel.caps.parkFile kernel.ticks id (kernel.cellOf caller)
  ({ kernel with caps := parked.1 }, parked.2)

def finishIo (kernel : CellKernel) (id file : Nat) : CellKernel :=
  { kernel with caps := kernel.caps.unparkFile id file }

def closeCap (kernel : CellKernel) (caller id : Nat) : CellKernel × Except ViError Unit :=
  match kernel.caps.verify kernel.ticks id (kernel.cellOf caller) with
  | (caps, .error error) => ({ kernel with caps := caps }, .error error)
  | (caps, .ok ()) => ({ kernel with caps := caps.revoke id }, .ok ())

/-- The region is registered under the caller's task id. -/
def requestMmio (windows : List MmioWindow) (kernel : CellKernel) (caller base length : Nat) :
    CellKernel × Except MmioError Unit :=
  let devices := ((kernel.tasks[caller]?).map TaskIds.mmioDevices).getD 0
  if devices = 0 then (kernel, .error .permissionDenied)
  else
    let requested := Cells.requestMmio windows kernel.mmio caller base length devices
    ({ kernel with mmio := requested.1 }, requested.2)

def claimBdf (kernel : CellKernel) (bdf task : Nat) : CellKernel :=
  { kernel with bdfOwners := registerBdfOwner kernel.bdfOwners bdf task }

/-- `none` is a panic in the IOMMU driver. -/
def grantDma (kernel : CellKernel) (caller bdf phys size : Nat) :
    Option (CellKernel × Except ViError Nat) :=
  if phys % pageSize ≠ 0 ∨ size % pageSize ≠ 0 ∨ size = 0 then
    some (kernel, .error .invalidInput)
  else if 2 ^ 64 ≤ phys + size then some (kernel, .error .invalidInput)
  else if ownerOfBdf kernel.bdfOwners bdf ≠ some caller then
    some (kernel, .error .permissionDenied)
  else if kernel.quota.canMapDma (kernel.cellOf caller) size = false then
    some (kernel, .error .permissionDenied)
  else
    (kernel.iommu.mapRangeForCell caller bdf phys size).map (fun iommu =>
      ({ kernel with
          iommu := iommu
          quota := kernel.quota.recordDmaMapped (kernel.cellOf caller) size
          passed := update kernel.passed caller
            ((phys, size) :: kernel.passed caller) }, .ok phys))

def createVm (kernel : CellKernel) (owner guestPages : Nat) :
    Option (CellKernel × Except ViError Nat) :=
  (kernel.vms.createVm owner guestPages).map (fun (vms, result) =>
    ({ kernel with vms := vms }, result))

def exitTask (kernel : CellKernel) (task : Nat) : CellKernel :=
  { kernel with tasks := kernel.tasks.erase task }

def revokeCaps (kernel : CellKernel) (cell : Nat) : CellKernel :=
  { kernel with caps := kernel.caps.revokeAllFor cell }

/-- Quota and MMIO regions, which all six ways give up under a cell id. -/
def releaseCell (kernel : CellKernel) (cell : Nat) : CellKernel :=
  { kernel with
    quota := kernel.quota.deregister cell
    mmio := releaseFor kernel.mmio cell }

def releaseBdfs (kernel : CellKernel) (task : Nat) : CellKernel :=
  { kernel with bdfOwners := releaseBdfsFor kernel.bdfOwners task }

def cleanupDma (kernel : CellKernel) (domain : Nat) : Option CellKernel :=
  (kernel.iommu.unmapCell domain).map (fun iommu => { kernel with iommu := iommu })

def reapVms (kernel : CellKernel) (task : Nat) : CellKernel :=
  let dead := kernel.vms.vms.filter (fun entry => entry.1.1 = task)
  { kernel with
    vms := { kernel.vms with
        vms := kernel.vms.vms.filter (fun entry => entry.1.1 ≠ task)
        machine := dead.foldl (fun machine entry => entry.2.stage2.drop machine)
          kernel.vms.machine } }

/-- `Exit` and the part of `ForceExit` behind its gates. -/
def exit (kernel : CellKernel) (task : Nat) : Option CellKernel :=
  let cell := kernel.cellOf task
  ((((kernel.exitTask task).revokeCaps cell).releaseCell cell).releaseBdfs task).cleanupDma task

/-- The hart's own record says which task and cell faulted. -/
def fault (kernel : CellKernel) (hart : Nat) : CellKernel :=
  let task := kernel.currentTask hart
  let ended :=
    if 0 < task then
      ((kernel.exitTask task).releaseCell (kernel.currentCell hart)).reapVms task
    else kernel
  { ended with currentCell := update ended.currentCell hart 0 }

/-- The kills of the watchdog and of the heartbeat sweep, on the hart that makes
them; the rest of the clean-up waits for `yield_cpu`. -/
def kill (kernel : CellKernel) (hart task : Nat) : CellKernel :=
  let ended := (kernel.releaseCell (kernel.cellOf task)).exitTask task
  let pending := { ended with pendingGrantReap := ended.pendingGrantReap ++ [task] }
  if kernel.currentTask hart = task then
    { pending with
      currentTask := update pending.currentTask hart 0
      currentCell := update pending.currentCell hart 0 }
  else pending

/-- One task of the list that `yield_cpu` takes over from the kills. -/
def reapKilled (kernel : CellKernel) (task : Nat) : Option CellKernel :=
  ((kernel.releaseBdfs task).cleanupDma task).map (fun kernel => kernel.reapVms task)

def drainKilled (kernel : CellKernel) : Option CellKernel :=
  kernel.pendingGrantReap.foldlM reapKilled { kernel with pendingGrantReap := [] }

/-- `exit_task_internal`: the DMA domain is looked up by the cell id. -/
def retire (kernel : CellKernel) (task cell : Nat) : Option CellKernel :=
  ((((kernel.revokeCaps cell).releaseCell cell).releaseBdfs task).cleanupDma cell).map
    (fun kernel => kernel.exitTask task)

def boot (iommu : Iommu) (vms : VmState) : CellKernel where
  tasks := ∅
  nextTaskId := 1
  currentTask := fun _ => 0
  currentCell := fun _ => 0
  ticks := 0
  caps := { entries := ∅, nextId := 1 }
  quota := { limits := ∅, dmaInUse := fun _ => 0 }
  mmio := ∅
  bdfOwners := ∅
  iommu := iommu
  vms := vms
  pendingGrantReap := []
  passed := fun _ => []
  openedBy := fun _ => none

def live (kernel : CellKernel) (task : Nat) : Bool := (kernel.tasks[task]?).isSome

end CellKernel

inductive CellEvent where
  | spawn
  | adoptCell (task : Nat)
  | finishCell (task devices : Nat)
  | dispatch (hart task : Nat)
  | tick
  | openCap (caller file : Nat)
  | beginIo (caller id : Nat)
  | finishIo (id file : Nat)
  | closeCap (caller id : Nat)
  | requestMmio (caller base length : Nat)
  | claimBdf (bdf task : Nat)
  | grantDma (caller bdf phys size : Nat)
  | createVm (owner guestPages : Nat)
  | exit (task : Nat)
  | fault (hart : Nat)
  | kill (hart task : Nat)
  | drainKilled
  | retire (task cell : Nat)
  deriving DecidableEq, Repr

/-- Calls come from live tasks, and live tasks are scheduled and killed. -/
def CellKernel.step (windows : List MmioWindow) (kernel : CellKernel) :
    CellEvent → Option CellKernel
  | .spawn => some kernel.spawn
  | .adoptCell task => some (kernel.adoptCell task)
  | .finishCell task devices => some (kernel.finishCell task devices)
  | .dispatch hart task => if kernel.live task then some (kernel.dispatch hart task) else none
  | .tick => some { kernel with ticks := kernel.ticks + 1 }
  | .openCap caller file => if kernel.live caller then some (kernel.openCap caller file).1 else none
  | .beginIo caller id => if kernel.live caller then some (kernel.beginIo caller id).1 else none
  | .finishIo id file => some (kernel.finishIo id file)
  | .closeCap caller id => if kernel.live caller then some (kernel.closeCap caller id).1 else none
  | .requestMmio caller base length =>
    if kernel.live caller then some (kernel.requestMmio windows caller base length).1 else none
  | .claimBdf bdf task => if kernel.live task then some (kernel.claimBdf bdf task) else none
  | .grantDma caller bdf phys size =>
    if kernel.live caller then (kernel.grantDma caller bdf phys size).map Prod.fst else none
  | .createVm owner guestPages =>
    if kernel.live owner then (kernel.createVm owner guestPages).map Prod.fst else none
  | .exit task => if kernel.live task then kernel.exit task else none
  | .fault hart => some (kernel.fault hart)
  | .kill hart task => if kernel.live task then some (kernel.kill hart task) else none
  | .drainKilled => kernel.drainKilled
  | .retire task cell => kernel.retire task cell

end ViCell.Cells

import ViCell.Core.Cap
import ViCell.Core.Ready

/-!
# Kernel state

`Kernel` gathers the globals that the modelled functions share: the scheduler's
task table, the per-hart queues and current-task words of `hart_local`, the
death-subscription map, the service registry, the hot-swap freeze set and the
state stash.  The `log` field is a ghost history of what the cells observe; it
is only ever appended to and no definition reads it.
-/

namespace ViCell.Core.State

open Lib Core.Tcb Core.Cap Core.Ready

/-- `smp::HART_RT`, the hart that real-time tasks are directed to. -/
def hartRt : HartId := 1

inductive Observation
  /-- A send syscall entered the kernel. -/
  | sent (ticket : Nat) (sender target : TaskId) (bytes : List Byte)
  /-- Message bytes were written into a receiver's buffer of the given length. -/
  | copied (ticket : Nat) (sender receiver : TaskId) (bytes : List Byte) (bufferLen : Nat)
  /-- A message was accepted into the queue of a frozen task. -/
  | queued (ticket : Nat) (sender target : TaskId) (bytes : List Byte)
  /-- A send syscall returned to its cell. -/
  | sendReturned (ticket : Nat) (sender : TaskId) (a0 : Nat)
  /-- A receive syscall returned to its cell with this buffer content. -/
  | recvReturned (receiver : TaskId) (a0 : Nat) (bytes : List Byte)
  /-- A watcher's subscription was accepted. -/
  | subscribed (watcher watched : TaskId)
  | died (task : TaskId) (reason : Nat)
  /-- A death notice was handed to a watcher's receive call.  `written` says
  whether the reason reached the watcher's buffer. -/
  | notified (watcher dead : TaskId) (reason : Nat) (written : Bool)
  /-- A hot-swap returned: the new task, or nothing after a failure. -/
  | swapReturned (swapId : Nat) (result : Option TaskId)
  deriving DecidableEq, Repr

structure Kernel where
  tasks : IdTable Task
  zombies : List (TaskId × Task)
  pendingGrantReap : List TaskId
  lastGlobalSweepTick : Nat
  ready : HartId → PriorityFifo TaskId
  current : HartId → TaskId
  currentCell : HartId → CellId
  rtHartOnline : Bool
  deathSubscribers : TaskId → List TaskId
  registry : List (Nat × TaskId)
  inputCell : TaskId
  frozenCells : List CellId
  stash : List (Nat × List Byte)
  swapIdCounter : Nat
  policy : PolicyState
  ticks : Nat
  netRxPending : Bool
  /-- Contents of the memory behind the receive buffer a task last passed in. -/
  receiveMemory : TaskId → List Byte
  nextTicket : Nat
  log : List Observation

/-- The state the boot code leaves behind before the first spawn. -/
def boot : Kernel where
  tasks := IdTable.empty 1
  zombies := []
  pendingGrantReap := []
  lastGlobalSweepTick := 0
  ready := fun _ => PriorityFifo.empty
  current := fun _ => 0
  currentCell := fun _ => 0
  rtHartOnline := false
  deathSubscribers := fun _ => []
  registry := []
  inputCell := 0
  frozenCells := []
  stash := []
  swapIdCounter := 1
  policy := .absent
  ticks := 0
  netRxPending := false
  receiveMemory := fun _ => []
  nextTicket := 0
  log := []

def modifyTask (kernel : Kernel) (id : TaskId) (change : Task → Task) : Kernel :=
  { kernel with tasks := kernel.tasks.modify id change }

def setState (kernel : Kernel) (id : TaskId) (state : TaskState) : Kernel :=
  modifyTask kernel id (fun task => { task with state := state })

def observe (kernel : Kernel) (observation : Observation) : Kernel :=
  { kernel with log := observation :: kernel.log }

def anyHartRunning (kernel : Kernel) (id : TaskId) : Bool :=
  kernel.current 0 == id || kernel.current 1 == id

/-- The queue update of `Scheduler::push_ready` as called on `hart`: real-time
tasks go to the real-time hart when it is online. -/
def enqueue (kernel : Kernel) (hart : HartId) (ready : ReadyQueues) (id : TaskId) :
    ReadyQueues :=
  let priority := ((kernel.tasks.get id).map Task.priority).getD priorityNormal
  let targetHart := if priorityRealTime ≤ priority ∧ kernel.rtHartOnline then hartRt else hart
  pushOnHart ready targetHart id priority

def pushReady (kernel : Kernel) (hart : HartId) (id : TaskId) : Kernel :=
  { kernel with ready := enqueue kernel hart kernel.ready id }

def pushAllReady (kernel : Kernel) (hart : HartId) (ids : List TaskId) : Kernel :=
  { kernel with ready := ids.foldl (enqueue kernel hart) kernel.ready }

def queued (kernel : Kernel) : List TaskId :=
  queuedIn kernel.ready

theorem enqueue_perm (kernel : Kernel) (hart : HartId) (ready : ReadyQueues) (id : TaskId) :
    (queuedIn (enqueue kernel hart ready id)).Perm (id :: queuedIn ready) :=
  push_on_hart_perm ready _ id _

theorem queued_push_ready (kernel : Kernel) (hart : HartId) (id : TaskId) :
    (queued (pushReady kernel hart id)).Perm (id :: queued kernel) :=
  enqueue_perm kernel hart kernel.ready id

theorem fold_enqueue_perm (kernel : Kernel) (hart : HartId) (ids : List TaskId)
    (ready : ReadyQueues) :
    (queuedIn (ids.foldl (enqueue kernel hart) ready)).Perm (ids ++ queuedIn ready) := by
  induction ids generalizing ready with
  | nil => exact List.Perm.refl _
  | cons id rest ih =>
    have later := ih (enqueue kernel hart ready id)
    have here := (enqueue_perm kernel hart ready id).append_left rest
    exact later.trans (here.trans List.perm_middle)

theorem queued_push_all_ready (kernel : Kernel) (hart : HartId) (ids : List TaskId) :
    (queued (pushAllReady kernel hart ids)).Perm (ids ++ queued kernel) :=
  fold_enqueue_perm kernel hart ids kernel.ready

end ViCell.Core.State

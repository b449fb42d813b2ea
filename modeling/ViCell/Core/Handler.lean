import ViCell.Core.Cap

/-!
# Syscalls and suspended handlers

A handler takes the scheduler lock several times and may give up the CPU in
between.  What it still has to do is the task's `Frame`, the part of its kernel
stack that later steps depend on.  Each constructor is a point at which the
handler holds no lock, so the other hart may run there.
-/

namespace ViCell.Core.Handler

open Core.Tcb Core.Cap

structure UserBuffer where
  ptr : Nat
  bytes : List Byte
  deriving DecidableEq, Repr

/-- What the loader finds behind a path: the capabilities its manifest (or the
legacy path table) requests, its syscall allowlist, and whether its relocations
apply. -/
structure Image where
  requested : CapSet
  allowlist : BitVec 64
  relocationsOk : Bool
  deriving DecidableEq, Repr

/-- Syscalls with an effect on tasks, IPC, lifecycle or hot-swap.  Buffers are
passed by content and `load` is what reading the path yields, `none` for every
failure before a task exists.  Deadlines are absolute ticks. -/
inductive Syscall
  | send (target : TaskId) (bytes : List Byte)
  | recv (mask : Nat) (buffer : UserBuffer)
  | sendGather (target : TaskId) (segments : List (List Byte))
  | recvScatter (mask : Nat) (segments : List (List Byte))
  | recvTimeout (mask : Nat) (buffer : UserBuffer) (deadline : Nat)
  | tryRecv (mask : Nat) (buffer : UserBuffer)
  | reply (result : Nat)
  | spawn
  | wait (pid : TaskId)
  | futexWait (addr value observed : Nat)
  | futexWake (addr count : Nat)
  | exit (code : Nat)
  | forceExit (tid : TaskId)
  | capRevoke (target : TaskId) (mask : BitVec 32)
  | notifyOnExit (watched : TaskId)
  | registerService (serviceId : Nat) (tid : TaskId)
  | lookupService (serviceId : Nat)
  | heartbeat (interval : Nat)
  | yieldNow
  | setTimer (delay : Nat)
  | waitForEvent (mask : Nat) (deadline : Option Nat)
  | stateStash (key : Nat) (bytes : List Byte)
  | spawnFromMem (valid : Bool)
  | spawnFromPath (path : String) (load : Option Image)
  | spawnPinned (path : String) (load : Option Image) (priority coreId : Nat)
  | hotSwap (cellId : CellId) (path : String) (load : Option Image)
  | hotSwapReady
  deriving DecidableEq, Repr

/-- The locals of one run of the hot-swap orchestrator. -/
structure Swap where
  oldCell : CellId
  path : String
  load : Option Image
  ceiling : CapSet
  swapId : Nat
  oldTid : TaskId
  deriving DecidableEq, Repr

inductive AfterSpawn
  | returnTid
  | setPriority (priority : Nat)
  | restore (swap : Swap)
  deriving DecidableEq, Repr

structure SpawnJob where
  spawner : Spawner
  path : String
  image : Image
  after : AfterSpawn
  deriving DecidableEq, Repr

/-- Where a handler continues once `yield_cpu` returns. -/
inductive Resume
  | send (ticket : Nat)
  | recv (ptr : Nat)
  | recvTimeout
  | wait
  | returnZero
  | waitEvent
  | stashPoll (swap : Swap) (deadline : Nat)
  | readyPoll (swap : Swap) (newTid : TaskId) (deadline : Nat)
  deriving DecidableEq, Repr

inductive Frame
  /-- Executing cell code. -/
  | user
  /-- Past the dispatcher, before the handler's first section. -/
  | dispatch (call : Syscall)
  /-- About to call `yield_cpu`. -/
  | yielding (resume : Resume)
  /-- Switched away inside `yield_cpu`. -/
  | suspended (resume : Resume)
  | recvMessages (mask : Nat) (ptr len : Nat)
  | recvBlock (mask : Nat) (ptr len : Nat)
  | armTimeout (deadline : Nat)
  | subscribe (watched : TaskId)
  | memWire (tid : TaskId)
  | spawnCreate (job : SpawnJob)
  | spawnWire (job : SpawnJob) (tid : TaskId)
  | spawnRelocate (job : SpawnJob) (tid : TaskId)
  | spawnAllowlist (job : SpawnJob) (tid : TaskId)
  | spawnCeiling (job : SpawnJob) (tid : TaskId)
  | spawnGrant (job : SpawnJob) (tid : TaskId) (granted : CapSet)
  | spawnPriority (tid : TaskId) (priority : Nat)
  | swapCeiling (cellId : CellId) (path : String) (load : Option Image)
  | swapFind (cellId : CellId) (path : String) (load : Option Image) (ceiling : CapSet)
  | swapFreeze (swap : Swap)
  | swapClearRegistry (swap : Swap)
  | swapSnapshot (swap : Swap)
  | swapAbort (swap : Swap)
  | swapStashCheck (swap : Swap) (deadline : Nat)
  | swapHardFreeze (swap : Swap)
  | swapSpawn (swap : Swap)
  | swapUnfreeze (swap : Swap)
  | swapRollback (swap : Swap)
  | swapRestore (swap : Swap) (newTid : TaskId)
  | swapReadyCheck (swap : Swap) (newTid : TaskId) (deadline : Nat)
  | swapThaw (swap : Swap) (newTid : TaskId)
  | swapTake (swap : Swap) (newTid : TaskId)
  | swapDrain (swap : Swap) (newTid : TaskId) (pending : List PendingMsg)
  | swapDeliver (swap : Swap) (newTid : TaskId) (head : PendingMsg) (pending : List PendingMsg)
  | swapExit (swap : Swap) (newTid : TaskId)
  | swapFinish (swap : Swap) (newTid : TaskId)
  deriving DecidableEq, Repr

end ViCell.Core.Handler

import ViCell.Api
import ViCell.Lib.IdTable

/-!
# Task control blocks

The part of `task/tcb.rs` and `task/cap.rs` that scheduling, IPC, lifecycle and
hot-swap read or write.  `usize` and `u64` values are natural numbers.  What
matters as a machine word is `usizeMax`, the failure value of the syscall ABI and
the exit reason of a killed task, and the tick arithmetic, which wraps.

Message buffers are modelled by their contents.  A sender is suspended inside
the kernel while its buffer is recorded in `TaskState.sending`, so the bytes
behind the pointer are those it passed.  `Message.ticket` is a ghost identity:
no definition branches on it.
-/

namespace ViCell.Core.Tcb

abbrev TaskId := Nat

abbrev CellId := Nat

/-- Addition to the tick counter, for the counter itself and for deadlines. -/
def tickAdd (ticks delay : Nat) : Nat :=
  (ticks + delay) % 2 ^ 64

/-- Whether a buffer lives in the caller's memory or in the kernel's own frame. -/
inductive Site
  | user
  | kernel
  deriving DecidableEq, Repr

structure Message where
  ticket : Nat
  site : Site
  bytes : List Byte
  deriving DecidableEq, Repr

structure Buffer where
  site : Site
  len : Nat
  deriving DecidableEq, Repr

inductive TaskState
  | ready
  | running
  | sleeping (wakeAt : Nat)
  | sending (target : TaskId) (message : Message)
  | recv (mask : Nat) (buffer : Buffer) (deadline : Option Nat)
  | terminated
  | futexWait (addr : Nat)
  | waiting (target : TaskId)
  | polling
  | waitEvent (mask : Nat) (deadline : Option Nat)
  | frozen (swapId : Nat)
  deriving DecidableEq, Repr

def TaskState.isRecv : TaskState → Bool
  | .recv _ _ _ => true
  | _ => false

def TaskState.isFrozen : TaskState → Bool
  | .frozen _ => true
  | _ => false

def TaskState.sendTarget : TaskState → Option TaskId
  | .sending target _ => some target
  | _ => none

def hotswapMsgQueueDepth : Nat := 64

structure PendingMsg where
  senderTid : TaskId
  message : Message
  enqueuedTick : Nat
  deriving DecidableEq, Repr

/-- `api::TaskPriority`, stored in the control block as a plain `u8`. -/
def priorityBackground : Nat := 0

def priorityNormal : Nat := 1

def priorityRealTime : Nat := 2

structure Task where
  cellId : CellId
  state : TaskState
  /-- The control block's copy of `trap_frame.regs[10]`.  The dispatcher returns
  results through the frame on the kernel stack; only `WaitForEvent` reads this. -/
  a0 : Nat
  currentCaller : Option TaskId
  replyValue : Option Nat
  waiters : List TaskId
  exitCode : Option Nat
  pendingDeaths : List (TaskId × Nat)
  pendingExitReason : Option Nat
  blockIoCap : Bool
  networkCap : Bool
  spawnCap : Bool
  hypervisorCap : Bool
  mmioDevices : BitVec 8
  blockRegions : BitVec 8
  priority : Nat
  syscallAllowlist : BitVec 64
  runTicks : Nat
  deadlineMisses : Nat
  rtOverrunWarned : Bool
  heartbeatDeadline : Option Nat
  hotswapReady : Bool
  pendingMsgs : List PendingMsg
  deriving DecidableEq, Repr

/-- `Task::new`, restricted to the modelled fields. -/
def Task.new (cellId : CellId) : Task where
  cellId := cellId
  state := .ready
  a0 := 0
  currentCaller := none
  replyValue := none
  waiters := []
  exitCode := none
  pendingDeaths := []
  pendingExitReason := none
  blockIoCap := false
  networkCap := false
  spawnCap := false
  hypervisorCap := false
  mmioDevices := 0
  blockRegions := 0
  priority := priorityNormal
  syscallAllowlist := BitVec.allOnes 64
  runTicks := 0
  deadlineMisses := 0
  rtOverrunWarned := false
  heartbeatDeadline := none
  hotswapReady := false
  pendingMsgs := []

def saturatingSucc (count : Nat) : Nat :=
  min (count + 1) (2 ^ 32 - 1)

/-- `copy_nonoverlapping(src, dst, min(src_len, dst_len))`: the destination keeps
its length, its head is replaced and its tail survives. -/
def copyInto (source target : List Byte) : List Byte :=
  source.take target.length ++ target.drop source.length

/-- The eight little-endian bytes of a `u64`. -/
def toLeBytes (value : Nat) : List Byte :=
  (List.range 8).map (fun index => BitVec.ofNat 8 (value / 256 ^ index))

end ViCell.Core.Tcb

import ViCell.Core.Transitions

/-!
# What one step does to the suspended handlers

Only the task a hart is executing moves on in its handler; every other frame
stays as it is.
-/

namespace ViCell.Core.FrameSteps

open Lib Core.Tcb Core.Cap Core.Ready Core.State Core.Scheduler Core.Ipc Core.Handler Core.HotSwap
open Core.Machine Core.Effects Core.Transitions

/-- Where the first section of a handler can leave it, other than back in its cell. -/
inductive Entered (kernel : Kernel) (caller : TaskId) : Syscall → Frame → Prop
  | send (target : TaskId) (bytes : List Byte) (blocks : SendBlocks kernel target) :
      Entered kernel caller (.send target bytes) (.yielding (.send kernel.nextTicket))
  | recv (mask : Nat) (buffer : UserBuffer) :
      Entered kernel caller (.recv mask buffer)
        (.recvMessages mask buffer.ptr buffer.bytes.length)
  | recvTimeout (mask : Nat) (buffer : UserBuffer) (deadline : Nat) :
      Entered kernel caller (.recvTimeout mask buffer deadline) (.armTimeout deadline)
  | wait (pid : TaskId) : Entered kernel caller (.wait pid) (.yielding .wait)
  | futexWait (addr value observed : Nat) :
      Entered kernel caller (.futexWait addr value observed) (.yielding .returnZero)
  | notifyOnExit (watched : TaskId) :
      Entered kernel caller (.notifyOnExit watched) (.subscribe watched)
  | yieldNow : Entered kernel caller .yieldNow (.yielding .returnZero)
  | setTimer (delay : Nat) : Entered kernel caller (.setTimer delay) (.yielding .returnZero)
  | waitForEvent (mask : Nat) (deadline : Option Nat) :
      Entered kernel caller (.waitForEvent mask deadline) (.yielding .waitEvent)
  | spawnFromMem : Entered kernel caller (.spawnFromMem true) (.memWire kernel.tasks.next)
  | spawnFromPath (path : String) (image : Image) :
      Entered kernel caller (.spawnFromPath path (some image))
        (.spawnCreate ⟨.user caller, path, image, .returnTid⟩)
  | spawnPinned (path : String) (image : Image) (priority coreId : Nat) :
      Entered kernel caller (.spawnPinned path (some image) priority coreId)
        (.spawnCreate ⟨.user caller, path, image, .setPriority (priority % 256)⟩)
  | hotSwap (cellId : CellId) (path : String) (load : Option Image) :
      Entered kernel caller (.hotSwap cellId path load) (.swapCeiling cellId path load)

theorem enter_frame (kernel : Kernel) (hart : HartId) (caller : TaskId) (call : Syscall) :
    (enterSyscall kernel hart caller call).2 = .user ∨
      Entered kernel caller call (enterSyscall kernel hart caller call).2 := by
  cases call with
  | send target bytes =>
    rcases ipc_send_cases (openSend kernel caller target bytes) hart caller target
        ⟨kernel.nextTicket, .user, bytes⟩ with
      refused | ⟨receiver, swapId, -, -, -, queues⟩ |
        ⟨receiver, mask, buf, deadline, -, -, delivers⟩ | ⟨blocks, blocked⟩
    · left
      simp only [enterSyscall, sendCall, refused]
      rfl
    · left
      simp only [enterSyscall, sendCall, queues]
      rfl
    · left
      simp only [enterSyscall, sendCall, delivers]
      rfl
    · right
      simp only [enterSyscall, sendCall, blocked]
      exact .send target bytes blocks
  | recv mask buf =>
    simp only [enterSyscall, recvCall]
    split
    · exact Or.inl rfl
    · exact Or.inr (.recv mask buf)
  | sendGather =>
    left
    simp only [enterSyscall, sendGatherCall]
    split <;> rfl
  | recvScatter =>
    left
    simp only [enterSyscall, recvScatterCall]
    split <;> rfl
  | recvTimeout mask buf deadline =>
    simp only [enterSyscall, recvTimeoutCall]
    split
    · exact Or.inr (.recvTimeout mask buf deadline)
    · exact Or.inl rfl
  | wait pid =>
    simp only [enterSyscall, waitCall]
    split
    · exact Or.inl rfl
    · split
      · exact Or.inl rfl
      · exact Or.inr (.wait pid)
  | futexWait addr value observed =>
    simp only [enterSyscall]
    split
    · exact Or.inr (.futexWait addr value observed)
    · exact Or.inl rfl
  | forceExit =>
    left
    simp only [enterSyscall, forceExitCall]
    split
    · rfl
    · split
      · rfl
      · split <;> rfl
  | capRevoke =>
    left
    simp only [enterSyscall, capRevokeCall]
    split
    · rfl
    · split
      · rfl
      · split <;> rfl
  | notifyOnExit watched =>
    simp only [enterSyscall, notifyOnExitCall]
    split
    · exact Or.inl rfl
    · split
      · exact Or.inr (.notifyOnExit watched)
      · exact Or.inl rfl
  | registerService =>
    left
    simp only [enterSyscall, registerServiceCall]
    split
    · split <;> rfl
    · rfl
  | yieldNow => exact Or.inr .yieldNow
  | setTimer delay => exact Or.inr (.setTimer delay)
  | waitForEvent mask deadline =>
    simp only [enterSyscall, waitForEventCall]
    split
    · exact Or.inl rfl
    · exact Or.inr (.waitForEvent mask deadline)
  | spawnFromMem valid =>
    cases valid with
    | true => exact Or.inr .spawnFromMem
    | false => exact Or.inl rfl
  | spawnFromPath path =>
    simp only [enterSyscall, spawnPathCall]
    split
    · split
      · exact Or.inr (.spawnFromPath path _)
      · exact Or.inl rfl
    · exact Or.inl rfl
  | spawnPinned path _ priority coreId =>
    simp only [enterSyscall, spawnPathCall]
    split
    · exact Or.inl rfl
    · split
      · split
        · exact Or.inr (.spawnPinned path _ priority coreId)
        · exact Or.inl rfl
      · exact Or.inl rfl
  | hotSwap cellId path load =>
    simp only [enterSyscall]
    split
    · exact Or.inr (.hotSwap cellId path load)
    · exact Or.inl rfl
  | _ => exact Or.inl rfl

/-- Where a handler goes when the task it has created for `job` cannot be completed. -/
def afterFailure (job : SpawnJob) : Frame :=
  match job.after with
  | .restore swap => .swapUnfreeze swap
  | _ => .user

def afterGrant (job : SpawnJob) (tid : TaskId) : Frame :=
  match job.after with
  | .returnTid => .user
  | .setPriority priority => .spawnPriority tid priority
  | .restore swap => .swapRestore swap tid

/-- The control flow of the handlers: where one more section can lead. -/
inductive Follows (kernel : Kernel) (caller : TaskId) : Frame → Frame → Prop
  | entered (call : Syscall) (frame : Frame) (enters : Entered kernel caller call frame) :
      Follows kernel caller (.dispatch call) frame
  | returned (call : Syscall) : Follows kernel caller (.dispatch call) .user
  | switched (resume : Resume) :
      Follows kernel caller (.yielding resume) (.suspended resume)
  | resumed (resume : Resume) : Follows kernel caller (.suspended resume) .user
  | stashPolled (swap : Swap) (deadline : Nat) :
      Follows kernel caller (.suspended (.stashPoll swap deadline))
        (.swapStashCheck swap deadline)
  | readyPolled (swap : Swap) (newTid : TaskId) (deadline : Nat) :
      Follows kernel caller (.suspended (.readyPoll swap newTid deadline))
        (.swapReadyCheck swap newTid deadline)
  | popped (mask ptr len : Nat) : Follows kernel caller (.recvMessages mask ptr len) .user
  | unbuffered (mask ptr len : Nat) :
      Follows kernel caller (.recvMessages mask ptr len) (.recvBlock mask ptr len)
  | accepted (mask ptr len : Nat) : Follows kernel caller (.recvBlock mask ptr len) .user
  | parked (mask ptr len : Nat) :
      Follows kernel caller (.recvBlock mask ptr len) (.yielding (.recv ptr))
  | armed (deadline : Nat) :
      Follows kernel caller (.armTimeout deadline) (.yielding .recvTimeout)
  | subscribed (watched : TaskId) : Follows kernel caller (.subscribe watched) .user
  | wired (tid : TaskId) : Follows kernel caller (.memWire tid) .user
  | created (job : SpawnJob) :
      Follows kernel caller (.spawnCreate job) (.spawnWire job kernel.tasks.next)
  | found (job : SpawnJob) (tid : TaskId) :
      Follows kernel caller (.spawnWire job tid) (.spawnRelocate job tid)
  | vanished (job : SpawnJob) (tid : TaskId) :
      Follows kernel caller (.spawnWire job tid) (afterFailure job)
  | relocated (job : SpawnJob) (tid : TaskId) :
      Follows kernel caller (.spawnRelocate job tid) (.spawnAllowlist job tid)
  | unrelocatable (job : SpawnJob) (tid : TaskId) :
      Follows kernel caller (.spawnRelocate job tid) (afterFailure job)
  | restricted (job : SpawnJob) (tid : TaskId) :
      Follows kernel caller (.spawnAllowlist job tid) (.spawnCeiling job tid)
  | bounded (job : SpawnJob) (tid : TaskId) :
      Follows kernel caller (.spawnCeiling job tid)
        (.spawnGrant job tid (grantFor kernel job))
  | granted (job : SpawnJob) (tid : TaskId) (caps : CapSet) :
      Follows kernel caller (.spawnGrant job tid caps) (afterGrant job tid)
  | prioritised (tid : TaskId) (priority : Nat) :
      Follows kernel caller (.spawnPriority tid priority) .user
  | swapBounded (cellId : CellId) (path : String) (load : Option Image) (ceiling : CapSet) :
      Follows kernel caller (.swapCeiling cellId path load)
        (.swapFind cellId path load ceiling)
  | swapMissing (cellId : CellId) (path : String) (load : Option Image) (ceiling : CapSet) :
      Follows kernel caller (.swapFind cellId path load ceiling) .user
  | swapFound (cellId : CellId) (path : String) (load : Option Image) (ceiling : CapSet)
      (oldTid : TaskId) (named : findTidForCell kernel.tasks cellId = some oldTid) :
      Follows kernel caller (.swapFind cellId path load ceiling)
        (.swapFreeze ⟨cellId, path, load, ceiling, kernel.swapIdCounter, oldTid⟩)
  | swapListed (swap : Swap) :
      Follows kernel caller (.swapFreeze swap) (.swapClearRegistry swap)
  | swapCleared (swap : Swap) :
      Follows kernel caller (.swapClearRegistry swap) (.swapSnapshot swap)
  | swapSignalled (swap : Swap) (deadline : Nat) :
      Follows kernel caller (.swapSnapshot swap) (.swapStashCheck swap deadline)
  | swapRefused (swap : Swap) : Follows kernel caller (.swapSnapshot swap) (.swapAbort swap)
  | swapAborted (swap : Swap) : Follows kernel caller (.swapAbort swap) .user
  | swapStashed (swap : Swap) (deadline : Nat) :
      Follows kernel caller (.swapStashCheck swap deadline) (.swapHardFreeze swap)
  | swapAwaitsStash (swap : Swap) (deadline : Nat) :
      Follows kernel caller (.swapStashCheck swap deadline)
        (.yielding (.stashPoll swap deadline))
  | swapFrozen (swap : Swap) :
      Follows kernel caller (.swapHardFreeze swap) (.swapSpawn swap)
  | swapLoaded (swap : Swap) (image : Image) (loads : swap.load = some image) :
      Follows kernel caller (.swapSpawn swap)
        (.spawnCreate ⟨.ceiling swap.ceiling, swap.path, image, .restore swap⟩)
  | swapUnloadable (swap : Swap) (missing : swap.load = none) :
      Follows kernel caller (.swapSpawn swap) (.swapUnfreeze swap)
  | swapUnlisted (swap : Swap) :
      Follows kernel caller (.swapUnfreeze swap) (.swapRollback swap)
  | swapRolledBack (swap : Swap) : Follows kernel caller (.swapRollback swap) .user
  | swapRestored (swap : Swap) (newTid : TaskId) (deadline : Nat) :
      Follows kernel caller (.swapRestore swap newTid) (.swapReadyCheck swap newTid deadline)
  | swapUnrestored (swap : Swap) (newTid : TaskId) :
      Follows kernel caller (.swapRestore swap newTid) .user
  | swapReady (swap : Swap) (newTid : TaskId) (deadline : Nat) :
      Follows kernel caller (.swapReadyCheck swap newTid deadline) (.swapThaw swap newTid)
  | swapTimedOut (swap : Swap) (newTid : TaskId) (deadline : Nat) :
      Follows kernel caller (.swapReadyCheck swap newTid deadline) .user
  | swapAwaitsReady (swap : Swap) (newTid : TaskId) (deadline : Nat) :
      Follows kernel caller (.swapReadyCheck swap newTid deadline)
        (.yielding (.readyPoll swap newTid deadline))
  | swapThawed (swap : Swap) (newTid : TaskId) :
      Follows kernel caller (.swapThaw swap newTid) (.swapTake swap newTid)
  | swapTaken (swap : Swap) (newTid : TaskId) :
      Follows kernel caller (.swapTake swap newTid)
        (.swapDrain swap newTid (takePending kernel swap.oldTid).2)
  | swapDrained (swap : Swap) (newTid : TaskId) :
      Follows kernel caller (.swapDrain swap newTid []) (.swapExit swap newTid)
  | swapDelivers (swap : Swap) (newTid : TaskId) (head : PendingMsg) (pending : List PendingMsg) :
      Follows kernel caller (.swapDrain swap newTid (head :: pending))
        (.swapDeliver swap newTid head pending)
  | swapDrops (swap : Swap) (newTid : TaskId) (head : PendingMsg) (pending : List PendingMsg)
      (busy : (kernel.tasks.get newTid).any (fun task => task.state.isRecv) = false) :
      Follows kernel caller (.swapDrain swap newTid (head :: pending))
        (.swapDrain swap newTid pending)
  | swapDelivered (swap : Swap) (newTid : TaskId) (head : PendingMsg)
      (pending : List PendingMsg) :
      Follows kernel caller (.swapDeliver swap newTid head pending)
        (.swapDrain swap newTid pending)
  | swapExited (swap : Swap) (newTid : TaskId) :
      Follows kernel caller (.swapExit swap newTid) (.swapFinish swap newTid)
  | swapFinished (swap : Swap) (newTid : TaskId) :
      Follows kernel caller (.swapFinish swap newTid) .user

theorem advance_follows (kernel : Kernel) (hart : HartId) (caller : TaskId) {frame : Frame}
    (inside : frame ≠ .user) :
    Follows kernel caller frame (advance kernel hart caller frame).2 := by
  cases frame with
  | user => exact absurd rfl inside
  | dispatch call =>
    rcases enter_frame kernel hart caller call with returned | enters
    · simp only [advance, returned]
      exact .returned call
    · exact .entered call _ enters
  | yielding resume => exact .switched resume
  | suspended resume =>
    cases resume with
    | stashPoll swap deadline => exact .stashPolled swap deadline
    | readyPoll swap newTid deadline => exact .readyPolled swap newTid deadline
    | recv ptr =>
      have returned : (advance kernel hart caller (.suspended (.recv ptr))).2 = .user := by
        simp only [advance, resumeSyscall]
        split <;> rfl
      rw [returned]
      exact .resumed _
    | _ => exact .resumed _
  | recvMessages mask ptr len =>
    simp only [advance, recvMessages]
    split
    · exact .popped mask ptr len
    · exact .unbuffered mask ptr len
  | recvBlock mask ptr len =>
    simp only [advance, recvBlock]
    split
    · exact .parked mask ptr len
    · exact .accepted mask ptr len
  | armTimeout deadline => exact .armed deadline
  | subscribe watched => exact .subscribed watched
  | memWire tid => exact .wired tid
  | spawnCreate job => exact .created job
  | spawnWire job tid =>
    simp only [advance]
    split
    · exact .found job tid
    · exact .vanished job tid
  | spawnRelocate job tid =>
    simp only [advance]
    split
    · exact .relocated job tid
    · exact .unrelocatable job tid
  | spawnAllowlist job tid => exact .restricted job tid
  | spawnCeiling job tid => exact .bounded job tid
  | spawnGrant job tid caps => exact .granted job tid caps
  | spawnPriority tid priority => exact .prioritised tid priority
  | swapCeiling cellId path load => exact .swapBounded cellId path load _
  | swapFind cellId path load ceiling =>
    simp only [advance, advanceSwap]
    split
    · exact .swapMissing cellId path load ceiling
    · rename_i oldTid named
      exact .swapFound cellId path load ceiling oldTid named
  | swapFreeze swap => exact .swapListed swap
  | swapClearRegistry swap => exact .swapCleared swap
  | swapSnapshot swap =>
    simp only [advance, advanceSwap]
    split
    · exact .swapSignalled swap _
    · exact .swapRefused swap
  | swapAbort swap => exact .swapAborted swap
  | swapStashCheck swap deadline =>
    simp only [advance, advanceSwap]
    split
    · exact .swapStashed swap deadline
    · exact .swapAwaitsStash swap deadline
  | swapHardFreeze swap => exact .swapFrozen swap
  | swapSpawn swap =>
    simp only [advance, advanceSwap]
    split
    · rename_i image loads
      exact .swapLoaded swap image loads
    · rename_i gone
      exact .swapUnloadable swap gone
  | swapUnfreeze swap => exact .swapUnlisted swap
  | swapRollback swap => exact .swapRolledBack swap
  | swapRestore swap newTid =>
    simp only [advance, advanceSwap]
    split
    · exact .swapRestored swap newTid _
    · exact .swapUnrestored swap newTid
  | swapReadyCheck swap newTid deadline =>
    simp only [advance, advanceSwap]
    split
    · exact .swapReady swap newTid deadline
    · split
      · exact .swapTimedOut swap newTid deadline
      · exact .swapAwaitsReady swap newTid deadline
  | swapThaw swap newTid => exact .swapThawed swap newTid
  | swapTake swap newTid => exact .swapTaken swap newTid
  | swapDrain swap newTid pending =>
    cases pending with
    | nil => exact .swapDrained swap newTid
    | cons head pending =>
      simp only [advance, advanceSwap]
      split
      · exact .swapDelivers swap newTid head pending
      · rename_i busy
        exact .swapDrops swap newTid head pending (by simpa using busy)
  | swapDeliver swap newTid head pending => exact .swapDelivered swap newTid head pending
  | swapExit swap newTid => exact .swapExited swap newTid
  | swapFinish swap newTid => exact .swapFinished swap newTid

theorem executing_live {system : System} {hart : HartId} {tid : TaskId}
    (runs : executing system hart = some tid) :
    system.kernel.current hart = tid ∧ tid ≠ 0 ∧ ∃ task, system.kernel.tasks.get tid = some task := by
  obtain ⟨task, found, same⟩ := Option.map_eq_some_iff.mp runs
  subst same
  refine ⟨rfl, ?_, task, current_task_get found⟩
  intro idle
  unfold currentTask at found
  rw [if_pos idle] at found
  cases found

theorem frame_step {was after : System} {event : Event}
    (ran : step was event = some after) (id : TaskId) :
    after.frames id = was.frames id ∨
      (∃ hart call, event = .syscall hart call ∧ executing was hart = some id ∧
        after.frames id = .dispatch call) ∨
      ∃ hart, event = .proceed hart ∧ executing was hart = some id ∧ was.frames id ≠ .user ∧
        after = enter was id (advance was.kernel hart id (was.frames id)) := by
  cases step_shape ran with
  | enters hart owner call runs =>
    by_cases mine : id = owner
    · subst mine
      exact Or.inr (Or.inl ⟨hart, call, rfl, runs, Function.update_self _ _ _⟩)
    · exact Or.inl (Function.update_of_ne mine _ _)
  | proceeds hart owner runs inside =>
    by_cases mine : id = owner
    · subst mine
      exact Or.inr (Or.inr ⟨hart, rfl, runs, inside, rfl⟩)
    · exact Or.inl (Function.update_of_ne mine _ _)
  | _ => exact Or.inl rfl

end ViCell.Core.FrameSteps

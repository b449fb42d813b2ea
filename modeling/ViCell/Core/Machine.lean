import ViCell.Core.HotSwap

/-!
# The kernel as a transition system

`handle_syscall` and `hotswap` cut at their lock boundaries.  A step of a hart is
one section that holds the scheduler lock (or touches one leaf lock) on behalf
of the hart's current task; sections of the two harts interleave freely.
Interrupts are off inside a handler, so timer preemption only happens while a
hart executes cell code or idles.

The syscall allowlist is checked before any of these sections: a denied call
returns the failure value and changes nothing.
-/

namespace ViCell.Core.Machine

open Lib Core.Tcb Core.Cap Core.Ready Core.State Core.Scheduler Core.Ipc Core.Handler Core.HotSwap
open CapSet

def maxUserBuf : Nat := 64 * 1024 * 1024

def maxIovec : Nat := 8

def validateUserBuf (ptr len max : Nat) : Bool :=
  decide (ptr ≠ 0) && decide (len ≤ max) && decide (ptr + len < 2 ^ 64)

def callerHasSpawn (kernel : Kernel) (caller : TaskId) : Bool :=
  (kernel.tasks.get caller).any Task.spawnCap

def openSend (kernel : Kernel) (caller target : TaskId) (bytes : List Byte) : Kernel :=
  observe { kernel with nextTicket := kernel.nextTicket + 1 }
    (.sent kernel.nextTicket caller target bytes)

def openRecv (kernel : Kernel) (caller : TaskId) (bytes : List Byte) : Kernel :=
  { kernel with receiveMemory := Function.update kernel.receiveMemory caller bytes }

def returnSend (kernel : Kernel) (ticket : Nat) (caller : TaskId) (value : Nat) :
    Kernel × Frame :=
  (observe kernel (.sendReturned ticket caller value), .user)

def returnRecv (kernel : Kernel) (caller : TaskId) (value : Nat) : Kernel × Frame :=
  (observe kernel (.recvReturned caller value (kernel.receiveMemory caller)), .user)

def yieldCpu (kernel : Kernel) (hart : HartId) : Kernel :=
  pickNext (takePendingGrantReap (takeReapableZombies kernel)) hart

def sendCall (kernel : Kernel) (hart : HartId) (caller target : TaskId)
    (bytes : List Byte) : Kernel × Frame :=
  let ticket := kernel.nextTicket
  let result := ipcSend (openSend kernel caller target bytes) hart caller target
    ⟨ticket, .user, bytes⟩
  match result.2 with
  | none => returnSend result.1 ticket caller usizeMax
  | some 1 => (result.1, .yielding (.send ticket))
  | some _ => returnSend result.1 ticket caller 0

/-- The gathered copy lives in the handler's frame, and the handler returns what
`ipc_send` returned without yielding. -/
def sendGatherCall (kernel : Kernel) (hart : HartId) (caller target : TaskId)
    (segments : List (List Byte)) : Kernel × Frame :=
  if segments.length = 0 ∨ maxIovec < segments.length ∨ maxUserBuf < segments.flatten.length then
    (kernel, .user)
  else
    let ticket := kernel.nextTicket
    let result := ipcSend (openSend kernel caller target segments.flatten) hart caller target
      ⟨ticket, .kernel, segments.flatten⟩
    returnSend result.1 ticket caller (result.2.getD usizeMax)

def canWriteReason (kernel : Kernel) (caller : TaskId) (ptr : Nat) : Bool :=
  decide (8 ≤ (kernel.receiveMemory caller).length) && validateUserBuf ptr 8 maxUserBuf

/-- Hand a death notice to a receive call: the dead id is the result and the
reason overwrites the first eight bytes of the buffer, if it has them. -/
def returnNotice (kernel : Kernel) (caller : TaskId) (ptr : Nat) (dead : TaskId)
    (reason : Nat) : Kernel × Frame :=
  let written := canWriteReason kernel caller ptr
  let stored :=
    if written then
      openRecv kernel caller (copyInto (toLeBytes reason) (kernel.receiveMemory caller))
    else kernel
  returnRecv (observe stored (.notified caller dead reason written)) caller dead

def recvCall (kernel : Kernel) (caller : TaskId) (mask : Nat) (buffer : UserBuffer) :
    Kernel × Frame :=
  let opened := openRecv kernel caller buffer.bytes
  match (opened.tasks.get caller).bind (fun task => task.pendingDeaths.head?) with
  | some notice =>
    returnNotice
      (modifyTask opened caller
        (fun task => { task with pendingDeaths := task.pendingDeaths.tail }))
      caller buffer.ptr notice.1 notice.2
  | none => (opened, .recvMessages mask buffer.ptr buffer.bytes.length)

def recvMessages (kernel : Kernel) (caller : TaskId) (mask ptr len : Nat) :
    Kernel × Frame :=
  match (kernel.tasks.get caller).bind (fun task => task.pendingMsgs.head?) with
  | some pending =>
    let popped := modifyTask kernel caller (fun task =>
      { task with
        pendingMsgs := task.pendingMsgs.tail
        currentCaller := some pending.senderTid })
    let copyLen := min pending.message.bytes.length len
    let filled :=
      if 0 < copyLen ∧ validateUserBuf ptr copyLen maxUserBuf then
        copyMessage popped pending.senderTid caller pending.message len
      else popped
    returnRecv filled caller pending.senderTid
  | none => (kernel, .recvBlock mask ptr len)

def recvBlock (kernel : Kernel) (hart : HartId) (caller : TaskId) (mask ptr len : Nat) :
    Kernel × Frame :=
  let result := ipcRecv kernel hart caller mask ⟨.user, len⟩
  if result.2 = 0 then (result.1, .yielding (.recv ptr))
  else returnRecv result.1 caller result.2

def recvTimeoutCall (kernel : Kernel) (hart : HartId) (caller : TaskId) (mask : Nat)
    (buffer : UserBuffer) (deadline : Nat) : Kernel × Frame :=
  let result := ipcRecv (openRecv kernel caller buffer.bytes) hart caller mask
    ⟨.user, buffer.bytes.length⟩
  if result.2 = 0 then (result.1, .armTimeout deadline)
  else returnRecv result.1 caller result.2

def installDeadline (deadline : Nat) (task : Task) : Task :=
  match task.state with
  | .recv mask buffer _ => { task with state := .recv mask buffer (some deadline) }
  | _ => task

def tryRecvCall (kernel : Kernel) (hart : HartId) (caller : TaskId) (buffer : UserBuffer) :
    Kernel × Frame :=
  let result := ipcTryRecv (openRecv kernel caller buffer.bytes) hart caller
    ⟨.user, buffer.bytes.length⟩
  returnRecv result.1 caller result.2

/-- The temporary buffer starts zeroed and lives in the handler's frame; the
handler scatters it and returns without yielding. -/
def recvScatterCall (kernel : Kernel) (hart : HartId) (caller : TaskId) (mask : Nat)
    (segments : List (List Byte)) : Kernel × Frame :=
  if segments.length = 0 ∨ maxIovec < segments.length ∨ maxUserBuf < segments.flatten.length then
    (kernel, .user)
  else
    let total := segments.flatten.length
    let result := ipcRecv (openRecv kernel caller (List.replicate total 0)) hart caller mask
      ⟨.kernel, total⟩
    returnRecv result.1 caller result.2

def waitCall (kernel : Kernel) (caller pid : TaskId) : Kernel × Frame :=
  match kernel.tasks.get pid with
  | none => (kernel, .user)
  | some target =>
    if target.state = .terminated then (kernel, .user)
    else
      (setState
        (modifyTask kernel pid (fun task => { task with waiters := task.waiters ++ [caller] }))
        caller (.waiting pid), .yielding .wait)

/-- Gates in source order: own id, spawn capability, system service, mid-swap. -/
def forceExitCall (kernel : Kernel) (hart : HartId) (caller tid : TaskId) : Kernel × Frame :=
  if tid = caller ∨ ¬ callerHasSpawn kernel caller then (kernel, .user)
  else
    match kernel.tasks.get tid with
    | none => (kernel, .user)
    | some task =>
      if task.blockIoCap || task.networkCap || task.state.isFrozen then (kernel, .user)
      else
        (exitTask
          (modifyTask kernel tid (fun task => { task with exitCode := some usizeMax }))
          hart tid usizeMax, .user)

def capRevokeCall (kernel : Kernel) (caller target : TaskId) (mask : BitVec 32) :
    Kernel × Frame :=
  if target = caller ∨ ¬ callerHasSpawn kernel caller then (kernel, .user)
  else
    match kernel.tasks.get target with
    | none => (kernel, .user)
    | some task =>
      if task.blockIoCap || task.networkCap then (kernel, .user)
      else (modifyTask kernel target (revoke mask), .user)

/-- The check and the subscription are separate lock sections; a task already
gone leaves a synthetic notice with reason zero. -/
def notifyOnExitCall (kernel : Kernel) (caller watched : TaskId) : Kernel × Frame :=
  if ¬ callerHasSpawn kernel caller then (kernel, .user)
  else if (kernel.tasks.get watched).isSome then (kernel, .subscribe watched)
  else
    (observe
      (modifyTask kernel caller
        (fun task => { task with pendingDeaths := task.pendingDeaths ++ [(watched, 0)] }))
      (.subscribed caller watched), .user)

def subscribeDeath (kernel : Kernel) (watcher watched : TaskId) : Kernel :=
  observe
    { kernel with
      deathSubscribers := Function.update kernel.deathSubscribers watched
        (kernel.deathSubscribers watched ++ [watcher]) }
    (.subscribed watcher watched)

def registerServiceCall (kernel : Kernel) (caller : TaskId) (serviceId : Nat)
    (tid : TaskId) : Kernel × Frame :=
  if callerHasSpawn kernel caller then
    match register kernel.registry serviceId tid with
    | some registry => ({ kernel with registry := registry }, .user)
    | none => (kernel, .user)
  else (kernel, .user)

def waitForEventCall (kernel : Kernel) (caller : TaskId) (mask : Nat)
    (deadline : Option Nat) : Kernel × Frame :=
  let fired := consumePending mask kernel.netRxPending
  let consumed := { kernel with netRxPending := fired.2 }
  if fired.1 ≠ 0 then (consumed, .user)
  else (setState consumed caller (.waitEvent mask deadline), .yielding .waitEvent)

def spawnPathCall (kernel : Kernel) (caller : TaskId) (path : String)
    (load : Option Image) (after : AfterSpawn) : Kernel × Frame :=
  if callerHasSpawn kernel caller then
    match load with
    | some image => (kernel, .spawnCreate ⟨.user caller, path, image, after⟩)
    | none => (kernel, .user)
  else (kernel, .user)

def enterSyscall (kernel : Kernel) (hart : HartId) (caller : TaskId) :
    Syscall → Kernel × Frame
  | .send target bytes => sendCall kernel hart caller target bytes
  | .recv mask buffer => recvCall kernel caller mask buffer
  | .sendGather target segments => sendGatherCall kernel hart caller target segments
  | .recvScatter mask segments => recvScatterCall kernel hart caller mask segments
  | .recvTimeout mask buffer deadline =>
    recvTimeoutCall kernel hart caller mask buffer deadline
  | .tryRecv _ buffer => tryRecvCall kernel hart caller buffer
  | .reply result => ((ipcReply kernel hart caller result).1, .user)
  | .spawn => (spawn kernel hart 0, .user)
  | .wait pid => waitCall kernel caller pid
  | .futexWait addr value observed =>
    let result := futexWait kernel caller addr value observed
    (result.1, if result.2.isSome then .yielding .returnZero else .user)
  | .futexWake addr count => ((futexWake kernel hart addr count).1, .user)
  | .exit code =>
    (exitTask (modifyTask kernel caller (fun task => { task with exitCode := some code }))
      hart caller code, .user)
  | .forceExit tid => forceExitCall kernel hart caller tid
  | .capRevoke target mask => capRevokeCall kernel caller target mask
  | .notifyOnExit watched => notifyOnExitCall kernel caller watched
  | .registerService serviceId tid => registerServiceCall kernel caller serviceId tid
  | .lookupService _ => (kernel, .user)
  | .heartbeat interval =>
    (modifyTask kernel caller (fun task =>
      { task with
        heartbeatDeadline := if interval = 0 then none else some (tickAdd kernel.ticks interval) }),
      .user)
  | .yieldNow => (kernel, .yielding .returnZero)
  | .setTimer delay =>
    (setState kernel caller (.sleeping (tickAdd kernel.ticks delay)), .yielding .returnZero)
  | .waitForEvent mask deadline => waitForEventCall kernel caller mask deadline
  | .stateStash key bytes =>
    ({ kernel with stash := stashState kernel.stash key bytes }, .user)
  | .spawnFromMem valid =>
    if valid then (spawn kernel hart 0, .memWire kernel.tasks.next) else (kernel, .user)
  | .spawnFromPath path load => spawnPathCall kernel caller path load .returnTid
  | .spawnPinned path load priority coreId =>
    if coreId ≠ 0 then (kernel, .user)
    else spawnPathCall kernel caller path load (.setPriority (priority % 256))
  | .hotSwap cellId path load =>
    (kernel, if callerHasSpawn kernel caller then .swapCeiling cellId path load else .user)
  | .hotSwapReady =>
    (modifyTask kernel caller (fun task => { task with hotswapReady := true }), .user)

/-- The dispatcher's own section: a syscall is progress to the watchdog. -/
def resetWatchdog (kernel : Kernel) (caller : TaskId) : Kernel :=
  modifyTask kernel caller (fun task => { task with runTicks := 0, rtOverrunWarned := false })

def resumeSyscall (kernel : Kernel) (caller : TaskId) : Resume → Kernel × Frame
  | .send ticket =>
    returnSend kernel ticket caller (((kernel.tasks.get caller).bind Task.replyValue).getD 0)
  | .recv ptr =>
    let sender := ((kernel.tasks.get caller).bind Task.currentCaller).getD 0
    match (kernel.tasks.get caller).bind Task.pendingExitReason with
    | some reason =>
      returnNotice
        (modifyTask kernel caller (fun task => { task with pendingExitReason := none }))
        caller ptr sender reason
    | none => returnRecv kernel caller sender
  | .recvTimeout =>
    returnRecv kernel caller (((kernel.tasks.get caller).bind Task.currentCaller).getD 0)
  | .wait => (kernel, .user)
  | .returnZero => (kernel, .user)
  | .waitEvent => (kernel, .user)
  | .stashPoll swap deadline => (kernel, .swapStashCheck swap deadline)
  | .readyPoll swap newTid deadline => (kernel, .swapReadyCheck swap newTid deadline)

/-- A task created for `job` cannot be completed: it is killed, and a hot-swap
rolls back. -/
def spawnFailed (kernel : Kernel) (hart : HartId) (job : SpawnJob) (tid : TaskId) :
    Kernel × Frame :=
  (exitTask kernel hart tid 0xff,
    match job.after with
    | .restore swap => .swapUnfreeze swap
    | _ => .user)

/-- The grant the loader computes: the request, cut to the spawner's ceiling and
then by policy.  Only the boot spawn is exempt. -/
def grantFor (kernel : Kernel) (job : SpawnJob) : CapSet :=
  match job.spawner with
  | .root => job.image.requested
  | .ceiling caps => applyPolicy kernel.policy job.path (job.image.requested.intersect caps)
  | .user tid =>
    applyPolicy kernel.policy job.path
      (job.image.requested.intersect
        (((kernel.tasks.get tid).map ofTask).getD empty))

def advanceSpawn (kernel : Kernel) (tid : TaskId) (job : SpawnJob) (granted : CapSet) :
    Kernel × Frame :=
  let applied := modifyTask kernel tid granted.applyTo
  ({ applied with
      inputCell := if job.path.endsWith "/bin/input" then tid else applied.inputCell },
    match job.after with
    | .returnTid => .user
    | .setPriority priority => .spawnPriority tid priority
    | .restore swap => .swapRestore swap tid)

def returnSwap (kernel : Kernel) (swapId : Nat) (result : Option TaskId) : Kernel × Frame :=
  (observe kernel (.swapReturned swapId result), .user)

/-- The sections of the hot-swap orchestrator, in the order of `hotswap`. -/
def advanceSwap (kernel : Kernel) (hart : HartId) (caller : TaskId) :
    Frame → Kernel × Frame
  | .swapCeiling cellId path load =>
    let holder := (findTidForCell kernel.tasks cellId).bind kernel.tasks.get
    (kernel, .swapFind cellId path load ((holder.map ofTask).getD empty))
  | .swapFind cellId path load ceiling =>
    let swapId := kernel.swapIdCounter
    let counted := { kernel with swapIdCounter := swapId + 1 }
    match findTidForCell kernel.tasks cellId with
    | none => returnSwap counted swapId none
    | some oldTid => (counted, .swapFreeze ⟨cellId, path, load, ceiling, swapId, oldTid⟩)
  | .swapFreeze swap =>
    ({ kernel with
        frozenCells := if swap.oldCell ∈ kernel.frozenCells then kernel.frozenCells
          else swap.oldCell :: kernel.frozenCells }, .swapClearRegistry swap)
  | .swapClearRegistry swap =>
    ({ kernel with registry := clearTid kernel.registry swap.oldTid }, .swapSnapshot swap)
  | .swapSnapshot swap =>
    let envelope := snapshotEnvelope swap.swapId
    let result := ipcSend (openSend kernel caller swap.oldTid envelope) hart caller swap.oldTid
      ⟨kernel.nextTicket, .kernel, envelope⟩
    (result.1,
      if result.2.isSome then .swapStashCheck swap (tickAdd kernel.ticks hotswapTimeoutTicks)
      else .swapAbort swap)
  | .swapAbort swap =>
    returnSwap
      { kernel with frozenCells := kernel.frozenCells.filter (fun cell => cell ≠ swap.oldCell) }
      swap.swapId none
  | .swapStashCheck swap deadline =>
    (kernel,
      if stashHolds kernel.stash (stashKeyFor swap.swapId) ∨ deadline ≤ kernel.ticks then
        .swapHardFreeze swap
      else .yielding (.stashPoll swap deadline))
  | .swapHardFreeze swap =>
    (setTaskFrozen kernel swap.oldTid swap.swapId, .swapSpawn swap)
  | .swapSpawn swap =>
    (kernel,
      match swap.load with
      | some image => .spawnCreate ⟨.ceiling swap.ceiling, swap.path, image, .restore swap⟩
      | none => .swapUnfreeze swap)
  | .swapUnfreeze swap =>
    ({ kernel with frozenCells := kernel.frozenCells.filter (fun cell => cell ≠ swap.oldCell) },
      .swapRollback swap)
  | .swapRollback swap =>
    returnSwap (unfreezeTask kernel hart swap.oldTid) swap.swapId none
  | .swapRestore swap newTid =>
    let envelope := restoreEnvelope swap.swapId
    let result := ipcSend (openSend kernel caller newTid envelope) hart caller newTid
      ⟨kernel.nextTicket, .kernel, envelope⟩
    if result.2.isSome then
      (result.1, .swapReadyCheck swap newTid (tickAdd kernel.ticks hotswapTimeoutTicks))
    else returnSwap result.1 swap.swapId none
  | .swapReadyCheck swap newTid deadline =>
    if (kernel.tasks.get newTid).any Task.hotswapReady then (kernel, .swapThaw swap newTid)
    else if deadline ≤ kernel.ticks then returnSwap kernel swap.swapId none
    else (kernel, .yielding (.readyPoll swap newTid deadline))
  | .swapThaw swap newTid =>
    ({ kernel with frozenCells := kernel.frozenCells.filter (fun cell => cell ≠ swap.oldCell) },
      .swapTake swap newTid)
  | .swapTake swap newTid =>
    let taken := takePending kernel swap.oldTid
    (taken.1, .swapDrain swap newTid taken.2)
  | .swapDrain swap newTid [] => (kernel, .swapExit swap newTid)
  | .swapDrain swap newTid (head :: pending) =>
    -- A message found while the new cell is not receiving is dropped.
    (kernel,
      if (kernel.tasks.get newTid).any (fun task => task.state.isRecv) then
        .swapDeliver swap newTid head pending
      else .swapDrain swap newTid pending)
  | .swapDeliver swap newTid head pending =>
    ((ipcSend kernel hart head.senderTid newTid
        ⟨head.message.ticket, .kernel, head.message.bytes⟩).1,
      .swapDrain swap newTid pending)
  | .swapExit swap newTid =>
    (exitTask kernel hart swap.oldTid hotswapExitReason, .swapFinish swap newTid)
  | .swapFinish swap newTid =>
    returnSwap
      { kernel with
        stash := kernel.stash.filter (fun entry => entry.1 ≠ stashKeyFor swap.swapId) }
      swap.swapId (some newTid)
  | frame => (kernel, frame)

def advance (kernel : Kernel) (hart : HartId) (caller : TaskId) : Frame → Kernel × Frame
  | .user => (kernel, .user)
  | .dispatch call => enterSyscall kernel hart caller call
  | .yielding resume => (yieldCpu kernel hart, .suspended resume)
  | .suspended resume => resumeSyscall kernel caller resume
  | .recvMessages mask ptr len => recvMessages kernel caller mask ptr len
  | .recvBlock mask ptr len => recvBlock kernel hart caller mask ptr len
  | .armTimeout deadline =>
    (modifyTask kernel caller (installDeadline deadline), .yielding .recvTimeout)
  | .subscribe watched => (subscribeDeath kernel caller watched, .user)
  | .memWire tid =>
    (if (kernel.tasks.get tid).isSome then kernel else exitTask kernel hart tid 0xff, .user)
  | .spawnCreate job => (spawn kernel hart 0, .spawnWire job kernel.tasks.next)
  | .spawnWire job tid =>
    if (kernel.tasks.get tid).isSome then (kernel, .spawnRelocate job tid)
    else spawnFailed kernel hart job tid
  | .spawnRelocate job tid =>
    if job.image.relocationsOk then
      (modifyTask kernel tid (fun task => { task with cellId := tid }), .spawnAllowlist job tid)
    else spawnFailed kernel hart job tid
  | .spawnAllowlist job tid =>
    (modifyTask kernel tid (fun task => { task with syscallAllowlist := job.image.allowlist }),
      .spawnCeiling job tid)
  | .spawnCeiling job tid => (kernel, .spawnGrant job tid (grantFor kernel job))
  | .spawnGrant job tid granted => advanceSpawn kernel tid job granted
  | .spawnPriority tid priority =>
    (modifyTask kernel tid (fun task => { task with priority := priority }), .user)
  | frame => advanceSwap kernel hart caller frame

structure System where
  kernel : Kernel
  frames : TaskId → Frame

inductive Event
  | syscall (hart : HartId) (call : Syscall)
  | proceed (hart : HartId)
  /-- A timer interrupt in cell code or in the idle loop. -/
  | timer (hart : HartId)
  /-- `yield_cpu` from the idle loop, or after the current task is gone. -/
  | idle (hart : HartId)
  | fault (hart : HartId)
  /-- A driver reports an event with the kernel's own id 0 as sender. -/
  | driverSend (hart : HartId) (target : TaskId) (bytes : List Byte)
  | signalNetRx
  | rtHartOnline
  deriving DecidableEq, Repr

def executing (system : System) (hart : HartId) : Option TaskId :=
  (currentTask system.kernel hart).map (fun _ => system.kernel.current hart)

def interruptible (system : System) (hart : HartId) : Bool :=
  match executing system hart with
  | none => true
  | some tid => system.frames tid = .user

def enter (system : System) (tid : TaskId) (result : Kernel × Frame) : System :=
  ⟨result.1, Function.update system.frames tid result.2⟩

def withKernel (system : System) (kernel : Kernel) : System :=
  { system with kernel := kernel }

def step (system : System) : Event → Option System
  | .syscall hart call =>
    match executing system hart with
    | none => none
    | some tid =>
      if system.frames tid = .user then
        some (enter system tid (resetWatchdog system.kernel tid, .dispatch call))
      else none
  | .proceed hart =>
    match executing system hart with
    | none => none
    | some tid =>
      if system.frames tid = .user then none
      else some (enter system tid (advance system.kernel hart tid (system.frames tid)))
  | .timer hart =>
    if interruptible system hart then
      some (withKernel system
        (yieldCpu { system.kernel with ticks := tickAdd system.kernel.ticks 1 } hart))
    else none
  | .idle hart =>
    match executing system hart with
    | none => some (withKernel system (yieldCpu system.kernel hart))
    | some _ => none
  | .fault hart =>
    match executing system hart with
    | none => none
    | some tid => some (withKernel system (exitTask system.kernel hart tid usizeMax))
  | .driverSend hart target bytes =>
    if interruptible system hart then
      some (withKernel system
        (ipcSend (openSend system.kernel 0 target bytes) hart 0 target
          ⟨system.kernel.nextTicket, .kernel, bytes⟩).1)
    else none
  | .signalNetRx =>
    some (withKernel system { system.kernel with netRxPending := true })
  | .rtHartOnline =>
    some (withKernel system { system.kernel with rtHartOnline := true })

/-- Everything a step can be. -/
inductive StepShape (before : System) : Event → System → Prop
  | enters (hart : HartId) (owner : TaskId) (call : Syscall)
      (runs : executing before hart = some owner) (user : before.frames owner = .user) :
      StepShape before (.syscall hart call)
        (enter before owner (resetWatchdog before.kernel owner, .dispatch call))
  | proceeds (hart : HartId) (owner : TaskId) (runs : executing before hart = some owner)
      (inside : before.frames owner ≠ .user) :
      StepShape before (.proceed hart)
        (enter before owner (advance before.kernel hart owner (before.frames owner)))
  | ticks (hart : HartId) :
      StepShape before (.timer hart)
        (withKernel before
          (yieldCpu { before.kernel with ticks := tickAdd before.kernel.ticks 1 } hart))
  | idles (hart : HartId) (nobody : executing before hart = none) :
      StepShape before (.idle hart) (withKernel before (yieldCpu before.kernel hart))
  | faults (hart : HartId) (owner : TaskId) (runs : executing before hart = some owner) :
      StepShape before (.fault hart)
        (withKernel before (exitTask before.kernel hart owner usizeMax))
  | reports (hart : HartId) (target : TaskId) (bytes : List Byte) :
      StepShape before (.driverSend hart target bytes)
        (withKernel before (ipcSend (openSend before.kernel 0 target bytes) hart 0 target
          ⟨before.kernel.nextTicket, .kernel, bytes⟩).1)
  | signals :
      StepShape before .signalNetRx (withKernel before { before.kernel with netRxPending := true })
  | comesOnline :
      StepShape before .rtHartOnline
        (withKernel before { before.kernel with rtHartOnline := true })

theorem step_shape {was after : System} {event : Event}
    (ran : step was event = some after) : StepShape was event after := by
  cases event with
  | syscall hart call =>
    simp only [step] at ran
    split at ran
    · cases ran
    · rename_i owner runs
      split at ran
      · rename_i user
        cases ran
        exact .enters hart owner call runs user
      · cases ran
  | proceed hart =>
    simp only [step] at ran
    split at ran
    · cases ran
    · rename_i owner runs
      split at ran
      · cases ran
      · rename_i inside
        cases ran
        exact .proceeds hart owner runs inside
  | timer hart =>
    simp only [step] at ran
    split at ran
    · cases ran
      exact .ticks hart
    · cases ran
  | idle hart =>
    simp only [step] at ran
    split at ran
    · rename_i nobody
      cases ran
      exact .idles hart nobody
    · cases ran
  | fault hart =>
    simp only [step] at ran
    split at ran
    · cases ran
    · rename_i owner runs
      cases ran
      exact .faults hart owner runs
  | driverSend hart target bytes =>
    simp only [step] at ran
    split at ran
    · cases ran
      exact .reports hart target bytes
    · cases ran
  | signalNetRx =>
    cases ran
    exact .signals
  | rtHartOnline =>
    cases ran
    exact .comesOnline

/-- A syscall and the next `sections` steps of its hart. -/
def callFor (hart : HartId) (call : Syscall) (sections : Nat) : List Event :=
  .syscall hart call :: List.replicate sections (.proceed hart)

/-- After boot: `init` is task 1 of cell 1 and holds every capability. -/
def initial : System where
  kernel := modifyTask (spawn boot 0 1) 1 all.applyTo
  frames := fun _ => .user

theorem initial_task {id : TaskId} {task : Task} (found : initial.kernel.tasks.get id = some task) :
    id = 1 ∧ task = all.applyTo (Task.new 1) := by
  have table : initial.kernel.tasks.get id =
      if id = 1 then (if id = 1 then some (Task.new 1) else none).map all.applyTo
      else if id = 1 then some (Task.new 1) else none := rfl
  rw [table] at found
  by_cases isInit : id = 1
  · simp only [isInit, if_true, Option.map_some, Option.some.injEq] at found
    exact ⟨isInit, found.symm⟩
  · simp [isInit] at found

end ViCell.Core.Machine

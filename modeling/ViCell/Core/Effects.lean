import ViCell.Lib.Runs
import ViCell.Core.Machine

/-!
# Kernel actions

Every lock section of every handler does one of a small number of things to the
task table, the ready queues, the current-task words, the registry and the
subscription map.  `Action` names them, `act` is their effect, `actionOf` says
which one a step performs, and `step_acts` connects the two.  Invariants that do
not depend on handler control flow are proved once per action.
-/

namespace ViCell.Core.Effects

open Lib Core.Tcb Core.Cap Core.Ready Core.State Core.Scheduler Core.Ipc Core.Handler Core.HotSwap
open List Option
open Core.Machine

/-- Changes to fields that neither scheduling nor reference tracking reads. -/
inductive Edit
  | resetWatchdog
  | popDeath
  | pushDeath (watched : TaskId)
  | takeExitReason
  | heartbeat (deadline : Option Nat)
  | hotswapReady
  | cellId (cellId : CellId)
  | allowlist (bits : BitVec 64)
  | priority (priority : Nat)
  | revoke (mask : BitVec 32)
  | grant (caps : CapSet)
  | takePending
  | countRunTick
  deriving DecidableEq

def Edit.apply : Edit → Task → Task
  | .resetWatchdog, task => { task with runTicks := 0, rtOverrunWarned := false }
  | .popDeath, task => { task with pendingDeaths := task.pendingDeaths.tail }
  | .pushDeath watched, task =>
    { task with pendingDeaths := task.pendingDeaths ++ [(watched, 0)] }
  | .takeExitReason, task => { task with pendingExitReason := none }
  | .heartbeat deadline, task => { task with heartbeatDeadline := deadline }
  | .hotswapReady, task => { task with hotswapReady := true }
  | .cellId owner, task => { task with cellId := owner }
  | .allowlist bits, task => { task with syscallAllowlist := bits }
  | .priority level, task => { task with priority := level }
  | .revoke mask, task => Cap.revoke mask task
  | .grant caps, task => caps.applyTo task
  | .takePending, task => { task with pendingMsgs := [] }
  | .countRunTick, task => Scheduler.countRunTick task

theorem edit_keeps (edit : Edit) (task : Task) :
    (edit.apply task).state = task.state ∧ (edit.apply task).waiters = task.waiters ∧
      (edit.apply task).currentCaller = task.currentCaller := by
  cases edit <;> exact ⟨rfl, rfl, rfl⟩

inductive ExitCause
  | own
  | forced
  | faulted
  | orphaned
  | replaced (swapId : Nat)
  | hung
  | watchdog
  deriving DecidableEq

/-- Kills made by `pick_next` itself, which also idle the hart they run on. -/
def ExitCause.byScheduler : ExitCause → Bool
  | .hung => true
  | .watchdog => true
  | _ => false

inductive Action
  | quiet
  | edit (tid : TaskId) (edit : Edit)
  | acceptPending (caller sender : TaskId)
  | arm (caller : TaskId) (deadline : Nat)
  | spawn (cellId : CellId)
  | send (caller target : TaskId) (message : Message)
  | recv (caller : TaskId) (mask : Nat) (buffer : Buffer)
  | tryRecv (caller : TaskId) (buffer : Buffer)
  | reply (caller : TaskId) (result : Nat)
  | exit (tid : TaskId) (reason : Nat) (code : Option Nat) (cause : ExitCause)
  | tick
  | reap
  | wakeDue
  | requeue (tid : TaskId)
  | dispatch
  | futexWait (caller : TaskId) (addr value observed : Nat)
  | futexWake (addr count : Nat)
  | wait (caller pid : TaskId)
  | sleep (caller : TaskId) (wakeAt : Nat)
  | awaitEvent (caller : TaskId) (mask : Nat) (deadline : Option Nat)
  | freeze (tid : TaskId) (swapId : Nat)
  | rollback (tid : TaskId) (swapId : Nat)
  | register (serviceId : Nat) (tid : TaskId)
  | clearRegistry (tid : TaskId)
  | subscribe (watcher watched : TaskId)

def recordExitCode (code : Option Nat) (task : Task) : Task :=
  match code with
  | some value => { task with exitCode := some value }
  | none => task

def retire (kernel : Kernel) (hart : HartId) (tid : TaskId) (reason : Nat)
    (cause : ExitCause) : Kernel :=
  if cause.byScheduler then
    let terminated := exitTask
      { kernel with pendingGrantReap := kernel.pendingGrantReap ++ [tid] } hart tid reason
    if terminated.current hart = tid then clearCurrent terminated hart else terminated
  else exitTask kernel hart tid reason

def act (kernel : Kernel) (hart : HartId) : Action → Kernel
  | .quiet => kernel
  | .edit tid edit => modifyTask kernel tid edit.apply
  | .acceptPending caller sender =>
    modifyTask kernel caller (fun task =>
      { task with pendingMsgs := task.pendingMsgs.tail, currentCaller := some sender })
  | .arm caller deadline => modifyTask kernel caller (installDeadline deadline)
  | .spawn cellId => spawn kernel hart cellId
  | .send caller target message => (ipcSend kernel hart caller target message).1
  | .recv caller mask buffer => (ipcRecv kernel hart caller mask buffer).1
  | .tryRecv caller buffer => (ipcTryRecv kernel hart caller buffer).1
  | .reply caller result => (ipcReply kernel hart caller result).1
  | .exit tid reason code cause =>
    retire (modifyTask kernel tid (recordExitCode code)) hart tid reason cause
  | .tick => { kernel with ticks := tickAdd kernel.ticks 1 }
  | .reap => takePendingGrantReap (takeReapableZombies kernel)
  | .wakeDue =>
    wakeDue { kernel with lastGlobalSweepTick := max kernel.lastGlobalSweepTick kernel.ticks }
      hart
  | .requeue tid => pushReady (setState kernel tid .ready) hart tid
  | .dispatch => dispatchNext kernel hart
  | .futexWait caller addr value observed => (futexWait kernel caller addr value observed).1
  | .futexWake addr count => (futexWake kernel hart addr count).1
  | .wait caller pid => (waitCall kernel caller pid).1
  | .sleep caller wakeAt => setState kernel caller (.sleeping wakeAt)
  | .awaitEvent caller mask deadline => setState kernel caller (.waitEvent mask deadline)
  | .freeze tid swapId => setTaskFrozen kernel tid swapId
  | .rollback tid _ => unfreezeTask kernel hart tid
  | .register serviceId tid =>
    { kernel with registry := (register kernel.registry serviceId tid).getD kernel.registry }
  | .clearRegistry tid => { kernel with registry := clearTid kernel.registry tid }
  | .subscribe watcher watched => subscribeDeath kernel watcher watched

/-- Agreement on everything that the actions are about. -/
structure SameCore (left right : Kernel) : Prop where
  tasks : right.tasks = left.tasks
  ready : right.ready = left.ready
  current : right.current = left.current
  registry : right.registry = left.registry
  subscribers : right.deathSubscribers = left.deathSubscribers

theorem same_core_refl (kernel : Kernel) : SameCore kernel kernel :=
  ⟨rfl, rfl, rfl, rfl, rfl⟩

def entryAction (kernel : Kernel) (caller : TaskId) : Syscall → Action
  | .send target bytes => .send caller target ⟨kernel.nextTicket, .user, bytes⟩
  | .recv _ _ =>
    if (kernel.tasks.get caller).any (fun task => !task.pendingDeaths.isEmpty) then
      .edit caller .popDeath
    else .quiet
  | .sendGather target segments =>
    if segments.length = 0 ∨ maxIovec < segments.length ∨
        maxUserBuf < segments.flatten.length then .quiet
    else .send caller target ⟨kernel.nextTicket, .kernel, segments.flatten⟩
  | .recvScatter mask segments =>
    if segments.length = 0 ∨ maxIovec < segments.length ∨
        maxUserBuf < segments.flatten.length then .quiet
    else .recv caller mask ⟨.kernel, segments.flatten.length⟩
  | .recvTimeout mask buffer _ => .recv caller mask ⟨.user, buffer.bytes.length⟩
  | .tryRecv _ buffer => .tryRecv caller ⟨.user, buffer.bytes.length⟩
  | .reply result => .reply caller result
  | .spawn => .spawn 0
  | .wait pid => .wait caller pid
  | .futexWait addr value observed => .futexWait caller addr value observed
  | .futexWake addr count => .futexWake addr count
  | .exit code => .exit caller code (some code) .own
  | .forceExit tid =>
    if tid = caller ∨ ¬ callerHasSpawn kernel caller then .quiet
    else if (kernel.tasks.get tid).any (fun task =>
        !(task.blockIoCap || task.networkCap || task.state.isFrozen)) then
      .exit tid usizeMax (some usizeMax) .forced
    else .quiet
  | .capRevoke target mask =>
    if target = caller ∨ ¬ callerHasSpawn kernel caller then .quiet
    else if (kernel.tasks.get target).any (fun task =>
        !(task.blockIoCap || task.networkCap)) then .edit target (.revoke mask)
    else .quiet
  | .notifyOnExit watched =>
    if ¬ callerHasSpawn kernel caller then .quiet
    else if (kernel.tasks.get watched).isSome then .quiet
    else .edit caller (.pushDeath watched)
  | .registerService serviceId tid =>
    if callerHasSpawn kernel caller then .register serviceId tid else .quiet
  | .lookupService _ => .quiet
  | .heartbeat interval =>
    .edit caller (.heartbeat (if interval = 0 then none else some (tickAdd kernel.ticks interval)))
  | .yieldNow => .quiet
  | .setTimer delay => .sleep caller (tickAdd kernel.ticks delay)
  | .waitForEvent mask deadline =>
    if (consumePending mask kernel.netRxPending).1 ≠ 0 then .quiet
    else .awaitEvent caller mask deadline
  | .stateStash _ _ => .quiet
  | .spawnFromMem valid => if valid then .spawn 0 else .quiet
  | .spawnFromPath _ _ => .quiet
  | .spawnPinned _ _ _ _ => .quiet
  | .hotSwap _ _ _ => .quiet
  | .hotSwapReady => .edit caller .hotswapReady

def frameAction (kernel : Kernel) (caller : TaskId) : Frame → Action
  | .dispatch call => entryAction kernel caller call
  | .suspended (.recv _) =>
    if ((kernel.tasks.get caller).bind Task.pendingExitReason).isSome then
      .edit caller .takeExitReason
    else .quiet
  | .recvMessages _ _ _ =>
    match (kernel.tasks.get caller).bind (fun task => task.pendingMsgs.head?) with
    | some pending => .acceptPending caller pending.senderTid
    | none => .quiet
  | .recvBlock mask _ len => .recv caller mask ⟨.user, len⟩
  | .armTimeout deadline => .arm caller deadline
  | .subscribe watched => .subscribe caller watched
  | .memWire tid =>
    if (kernel.tasks.get tid).isSome then .quiet else .exit tid 0xff none .orphaned
  | .spawnCreate _ => .spawn 0
  | .spawnWire _ tid =>
    if (kernel.tasks.get tid).isSome then .quiet else .exit tid 0xff none .orphaned
  | .spawnRelocate job tid =>
    if job.image.relocationsOk then .edit tid (.cellId tid) else .exit tid 0xff none .orphaned
  | .spawnAllowlist job tid => .edit tid (.allowlist job.image.allowlist)
  | .spawnGrant _ tid granted => .edit tid (.grant granted)
  | .spawnPriority tid priority => .edit tid (.priority priority)
  | .swapClearRegistry swap => .clearRegistry swap.oldTid
  | .swapSnapshot swap =>
    .send caller swap.oldTid ⟨kernel.nextTicket, .kernel, snapshotEnvelope swap.swapId⟩
  | .swapHardFreeze swap => .freeze swap.oldTid swap.swapId
  | .swapRollback swap => .rollback swap.oldTid swap.swapId
  | .swapRestore swap newTid =>
    .send caller newTid ⟨kernel.nextTicket, .kernel, restoreEnvelope swap.swapId⟩
  | .swapTake swap _ => .edit swap.oldTid .takePending
  | .swapDeliver _ newTid head _ =>
    .send head.senderTid newTid ⟨head.message.ticket, .kernel, head.message.bytes⟩
  | .swapExit swap _ => .exit swap.oldTid hotswapExitReason none (.replaced swap.swapId)
  | _ => .quiet

def actAll (kernel : Kernel) (hart : HartId) (actions : List Action) : Kernel :=
  actions.foldl (fun current action => act current hart action) kernel

theorem act_all_append (kernel : Kernel) (hart : HartId) (first second : List Action) :
    actAll kernel hart (first ++ second) = actAll (actAll kernel hart first) hart second := by
  exact foldl_append

def sweepActions (kernel : Kernel) (hart : HartId) : List Action :=
  if hart = 0 ∧ (kernel.lastGlobalSweepTick < kernel.ticks ∨ kernel.netRxPending) then
    .wakeDue :: (hungTasks (act kernel hart .wakeDue)).map
      (fun tid => .exit tid usizeMax none .hung)
  else []

def settleActions (kernel : Kernel) (hart : HartId) : List Action :=
  let tid := kernel.current hart
  match currentTask kernel hart with
  | none => []
  | some task =>
    if task.state = .running then
      if priorityRealTime ≤ task.priority then
        if watchdogBudgetTicks < saturatingSucc task.runTicks then
          [.edit tid .countRunTick, .exit tid usizeMax none .watchdog]
        else [.edit tid .countRunTick, .requeue tid]
      else [.requeue tid]
    else [.edit tid .resetWatchdog]

def prepareActions (kernel : Kernel) (hart : HartId) : List Action :=
  let swept := sweepActions kernel hart
  swept ++ settleActions (actAll kernel hart swept) hart

def yieldActions (kernel : Kernel) (hart : HartId) : List Action :=
  .reap :: prepareActions (act kernel hart .reap) hart ++ [.dispatch]

def frameActions (kernel : Kernel) (hart : HartId) (caller : TaskId) : Frame → List Action
  | .yielding _ => yieldActions kernel hart
  | frame => [frameAction kernel caller frame]

/-- The hart a step runs on and the actions it performs, in order. -/
def actionsOf (system : System) : Event → HartId × List Action
  | .syscall hart _ => (hart, [.edit (system.kernel.current hart) .resetWatchdog])
  | .proceed hart =>
    (hart, frameActions system.kernel hart (system.kernel.current hart)
      (system.frames (system.kernel.current hart)))
  | .timer hart => (hart, .tick :: yieldActions (act system.kernel hart .tick) hart)
  | .idle hart => (hart, yieldActions system.kernel hart)
  | .fault hart => (hart, [.exit (system.kernel.current hart) usizeMax none .faulted])
  | .driverSend hart target bytes =>
    (hart, [.send 0 target ⟨system.kernel.nextTicket, .kernel, bytes⟩])
  | .signalNetRx => (0, [])
  | .rtHartOnline => (0, [])

theorem same_core_trans {first second third : Kernel} (left : SameCore first second)
    (right : SameCore second third) : SameCore first third :=
  ⟨right.tasks.trans left.tasks, right.ready.trans left.ready,
    right.current.trans left.current, right.registry.trans left.registry,
    right.subscribers.trans left.subscribers⟩

section

variable (kernel : Kernel)
include kernel

theorem return_notice_core (caller : TaskId) (ptr : Nat) (dead : TaskId) (reason : Nat) :
    SameCore kernel (returnNotice kernel caller ptr dead reason).1 := by
  simp only [returnNotice]
  split <;> exact ⟨rfl, rfl, rfl, rfl, rfl⟩

theorem spawn_path_core (caller : TaskId) (path : String) (load : Option Image)
    (after : AfterSpawn) : SameCore kernel (spawnPathCall kernel caller path load after).1 := by
  unfold spawnPathCall
  split
  · split <;> exact same_core_refl kernel
  · exact same_core_refl kernel

theorem record_no_exit_code (tid : TaskId) :
    modifyTask kernel tid (recordExitCode none) = kernel := by
  have tasks : kernel.tasks.modify tid (recordExitCode none) = kernel.tasks := by
    unfold IdTable.modify
    congr
    funext id
    split
    · exact map_id'
    · rfl
  unfold modifyTask
  rw [tasks]

section

variable (hart : HartId)
include hart

theorem open_send_core (caller target : TaskId) (msg : Message)
    (sender receiver : TaskId) (bytes : List Byte) :
    SameCore (ipcSend kernel hart caller target msg).1
      (ipcSend (openSend kernel sender receiver bytes) hart caller target msg).1 := by
  have sameTasks : (openSend kernel sender receiver bytes).tasks = kernel.tasks := rfl
  unfold ipcSend
  rw [sameTasks]
  split
  · exact ⟨rfl, rfl, rfl, rfl, rfl⟩
  · split
    · split <;> exact ⟨rfl, rfl, rfl, rfl, rfl⟩
    all_goals exact ⟨rfl, rfl, rfl, rfl, rfl⟩

theorem send_call_core (caller target : TaskId) (bytes : List Byte) :
    SameCore (ipcSend kernel hart caller target ⟨kernel.nextTicket, .user, bytes⟩).1
      (sendCall kernel hart caller target bytes).1 := by
  have opened := open_send_core kernel hart caller target
    ⟨kernel.nextTicket, .user, bytes⟩ caller target bytes
  simp only [sendCall]
  split
  · exact ⟨opened.1, opened.2, opened.3, opened.4, opened.5⟩
  · exact opened
  · exact ⟨opened.1, opened.2, opened.3, opened.4, opened.5⟩

theorem force_exit_core (caller tid : TaskId) :
    SameCore (act kernel hart (entryAction kernel caller (.forceExit tid)))
      (forceExitCall kernel hart caller tid).1 := by
  simp only [forceExitCall, entryAction]
  split
  · exact same_core_refl kernel
  · cases found : kernel.tasks.get tid with
    | none => exact same_core_refl kernel
    | some task =>
      simp only [any_some]
      by_cases guarded : task.blockIoCap || task.networkCap || task.state.isFrozen
      · simp only [guarded]
        exact same_core_refl kernel
      · simp only [guarded]
        exact ⟨rfl, rfl, rfl, rfl, rfl⟩

theorem cap_revoke_core (caller target : TaskId) (mask : BitVec 32) :
    SameCore (act kernel hart (entryAction kernel caller (.capRevoke target mask)))
      (capRevokeCall kernel caller target mask).1 := by
  simp only [capRevokeCall, entryAction]
  split
  · exact same_core_refl kernel
  · cases found : kernel.tasks.get target with
    | none => exact same_core_refl kernel
    | some task =>
      simp only [any_some]
      by_cases guarded : task.blockIoCap || task.networkCap
      · simp only [guarded]
        exact same_core_refl kernel
      · simp only [guarded]
        exact ⟨rfl, rfl, rfl, rfl, rfl⟩

theorem modify_id_core (tid : TaskId) (reason : Nat) :
    SameCore (exitTask (modifyTask kernel tid (recordExitCode none)) hart tid reason)
      (exitTask kernel hart tid reason) := by
  rw [record_no_exit_code]
  exact same_core_refl _

theorem act_hung (tid : TaskId) :
    act kernel hart (.exit tid usizeMax none .hung) = terminateHung hart kernel tid := by
  simp only [act, record_no_exit_code]
  rfl

theorem sweep_acts :
    actAll kernel hart (sweepActions kernel hart) =
      if hart = 0 then globalSweep kernel hart else kernel := by
  by_cases first : hart = 0
  · simp only [sweepActions, globalSweep, first, true_and]
    split
    · simp only [actAll, foldl_cons, foldl_map, act_hung]
      rfl
    · rfl
  · simp only [sweepActions, first, if_false]
    rfl

theorem retire_current (reason : Nat) (cause : ExitCause) (scheduled : cause.byScheduler = true) :
    retire kernel hart (kernel.current hart) reason cause =
      clearCurrent
        (exitTask
          { kernel with pendingGrantReap := kernel.pendingGrantReap ++ [kernel.current hart] }
          hart (kernel.current hart) reason)
        hart := by
  unfold retire
  rw [if_pos scheduled]
  exact if_pos rfl

theorem settle_acts :
    actAll kernel hart (settleActions kernel hart) = settleCurrent kernel hart := by
  simp only [settleActions, settleCurrent]
  cases found : currentTask kernel hart with
  | none => rfl
  | some =>
    simp only
    split
    · split
      · split
        · simp only [actAll, foldl_cons, act, record_no_exit_code]
          exact retire_current _ hart usizeMax .watchdog rfl
        · simp only [actAll, foldl_cons, act]
          simp only [setState, modifyTask, IdTable.modify_modify]
          rfl
      · rfl
    · rfl

theorem prepare_acts :
    actAll kernel hart (prepareActions kernel hart) =
      settleCurrent (if hart = 0 then globalSweep kernel hart else kernel) hart := by
  simp only [prepareActions]
  rw [act_all_append, settle_acts, sweep_acts]

theorem yield_acts : actAll kernel hart (yieldActions kernel hart) = yieldCpu kernel hart := by
  have prepared : actAll kernel hart (.reap :: prepareActions (act kernel hart .reap) hart) = _ :=
    prepare_acts (act kernel hart .reap) hart
  unfold yieldActions
  rw [act_all_append, prepared]
  simp only [yieldCpu, pickNext]
  split <;> rfl

section

variable (caller : TaskId)
include caller

theorem open_recv_core (mask : Nat) (buf : Buffer) (owner : TaskId) (bytes : List Byte) :
    SameCore (ipcRecv kernel hart caller mask buf).1
      (ipcRecv (openRecv kernel owner bytes) hart caller mask buf).1 := by
  have sameTasks : (openRecv kernel owner bytes).tasks = kernel.tasks := rfl
  unfold ipcRecv
  rw [sameTasks]
  split <;> exact ⟨rfl, rfl, rfl, rfl, rfl⟩

theorem open_try_recv_core (buf : Buffer) (owner : TaskId) (bytes : List Byte) :
    SameCore (ipcTryRecv kernel hart caller buf).1
      (ipcTryRecv (openRecv kernel owner bytes) hart caller buf).1 := by
  have sameTasks : (openRecv kernel owner bytes).tasks = kernel.tasks := rfl
  unfold ipcTryRecv
  rw [sameTasks]
  split <;> exact ⟨rfl, rfl, rfl, rfl, rfl⟩

theorem recv_call_core (mask : Nat) (buf : UserBuffer) :
    SameCore (act kernel hart (entryAction kernel caller (.recv mask buf)))
      (recvCall kernel caller mask buf).1 := by
  have sameTasks : (openRecv kernel caller buf.bytes).tasks = kernel.tasks := rfl
  simp only [recvCall, entryAction, sameTasks]
  cases found : kernel.tasks.get caller with
  | none => exact ⟨rfl, rfl, rfl, rfl, rfl⟩
  | some task =>
    cases deaths : task.pendingDeaths with
    | nil =>
      simp only [bind_some, deaths, any_some]
      exact ⟨rfl, rfl, rfl, rfl, rfl⟩
    | cons notice rest =>
      simp only [bind_some, deaths, any_some]
      refine same_core_trans ?_ (return_notice_core _ _ _ _ _)
      exact ⟨rfl, rfl, rfl, rfl, rfl⟩

theorem enter_syscall_acts (call : Syscall) :
    SameCore (act kernel hart (entryAction kernel caller call))
      (enterSyscall kernel hart caller call).1 := by
  cases call with
  | send target bytes => exact send_call_core kernel hart caller target bytes
  | recv mask buf => exact recv_call_core kernel hart caller mask buf
  | sendGather target segments =>
    simp only [enterSyscall, sendGatherCall, entryAction]
    split
    · exact same_core_refl kernel
    · have opened := open_send_core kernel hart caller target
        ⟨kernel.nextTicket, .kernel, segments.flatten⟩ caller target segments.flatten
      exact ⟨opened.1, opened.2, opened.3, opened.4, opened.5⟩
  | recvScatter mask segments =>
    simp only [enterSyscall, recvScatterCall, entryAction]
    split
    · exact same_core_refl kernel
    · have opened := open_recv_core kernel hart caller mask
        ⟨.kernel, segments.flatten.length⟩ caller
        (replicate segments.flatten.length 0)
      exact ⟨opened.1, opened.2, opened.3, opened.4, opened.5⟩
  | recvTimeout mask buf =>
    have opened := open_recv_core kernel hart caller mask
      ⟨.user, buf.bytes.length⟩ caller buf.bytes
    simp only [enterSyscall, recvTimeoutCall]
    split
    · exact opened
    · exact ⟨opened.1, opened.2, opened.3, opened.4, opened.5⟩
  | tryRecv _ buf =>
    have opened := open_try_recv_core kernel hart caller
      ⟨.user, buf.bytes.length⟩ caller buf.bytes
    exact ⟨opened.1, opened.2, opened.3, opened.4, opened.5⟩
  | forceExit tid => exact force_exit_core kernel hart caller tid
  | capRevoke target mask => exact cap_revoke_core kernel hart caller target mask
  | notifyOnExit =>
    simp only [enterSyscall, notifyOnExitCall, entryAction]
    split
    · exact same_core_refl kernel
    · split
      · exact same_core_refl kernel
      · exact ⟨rfl, rfl, rfl, rfl, rfl⟩
  | registerService serviceId tid =>
    simp only [enterSyscall, registerServiceCall, entryAction]
    split
    · cases registered : register kernel.registry serviceId tid with
      | none => exact ⟨rfl, rfl, rfl, by simp [act, registered], rfl⟩
      | some => exact ⟨rfl, rfl, rfl, by simp [act, registered], rfl⟩
    · exact same_core_refl kernel
  | waitForEvent =>
    simp only [enterSyscall, waitForEventCall, entryAction]
    split <;> exact ⟨rfl, rfl, rfl, rfl, rfl⟩
  | spawnFromMem =>
    simp only [enterSyscall, entryAction]
    split <;> exact ⟨rfl, rfl, rfl, rfl, rfl⟩
  | spawnFromPath path load => exact spawn_path_core kernel caller path load _
  | spawnPinned path load =>
    simp only [enterSyscall]
    split
    · exact same_core_refl kernel
    · exact spawn_path_core kernel caller path load _
  | _ => exact ⟨rfl, rfl, rfl, rfl, rfl⟩

theorem resume_acts (resume : Resume) :
    SameCore (act kernel hart (frameAction kernel caller (.suspended resume)))
      (resumeSyscall kernel caller resume).1 := by
  cases resume with
  | recv =>
    simp only [resumeSyscall, frameAction]
    cases reason : (kernel.tasks.get caller).bind Task.pendingExitReason with
    | none => exact ⟨rfl, rfl, rfl, rfl, rfl⟩
    | some =>
      refine same_core_trans ?_ (return_notice_core _ _ _ _ _)
      exact ⟨rfl, rfl, rfl, rfl, rfl⟩
  | _ => exact ⟨rfl, rfl, rfl, rfl, rfl⟩

theorem recv_messages_acts (mask ptr len : Nat) :
    SameCore (act kernel hart (frameAction kernel caller (.recvMessages mask ptr len)))
      (recvMessages kernel caller mask ptr len).1 := by
  cases head : (kernel.tasks.get caller).bind (fun task => task.pendingMsgs.head?) with
  | none =>
    simp only [recvMessages, frameAction, head]
    exact same_core_refl kernel
  | some =>
    simp only [recvMessages, frameAction, head]
    split <;> exact ⟨rfl, rfl, rfl, rfl, rfl⟩

theorem frame_acts (frame : Frame) (running : ∀ resume, frame ≠ .yielding resume) :
    SameCore (act kernel hart (frameAction kernel caller frame))
      (advance kernel hart caller frame).1 := by
  cases frame with
  | yielding resume => exact absurd rfl (running resume)
  | dispatch call => exact enter_syscall_acts kernel hart caller call
  | suspended resume => exact resume_acts kernel hart caller resume
  | recvMessages mask ptr len => exact recv_messages_acts kernel hart caller mask ptr len
  | recvBlock =>
    simp only [advance, recvBlock]
    split <;> exact ⟨rfl, rfl, rfl, rfl, rfl⟩
  | memWire tid | spawnWire job tid =>
    simp only [advance, frameAction]
    split
    · exact same_core_refl kernel
    · exact modify_id_core kernel hart tid 0xff
  | spawnRelocate _ tid =>
    simp only [advance, frameAction]
    split
    · exact ⟨rfl, rfl, rfl, rfl, rfl⟩
    · exact modify_id_core kernel hart tid 0xff
  | swapFind =>
    simp only [advance, advanceSwap]
    split <;> exact ⟨rfl, rfl, rfl, rfl, rfl⟩
  | swapSnapshot swap => exact open_send_core kernel hart caller swap.oldTid _ _ _ _
  | swapRestore swap newTid =>
    have opened := open_send_core kernel hart caller newTid
      ⟨kernel.nextTicket, .kernel, restoreEnvelope swap.swapId⟩ caller newTid
      (restoreEnvelope swap.swapId)
    simp only [advance, advanceSwap]
    split
    · exact opened
    · exact ⟨opened.1, opened.2, opened.3, opened.4, opened.5⟩
  | swapReadyCheck =>
    simp only [advance, advanceSwap]
    split
    · exact ⟨rfl, rfl, rfl, rfl, rfl⟩
    · split <;> exact ⟨rfl, rfl, rfl, rfl, rfl⟩
  | swapDrain _ _ pending =>
    cases pending <;> exact ⟨rfl, rfl, rfl, rfl, rfl⟩
  | swapExit swap => exact modify_id_core kernel hart swap.oldTid hotswapExitReason
  | _ => exact ⟨rfl, rfl, rfl, rfl, rfl⟩

theorem frame_actions_single {frame : Frame} (running : ∀ resume, frame ≠ .yielding resume) :
    frameActions kernel hart caller frame = [frameAction kernel caller frame] := by
  cases frame with
  | yielding resume => exact absurd rfl (running resume)
  | _ => rfl

theorem advance_acts (frame : Frame) :
    SameCore (actAll kernel hart (frameActions kernel hart caller frame))
      (advance kernel hart caller frame).1 := by
  by_cases yields : ∃ resume, frame = .yielding resume
  · obtain ⟨resume, rfl⟩ := yields
    simp only [frameActions, yield_acts]
    exact same_core_refl _
  · have running : ∀ resume, frame ≠ .yielding resume := fun resume same => yields ⟨resume, same⟩
    rw [frame_actions_single kernel hart caller running]
    exact frame_acts kernel hart caller frame running

end

end

end

variable {hart : HartId}

theorem executing_eq {system : System} {tid : TaskId} (running : executing system hart = some tid) :
    tid = system.kernel.current hart := by
  unfold executing at running
  rw [map_eq_some_iff] at running
  obtain ⟨-, -, same⟩ := running
  exact same.symm

/-- Every step performs the actions that `actionsOf` names, up to fields no action
is about. -/
theorem step_acts {was after : System} {event : Event} (ran : step was event = some after) :
    SameCore (actAll was.kernel (actionsOf was event).1 (actionsOf was event).2) after.kernel := by
  cases step_shape ran with
  | enters _ _ _ runs =>
    obtain rfl := executing_eq runs
    exact ⟨rfl, rfl, rfl, rfl, rfl⟩
  | proceeds hart _ runs =>
    obtain rfl := executing_eq runs
    exact advance_acts was.kernel hart _ _
  | ticks hart =>
    have ticked := yield_acts (act was.kernel hart .tick) hart
    have whole : actAll was.kernel hart
        (.tick :: yieldActions (act was.kernel hart .tick) hart) = _ := ticked
    simp only [actionsOf, whole]
    exact ⟨rfl, rfl, rfl, rfl, rfl⟩
  | idles =>
    simp only [actionsOf, yield_acts]
    exact ⟨rfl, rfl, rfl, rfl, rfl⟩
  | faults hart _ runs =>
    obtain rfl := executing_eq runs
    exact modify_id_core was.kernel hart _ usizeMax
  | reports hart target => exact open_send_core was.kernel hart 0 target _ _ _ _
  | signals | comesOnline => exact ⟨rfl, rfl, rfl, rfl, rfl⟩

/-- What is known of an action's arguments from the handler that performs it. -/
def Own (kernel : Kernel) (hart : HartId) : Action → Prop
  | .acceptPending caller _ => caller = kernel.current hart
  | .arm caller _ => caller = kernel.current hart
  | .recv caller _ _ => caller = kernel.current hart
  | .tryRecv caller _ => caller = kernel.current hart
  | .reply caller _ => caller = kernel.current hart
  | .futexWait caller _ _ _ => caller = kernel.current hart
  | .wait caller _ => caller = kernel.current hart
  | .sleep caller _ => caller = kernel.current hart
  | .awaitEvent caller _ _ => caller = kernel.current hart
  | .subscribe watcher _ => watcher = kernel.current hart
  | .requeue tid =>
    tid = kernel.current hart ∧ ∃ task, kernel.tasks.get tid = some task ∧ task.state = .running
  | _ => True

def ActsMeet (meets : Kernel → HartId → Action → Prop) (kernel : Kernel) (hart : HartId)
    (actions : List Action) : Prop :=
  AllMeet (fun current action => some (act current hart action))
    (fun current action => meets current hart action) kernel actions

def StepMeets (meets : Kernel → HartId → Action → Prop) (system : System) (event : Event) :
    Prop :=
  ActsMeet meets system.kernel (actionsOf system event).1 (actionsOf system event).2

instance (meets : Kernel → HartId → Action → Prop)
    [∀ kernel hart action, Decidable (meets kernel hart action)] (system : System)
    (event : Event) : Decidable (StepMeets meets system event) :=
  AllMeet.decidable _ _ _ _

section Lists

variable {meets : Kernel → HartId → Action → Prop} {kernel : Kernel} {hart : HartId}

theorem acts_meet_cons (action : Action) (rest : List Action) :
    ActsMeet meets kernel hart (action :: rest) ↔
      meets kernel hart action ∧ ActsMeet meets (act kernel hart action) hart rest :=
  Iff.rfl

theorem acts_meet_append (first second : List Action) :
    ActsMeet meets kernel hart (first ++ second) ↔ ActsMeet meets kernel hart first ∧
        ActsMeet meets (actAll kernel hart first) hart second := by
  induction first generalizing kernel with
  | nil => exact ⟨fun met => ⟨trivial, met⟩, fun met => met.2⟩
  | cons action rest ih =>
    rw [cons_append, acts_meet_cons, ih, acts_meet_cons, and_assoc]
    rfl

theorem acts_meet_always (actions : List Action)
    (always : ∀ action ∈ actions, ∀ current, meets current hart action) :
    ActsMeet meets kernel hart actions := by
  induction actions generalizing kernel with
  | nil => trivial
  | cons action rest ih =>
    constructor
    · exact always action mem_cons_self kernel
    · exact ih (fun later mem => always later (mem_cons_of_mem _ mem))

variable {holds : Kernel → Prop}

theorem act_all_invariant (preserved : ∀ current action, holds current → meets current hart action →
      holds (act current hart action)) (actions : List Action) (initially : holds kernel)
    (met : ActsMeet meets kernel hart actions) : holds (actAll kernel hart actions) := by
  induction actions generalizing kernel with
  | nil => exact initially
  | cons action rest ih =>
    exact ih (preserved kernel action initially met.1) met.2

theorem act_all_preserved
    (preserved : ∀ current action, holds current → holds (act current hart action))
    (actions : List Action) (initially : holds kernel) : holds (actAll kernel hart actions) := by
  induction actions generalizing kernel with
  | nil => exact initially
  | cons action rest ih => exact ih (preserved kernel action initially)

def StepPerforms (performs : Kernel → Action → Prop) (system : System) (event : Event) : Prop :=
  Occurs (fun current action => some (act current (actionsOf system event).1 action)) performs
    system.kernel (actionsOf system event).2

theorem run_events_act (kernel : Kernel) (hart : HartId) (actions : List Action) :
    runEvents (fun current action => some (act current hart action)) kernel actions =
      some (actAll kernel hart actions) := by
  induction actions generalizing kernel with
  | nil => rfl
  | cons action rest ih => exact ih (act kernel hart action)

theorem step_introduces {introduces : Kernel → Action → Prop}
    (respects : ∀ {left right}, SameCore left right → holds right → holds left)
    (origin : ∀ current hart action, holds (act current hart action) →
      holds current ∨ introduces current action) {was after : System} {event : Event}
    (ran : step was event = some after) (held : holds after.kernel) :
    holds was.kernel ∨ StepPerforms introduces was event := by
  have performed := run_events_act was.kernel (actionsOf was event).1
    (actionsOf was event).2
  refine held_or_introduced ?_ performed (respects (step_acts ran) held)
  intro current action next acted held
  cases acted
  exact origin current _ action held

theorem run_introduces (holds : Kernel → Prop) {introduces : Kernel → Action → Prop}
    (respects : ∀ {left right}, SameCore left right → holds right → holds left)
    (origin : ∀ current hart action, holds (act current hart action) →
      holds current ∨ introduces current action) (fresh : ¬ holds initial.kernel)
    {events : List Event} {system : System} (ran : runEvents step initial events = some system)
    (held : holds system.kernel) : Occurs step (StepPerforms introduces) initial events :=
  (held_or_introduced (fun _ _ _ moved => step_introduces respects origin moved) ran
    held).resolve_left fresh

theorem acts_meet_and {other : Kernel → HartId → Action → Prop} (actions : List Action)
    (left : ActsMeet meets kernel hart actions) (right : ActsMeet other kernel hart actions) :
    ActsMeet (fun current hart action => meets current hart action ∧ other current hart action)
      kernel hart actions := by
  induction actions generalizing kernel with
  | nil => trivial
  | cons action rest ih =>
    exact ⟨⟨left.1, right.1⟩, ih left.2 right.2⟩

end Lists

def Scheduling : Action → Prop
  | .tick => True
  | .reap => True
  | .wakeDue => True
  | .requeue _ => True
  | .dispatch => True
  | .exit _ _ _ cause => cause.byScheduler = true
  | _ => False

theorem entry_spec (kernel : Kernel) (hart : HartId) (call : Syscall) :
    Own kernel hart (entryAction kernel (kernel.current hart) call) ∧
      ¬ Scheduling (entryAction kernel (kernel.current hart) call) := by
  cases call <;> simp only [entryAction] <;> (try split) <;> (try split) <;>
    simp [Own, Scheduling, ExitCause.byScheduler]

theorem frame_spec (kernel : Kernel) (hart : HartId) (frame : Frame) :
    Own kernel hart (frameAction kernel (kernel.current hart) frame) ∧
      ¬ Scheduling (frameAction kernel (kernel.current hart) frame) := by
  cases frame with
  | dispatch call => exact entry_spec kernel hart call
  | suspended resume =>
    cases resume <;> simp only [frameAction] <;> (try split) <;> simp [Own, Scheduling]
  | recvMessages =>
    simp only [frameAction]
    split <;> simp [Own, Scheduling]
  | memWire tid | spawnWire job tid | spawnRelocate job tid =>
    simp only [frameAction]
    split <;> simp [Own, Scheduling, ExitCause.byScheduler]
  | recvBlock | armTimeout | subscribe => exact ⟨rfl, not_false⟩
  | swapExit => simp [frameAction, Own, Scheduling, ExitCause.byScheduler]
  | _ => exact ⟨trivial, not_false⟩

theorem settle_own (kernel : Kernel) (hart : HartId) :
    ActsMeet Own kernel hart (settleActions kernel hart) := by
  simp only [settleActions]
  cases found : currentTask kernel hart with
  | none => trivial
  | some task =>
    have has := current_task_get found
    simp only
    split
    · rename_i running
      split
      · split
        · exact ⟨trivial, trivial, trivial⟩
        · refine ⟨trivial, ⟨rfl, Scheduler.countRunTick task, ?_, running⟩, trivial⟩
          simp [act, modifyTask, has, Edit.apply]
      · exact ⟨⟨rfl, task, has, running⟩, trivial⟩
    · exact ⟨trivial, trivial⟩

theorem yield_own (kernel : Kernel) (hart : HartId) :
    ActsMeet Own kernel hart (yieldActions kernel hart) := by
  unfold yieldActions prepareActions
  rw [acts_meet_append, acts_meet_cons, acts_meet_append]
  refine ⟨⟨trivial, ?_, settle_own _ hart⟩, trivial, trivial⟩
  apply acts_meet_always
  intro action mem current
  unfold sweepActions at mem
  split at mem
  · rcases mem_cons.mp mem with rfl | killed
    · trivial
    · obtain ⟨_, -, rfl⟩ := mem_map.mp killed
      trivial
  · cases mem

theorem frame_actions_own (kernel : Kernel) (hart : HartId) (frame : Frame) :
    ActsMeet Own kernel hart (frameActions kernel hart (kernel.current hart) frame) := by
  unfold frameActions
  split
  · exact yield_own kernel hart
  · exact ⟨(frame_spec kernel hart frame).1, trivial⟩

/-- The actions of `yield_cpu` before it picks the next task. -/
inductive Housekeeping : Action → Prop
  | reap : Housekeeping .reap
  | wakeDue : Housekeeping .wakeDue
  | count (tid : TaskId) : Housekeeping (.edit tid .countRunTick)
  | reset (tid : TaskId) : Housekeeping (.edit tid .resetWatchdog)
  | requeue (tid : TaskId) : Housekeeping (.requeue tid)
  | kill (tid : TaskId) (cause : ExitCause) (scheduled : cause.byScheduler = true) :
      Housekeeping (.exit tid usizeMax none cause)

variable {kernel : Kernel} {action : Action}

theorem settle_housekeeping (mem : action ∈ settleActions kernel hart) : Housekeeping action := by
  simp only [settleActions] at mem
  split at mem
  · cases mem
  · split at mem
    · split at mem
      · split at mem
        · rcases mem_pair.mp mem with rfl | rfl
          · exact .count _
          · exact .kill _ _ rfl
        · rcases mem_pair.mp mem with rfl | rfl
          · exact .count _
          · exact .requeue _
      · rw [mem_singleton] at mem
        rw [mem]
        exact .requeue _
    · rw [mem_singleton] at mem
      rw [mem]
      exact .reset _

theorem prepare_housekeeping (mem : action ∈ prepareActions kernel hart) : Housekeeping action := by
  rcases mem_append.mp mem with swept | settled
  · unfold sweepActions at swept
    split at swept
    · rcases mem_cons.mp swept with rfl | killed
      · exact .wakeDue
      · obtain ⟨tid, -, rfl⟩ := mem_map.mp killed
        exact .kill tid .hung rfl
    · cases swept
  · exact settle_housekeeping settled

theorem yield_housekeeping (mem : action ∈ yieldActions kernel hart) :
    Housekeeping action ∨ action = .dispatch := by
  rcases mem_append.mp mem with prepared | last
  · rcases mem_cons.mp prepared with rfl | prepared
    · exact Or.inl .reap
    · exact Or.inl (prepare_housekeeping prepared)
  · exact Or.inr (mem_singleton.mp last)

/-- Actions that steps perform outside of any handler's own sections. -/
inductive Background (kernel : Kernel) : Action → Prop
  | dispatcher (tid : TaskId) : Background kernel (.edit tid .resetWatchdog)
  | tick : Background kernel .tick
  | housekeeping (action : Action) (keeps : Housekeeping action) : Background kernel action
  | dispatch : Background kernel .dispatch
  | fault (tid : TaskId) : Background kernel (.exit tid usizeMax none .faulted)
  | driver (target : TaskId) (bytes : List Byte) :
      Background kernel (.send 0 target ⟨kernel.nextTicket, .kernel, bytes⟩)

theorem yield_background (original : Kernel) (mem : action ∈ yieldActions kernel hart) :
    Background original action := by
  rcases yield_housekeeping mem with keeps | rfl
  · exact .housekeeping action keeps
  · exact .dispatch

/-- An action is the one section of a handler, or belongs to no handler. -/
theorem action_source {system : System} {event : Event}
    (mem : action ∈ (actionsOf system event).2) :
    (∃ hart, event = .proceed hart ∧ action = frameAction system.kernel
        (system.kernel.current hart) (system.frames (system.kernel.current hart))) ∨
      Background system.kernel action := by
  cases event with
  | syscall =>
    right
    rw [mem_singleton.mp mem]
    exact .dispatcher _
  | proceed hart =>
    simp only [actionsOf, frameActions] at mem
    split at mem
    · exact Or.inr (yield_background _ mem)
    · exact Or.inl ⟨hart, rfl, mem_singleton.mp mem⟩
  | timer =>
    right
    rcases mem_cons.mp mem with rfl | mem
    · exact .tick
    · exact yield_background _ mem
  | idle => exact Or.inr (yield_background _ mem)
  | fault =>
    right
    rw [mem_singleton.mp mem]
    exact .fault _
  | driverSend _ target bytes =>
    right
    rw [mem_singleton.mp mem]
    exact .driver target bytes
  | signalNetRx => cases mem
  | rtHartOnline => cases mem

theorem actions_own (system : System) (event : Event) : StepMeets Own system event := by
  cases event with
  | syscall hart call | fault hart | driverSend hart target bytes => exact ⟨trivial, trivial⟩
  | proceed hart => exact frame_actions_own system.kernel hart _
  | timer hart => exact ⟨trivial, yield_own _ hart⟩
  | idle hart => exact yield_own _ hart
  | signalNetRx => trivial
  | rtHartOnline => trivial

end ViCell.Core.Effects

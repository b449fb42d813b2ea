import ViCell.Core.Effects

/-!
# What one action does

`act_task` is the inversion lemma of the action layer: it lists every way in
which an action can change the control block of a live task.  `act_state` is its
reading for the `state` field; `act_queue` and `act_current` do the same for the
ready queues and the current-task words.  Invariants are derived from these and
never unfold a handler.
-/

namespace ViCell.Core.Transitions

open Lib Core.Tcb Core.Ready Core.State Core.Scheduler Core.Ipc Core.HotSwap Core.Machine
open List Option IdTable
open Core.Effects

def stateOf (tasks : IdTable Task) (id : TaskId) : Option TaskState :=
  (tasks.get id).map Task.state

def Wakes (kernel : Kernel) (id : TaskId) (task : Task) : Action → Prop
  | .send _ target _ => id = target ∧ task.state.isRecv
  | .recv caller _ _ => task.state.sendTarget = some caller
  | .tryRecv caller _ => task.state.sendTarget = some caller
  | .reply caller _ => (kernel.tasks.get caller).bind Task.currentCaller = some id
  | .exit tid _ _ _ => id ≠ tid ∧ WokenByExit kernel tid id task
  | .wakeDue => isTimed task.state
  | .requeue tid => id = tid
  | .futexWake addr _ => task.state = .futexWait addr
  | .rollback tid _ => id = tid ∧ task.state.isFrozen
  | _ => False

def Parks (kernel : Kernel) (id : TaskId) (task : Task) (state : TaskState) : Action → Prop
  | .send caller target message =>
    id = caller ∧ SendBlocks kernel target ∧ state = .sending target message
  | .recv caller mask buffer =>
    id = caller ∧ findSender kernel.tasks caller = none ∧ state = .recv mask buffer none
  | .arm caller deadline =>
    id = caller ∧ ∃ mask buffer due, task.state = .recv mask buffer due ∧
      state = .recv mask buffer (some deadline)
  | .futexWait caller addr value observed =>
    id = caller ∧ observed = value ∧ state = .futexWait addr
  | .wait caller pid =>
    id = caller ∧ (∃ target, kernel.tasks.get pid = some target ∧ target.state ≠ .terminated) ∧
      state = .waiting pid
  | .sleep caller wakeAt => id = caller ∧ state = .sleeping wakeAt
  | .awaitEvent caller mask deadline => id = caller ∧ state = .waitEvent mask deadline
  | _ => False

/-- Everything an action can do to the state of a live task. -/
inductive StateChange (kernel : Kernel) (id : TaskId) (task : Task) (action : Action) :
    Option TaskState → Prop
  | same : StateChange kernel id task action (some task.state)
  | woken (wakes : Wakes kernel id task action) :
      StateChange kernel id task action (some .ready)
  | parked (state : TaskState) (parks : Parks kernel id task state action) :
      StateChange kernel id task action (some state)
  | dispatched (picks : action = .dispatch) (queued : id ∈ queued kernel) :
      StateChange kernel id task action (some .running)
  | frozen (swapId : Nat) (freezes : action = .freeze id swapId) :
      StateChange kernel id task action (some (.frozen swapId))
  | gone (reason : Nat) (code : Option Nat) (cause : ExitCause)
      (exits : action = .exit id reason code cause) :
      StateChange kernel id task action none

/-- What taking the message of `sender` does to task `id`. -/
def acceptEffect (caller sender id : TaskId) (task : Task) : Task :=
  let readied := if id = sender then { task with state := .ready } else task
  if id = caller then { readied with currentCaller := some sender } else readied

def replyEffect (caller target : TaskId) (result : Nat) (id : TaskId) (task : Task) : Task :=
  let answered := if id = target then { task with state := .ready, replyValue := some result }
    else task
  if id = caller then { answered with currentCaller := none } else answered

def waitEffect (caller pid id : TaskId) (task : Task) : Task :=
  let joined := if id = pid then { task with waiters := task.waiters ++ [caller] } else task
  if id = caller then { joined with state := .waiting pid } else joined

def Exits : Action → Prop
  | .exit _ _ _ _ => True
  | _ => False

/-- Everything an action can do to the control block of a task that survives it. -/
inductive TaskChange (kernel : Kernel) (id : TaskId) (task : Task) : Action → Task → Prop
  | same (action : Action) (stays : ¬ Exits action) : TaskChange kernel id task action task
  | edited (edit : Edit) : TaskChange kernel id task (.edit id edit) (edit.apply task)
  | unbuffered (sender : TaskId) :
      TaskChange kernel id task (.acceptPending id sender)
        { task with pendingMsgs := task.pendingMsgs.tail, currentCaller := some sender }
  | armed (deadline : Nat) :
      TaskChange kernel id task (.arm id deadline) (installDeadline deadline task)
  | buffered (caller : TaskId) (message : Message) (frozen : task.state.isFrozen) :
      TaskChange kernel id task (.send caller id message)
        { task with pendingMsgs := task.pendingMsgs ++ [⟨caller, message, kernel.ticks⟩] }
  | delivered (caller : TaskId) (message : Message) (receiving : task.state.isRecv) :
      TaskChange kernel id task (.send caller id message)
        { task with state := .ready, currentCaller := some caller }
  | blocked (target : TaskId) (message : Message) (blocks : SendBlocks kernel target) :
      TaskChange kernel id task (.send id target message)
        { task with state := .sending target message }
  | received (caller sender : TaskId) (mask : Nat) (buffer : Buffer) (message : Message)
      (waiting : findSender kernel.tasks caller = some (sender, message)) :
      TaskChange kernel id task (.recv caller mask buffer) (acceptEffect caller sender id task)
  | parked (mask : Nat) (buffer : Buffer) (empty : findSender kernel.tasks id = none) :
      TaskChange kernel id task (.recv id mask buffer)
        { task with state := .recv mask buffer none }
  | polled (caller sender : TaskId) (buffer : Buffer) (message : Message)
      (waiting : findSender kernel.tasks caller = some (sender, message)) :
      TaskChange kernel id task (.tryRecv caller buffer) (acceptEffect caller sender id task)
  | replied (caller target : TaskId) (result : Nat)
      (named : (kernel.tasks.get caller).bind Task.currentCaller = some target) :
      TaskChange kernel id task (.reply caller result) (replyEffect caller target result id task)
  | survived (tid : TaskId) (reason : Nat) (code : Option Nat) (cause : ExitCause)
      (other : id ≠ tid) :
      TaskChange kernel id task (.exit tid reason code cause)
        (survivor kernel tid reason id task)
  | expired (a0 misses : Nat) (timed : isTimed task.state) :
      TaskChange kernel id task .wakeDue
        { task with state := .ready, a0 := a0, deadlineMisses := misses }
  | requeued : TaskChange kernel id task (.requeue id) { task with state := .ready }
  | dispatched (queued : id ∈ queued kernel) :
      TaskChange kernel id task .dispatch { task with state := .running }
  | futexParked (addr value : Nat) :
      TaskChange kernel id task (.futexWait id addr value value)
        { task with state := .futexWait addr }
  | futexWoken (addr count : Nat) (waits : task.state = .futexWait addr) :
      TaskChange kernel id task (.futexWake addr count) { task with state := .ready }
  | waits (caller pid : TaskId) (target : Task) (present : kernel.tasks.get pid = some target)
      (alive : target.state ≠ .terminated) :
      TaskChange kernel id task (.wait caller pid) (waitEffect caller pid id task)
  | slept (wakeAt : Nat) :
      TaskChange kernel id task (.sleep id wakeAt) { task with state := .sleeping wakeAt }
  | awaits (mask : Nat) (deadline : Option Nat) :
      TaskChange kernel id task (.awaitEvent id mask deadline)
        { task with state := .waitEvent mask deadline }
  | frozen (swapId : Nat) :
      TaskChange kernel id task (.freeze id swapId) { task with state := .frozen swapId }
  | thawed (swapId : Nat) (frozen : task.state.isFrozen) :
      TaskChange kernel id task (.rollback id swapId) { task with state := .ready }

section OneTask

variable {kernel : Kernel} {hart : HartId} {id : TaskId} {task : Task}

theorem exit_table_recorded (tid : TaskId) (code : Option Nat) (reason : Nat) :
    exitTable (modifyTask kernel tid (recordExitCode code)) tid reason =
      exitTable kernel tid reason := by
  have waiters : waitersOf (modifyTask kernel tid (recordExitCode code)) tid =
      waitersOf kernel tid := by
    simp only [waitersOf, modifyTask, IdTable.get_modify, if_true, Option.map_map]
    congr 2
    cases code <;> rfl
  simp only [exitTable, waiters]
  simp only [modifyTask, erase_modify]

theorem act_exit_tasks (tid : TaskId) (reason : Nat) (code : Option Nat) (cause : ExitCause) :
    (act kernel hart (.exit tid reason code cause)).tasks = (exitTable kernel tid reason).1 := by
  have exited : (exitTask (modifyTask kernel tid (recordExitCode code)) hart tid reason).tasks =
      (exitTable kernel tid reason).1 :=
    congrArg Prod.fst (exit_table_recorded tid code reason)
  simp only [act, retire]
  split
  · split <;> exact exited
  · exact exited

theorem act_exit_ready (tid : TaskId) (reason : Nat) (code : Option Nat) (cause : ExitCause) :
    (act kernel hart (.exit tid reason code cause)).ready =
      (exitTask kernel hart tid reason).ready := by
  have exited : (exitTask (modifyTask kernel tid (recordExitCode code)) hart tid reason).ready =
      (exitTask kernel hart tid reason).ready := by
    simp only [exitTask, exit_table_recorded]
    rfl
  simp only [act, retire]
  split
  · split <;> exact exited
  · exact exited

theorem change_of_modify {action : Action} {change : Task → Task}
    (found : kernel.tasks.get id = some task) (target : TaskId)
    (here : id = target → TaskChange kernel id task action (change task))
    (stays : ¬ Exits action) :
    ∃ after, (kernel.tasks.modify target change).get id = some after ∧
      TaskChange kernel id task action after := by
  by_cases same : id = target
  · subst same
    exact ⟨change task, by simp [found], here rfl⟩
  · exact ⟨task, by simp [same, found], .same action stays⟩

theorem change_at {action : Action} {change : Task → Task}
    (found : kernel.tasks.get id = some task) (target : TaskId)
    (here : TaskChange kernel target task action (change task)) (stays : ¬ Exits action) :
    ∃ after, (kernel.tasks.modify target change).get id = some after ∧
      TaskChange kernel id task action after :=
  change_of_modify found target (fun same => same ▸ here) stays

theorem change_of_same {action : Action} {tasks : IdTable Task} (stays : ¬ Exits action)
    (found : kernel.tasks.get id = some task) (same : tasks = kernel.tasks) :
    ∃ after, tasks.get id = some after ∧ TaskChange kernel id task action after := by
  rw [same]
  exact ⟨task, found, .same action stays⟩

section

variable (found : kernel.tasks.get id = some task)
include found

theorem send_change (caller target : TaskId) (msg : Message) :
    ∃ after, (ipcSend kernel hart caller target msg).1.tasks.get id = some after ∧
      TaskChange kernel id task (.send caller target msg) after := by
  rcases ipc_send_cases kernel hart caller target msg with refused | queues | delivers | blocks
  · rw [refused]
    exact change_of_same not_false found rfl
  · obtain ⟨receiver, _, has, state, _, out⟩ := queues
    rw [out]
    refine change_of_modify found target ?_ not_false
    rintro rfl
    rw [found] at has
    cases has
    exact .buffered caller msg (by simp [state, TaskState.isFrozen])
  · obtain ⟨receiver, _, _, _, has, state, out⟩ := delivers
    rw [out]
    refine change_of_modify found target ?_ not_false
    rintro rfl
    rw [found] at has
    cases has
    exact .delivered caller msg (by simp [state, TaskState.isRecv])
  · obtain ⟨blocked, out⟩ := blocks
    rw [out]
    refine change_of_modify found caller ?_ not_false
    rintro rfl
    exact .blocked target msg blocked

theorem accept_get (caller sender : TaskId) (msg : Message) (bufferLen : Nat) :
    (acceptSender kernel hart caller sender msg bufferLen).tasks.get id =
      some (acceptEffect caller sender id task) := by
  simp only [acceptSender, acceptEffect, modifyTask, setState, pushReady, copyMessage,
    get_modify, found]
  split <;> split <;> rfl

theorem reply_get (caller target : TaskId) (out : Nat) :
    ((kernel.tasks.modify target
      (fun task => { task with state := .ready, replyValue := some out })).modify caller
        (fun task => { task with currentCaller := none })).get id =
      some (replyEffect caller target out id task) := by
  simp only [replyEffect, get_modify, found]
  split <;> split <;> rfl

theorem wait_get (caller pid : TaskId) :
    ((kernel.tasks.modify pid
      (fun task => { task with waiters := task.waiters ++ [caller] })).modify caller
        (fun task => { task with state := .waiting pid })).get id =
      some (waitEffect caller pid id task) := by
  simp only [waitEffect, get_modify, found]
  split <;> split <;> rfl

theorem wake_due_change : ∃ after, (act kernel hart .wakeDue).tasks.get id = some after ∧
      TaskChange kernel id task .wakeDue after := by
  have swept := (sweep_all_spec
    { kernel with lastGlobalSweepTick := max kernel.lastGlobalSweepTick kernel.ticks }).2 id
  rcases swept with ⟨-, was, flag, out, has, due, after⟩ | ⟨-, kept⟩
  · have same : was = task := some.inj (has.symm.trans found)
    subst same
    obtain ⟨timed, shape⟩ := sweep_task_woken due
    refine ⟨out.1, after, ?_⟩
    rw [shape]
    exact .expired _ _ timed
  · exact ⟨task, kept.trans found, .same _ not_false⟩

theorem dispatch_change : ∃ after, (act kernel hart .dispatch).tasks.get id = some after ∧
      TaskChange kernel id task .dispatch after := by
  simp only [act, dispatchNext]
  cases picked : pickOrSteal kernel.ready hart with
  | none => exact change_of_same not_false found rfl
  | some taken =>
    refine change_of_modify found taken.1 ?_ not_false
    rintro rfl
    exact .dispatched ((pick_or_steal_perm picked).mem_iff.mpr mem_cons_self)

theorem futex_wake_change (addr count : Nat) :
    ∃ after, (act kernel hart (.futexWake addr count)).tasks.get id = some after ∧
      TaskChange kernel id task (.futexWake addr count) after := by
  simp only [act, futexWake, pushAllReady, get_map_each, found, map_some,
    some.injEq, exists_eq_left']
  split
  · rename_i mem
    have listed := mem_of_mem_take mem
    rw [mem_filter, found] at listed
    exact .futexWoken addr count (by simpa using listed.2)
  · exact .same _ not_false

theorem act_change (action : Action) (stays : ¬ Exits action) :
    ∃ after, (act kernel hart action).tasks.get id = some after ∧
      TaskChange kernel id task action after := by
  cases action with
  | exit => exact absurd trivial stays
  | edit tid edit => exact change_at found tid (.edited edit) stays
  | acceptPending caller sender => exact change_at found caller (.unbuffered sender) stays
  | arm caller deadline => exact change_at found caller (.armed deadline) stays
  | spawn =>
    have older : id ≠ kernel.tasks.next := Nat.ne_of_lt (lt_next_of_get found)
    exact ⟨task, by simp [act, spawn, pushReady, older, found], .same _ stays⟩
  | send caller target msg => exact send_change found caller target msg
  | recv caller mask buf =>
    simp only [act, ipcRecv]
    split
    · rename_i sender msg waiting
      exact ⟨_, accept_get found caller sender msg buf.len,
        .received caller sender mask buf msg waiting⟩
    · rename_i empty
      exact change_at found caller (.parked mask buf empty) stays
  | tryRecv caller buf =>
    simp only [act, ipcTryRecv]
    split
    · rename_i sender msg waiting
      exact ⟨_, accept_get found caller sender msg buf.len, .polled caller sender buf msg waiting⟩
    · exact change_of_same stays found rfl
  | reply caller out =>
    simp only [act, ipcReply]
    split
    · exact change_of_same stays found rfl
    · rename_i target named
      exact ⟨_, reply_get found caller target out, .replied caller target out named⟩
  | wakeDue => exact wake_due_change found
  | requeue tid => exact change_at found tid .requeued stays
  | dispatch => exact dispatch_change found
  | futexWait caller addr _ observed =>
    simp only [act, futexWait]
    split
    · exact change_of_same stays found rfl
    · rename_i same
      rw [not_not] at same
      subst same
      split
      · exact change_at found caller (.futexParked addr observed) stays
      · exact change_of_same stays found rfl
  | futexWake addr count => exact futex_wake_change found addr count
  | wait caller pid =>
    simp only [act, waitCall]
    cases has : kernel.tasks.get pid with
    | none => exact change_of_same stays found rfl
    | some target =>
      simp only
      split
      · exact change_of_same stays found rfl
      · rename_i alive
        exact ⟨_, wait_get found caller pid, .waits caller pid target has alive⟩
  | sleep caller wakeAt => exact change_at found caller (.slept wakeAt) stays
  | awaitEvent caller mask deadline => exact change_at found caller (.awaits mask deadline) stays
  | freeze tid swapId =>
    simp only [act, setTaskFrozen]
    split
    · exact change_of_same stays found rfl
    · exact change_at found tid (.frozen swapId) stays
  | rollback tid swapId =>
    simp only [act, unfreezeTask]
    split
    · exact change_of_same stays found rfl
    · rename_i target has
      split
      · rename_i thawed
        refine change_of_modify found tid ?_ stays
        rintro rfl
        rw [found] at has
        cases has
        exact .thawed swapId thawed
      · exact change_of_same stays found rfl
  | _ => exact change_of_same stays found rfl

/-- The inversion lemma of the action layer: what happens to a live task. -/
theorem act_task (action : Action) : (∃ after, (act kernel hart action).tasks.get id = some after ∧
        TaskChange kernel id task action after) ∨
      ((act kernel hart action).tasks.get id = none ∧
        ∃ reason code cause, action = .exit id reason code cause) := by
  by_cases exits : Exits action
  · cases action with
    | exit tid reason code cause =>
      rw [act_exit_tasks, exit_table_get, found]
      by_cases dying : id = tid
      · subst dying
        exact Or.inr ⟨if_pos rfl, reason, code, cause, rfl⟩
      · left
        exact ⟨_, if_neg dying, .survived tid reason code cause dying⟩
    | _ => exact exits.elim
  · exact Or.inl (act_change found action exits)

end

theorem state_of_get {tasks : IdTable Task} (found : tasks.get id = some task) :
    stateOf tasks id = some task.state := by
  simp [stateOf, found]

section

variable (found : kernel.tasks.get id = some task)
include found

theorem accept_effect_state {action : Action} {caller sender : TaskId} {msg : Message}
    (waiting : findSender kernel.tasks caller = some (sender, msg))
    (wakes : task.state.sendTarget = some caller → Wakes kernel id task action) :
    StateChange kernel id task action (some (acceptEffect caller sender id task).state) := by
  by_cases isSender : id = sender
  · have ready : (acceptEffect caller sender id task).state = .ready := by
      simp only [acceptEffect, isSender, if_true]
      split <;> rfl
    rw [ready]
    obtain ⟨_, has, state⟩ := find_sender_some waiting
    rw [isSender, has] at found
    cases found
    apply StateChange.woken
    apply wakes
    rw [state]
    rfl
  · have kept : (acceptEffect caller sender id task).state = task.state := by
      simp only [acceptEffect, isSender, if_false]
      split <;> rfl
    rw [kept]
    exact .same

theorem change_state {action : Action} {after : Task}
    (change : TaskChange kernel id task action after) :
    StateChange kernel id task action (some after.state) := by
  cases change with
  | same => exact .same
  | edited edit =>
    rw [(edit_keeps edit task).1]
    exact .same
  | unbuffered => exact .same
  | armed =>
    unfold installDeadline
    split
    · rename_i mask buf due state
      exact .parked _ ⟨rfl, mask, buf, due, state, rfl⟩
    · exact .same
  | buffered => exact .same
  | delivered _ _ receiving => exact .woken ⟨rfl, receiving⟩
  | blocked _ _ blocks => exact .parked _ ⟨rfl, blocks, rfl⟩
  | received caller sender mask buf msg waiting
  | polled _ _ _ _ waiting =>
    exact accept_effect_state found waiting (fun wakes => wakes)
  | parked _ _ empty => exact .parked _ ⟨rfl, empty, rfl⟩
  | replied caller target out named =>
    by_cases answered : id = target
    · have ready : (replyEffect caller target out id task).state = .ready := by
        simp only [replyEffect, answered, if_true]
        split <;> rfl
      rw [ready]
      subst answered
      exact .woken named
    · have kept : (replyEffect caller target out id task).state = task.state := by
        simp only [replyEffect, answered, if_false]
        split <;> rfl
      rw [kept]
      exact .same
  | survived _ _ _ _ other =>
    rw [survivor_state]
    split
    · rename_i woken
      exact .woken ⟨other, woken⟩
    · exact .same
  | expired _ _ timed => exact .woken timed
  | requeued => exact .woken rfl
  | dispatched queued => exact .dispatched rfl queued
  | futexParked => exact .parked _ ⟨rfl, rfl, rfl⟩
  | futexWoken _ _ waits => exact .woken waits
  | waits caller pid target has alive =>
    by_cases isCaller : id = caller
    · have waiting : (waitEffect caller pid id task).state = .waiting pid := by
        simp only [waitEffect, isCaller, if_true]
      rw [waiting]
      exact .parked _ ⟨isCaller, ⟨target, has, alive⟩, rfl⟩
    · have kept : (waitEffect caller pid id task).state = task.state := by
        simp only [waitEffect, isCaller, if_false]
        split <;> rfl
      rw [kept]
      exact .same
  | slept wakeAt | awaits mask deadline => exact .parked _ ⟨rfl, rfl⟩
  | frozen swapId => exact .frozen swapId rfl
  | thawed _ frozen => exact .woken ⟨rfl, frozen⟩

theorem act_state (action : Action) :
    StateChange kernel id task action (stateOf (act kernel hart action).tasks id) := by
  rcases act_task found action with ⟨after, has, change⟩ | ⟨gone, reason, code, cause, rfl⟩
  · rw [state_of_get has]
    exact change_state found change
  · rw [stateOf, gone]
    exact .gone reason code cause rfl

theorem act_live (action : Action) : (∃ after, (act kernel hart action).tasks.get id = some after) ∨
      ∃ reason code cause, action = .exit id reason code cause := by
  rcases act_task found action with ⟨after, has, -⟩ | ⟨-, exits⟩
  · exact Or.inl ⟨after, has⟩
  · exact Or.inr exits

end

end OneTask

/-- Id 0 means "idle" or "the kernel" and is never handed out. -/
def ZeroFree (kernel : Kernel) : Prop :=
  kernel.tasks.get 0 = none ∧ 0 < kernel.tasks.next

theorem wake_waiters_next (reason : Nat) (waiters : List TaskId) (tasks : IdTable Task) :
    (wakeWaiters reason waiters tasks).next = tasks.next := by
  induction waiters generalizing tasks with
  | nil => rfl
  | cons waiter rest ih =>
    have later := ih (tasks.modify waiter (wakeWaiter reason))
    exact later

theorem notify_watchers_next (dead : TaskId) (reason : Nat) (watchers : List TaskId)
    (tasks : IdTable Task) :
    (notifyWatchers dead reason watchers tasks).1.next = tasks.next := by
  induction watchers generalizing tasks with
  | nil => rfl
  | cons watcher rest ih =>
    have later := ih (tasks.modify watcher (notifyWatcher dead reason))
    exact later

theorem sweep_step_next (now : Nat) (ids : List TaskId) (sweep : Sweep) :
    (ids.foldl (sweepStep now) sweep).tasks.next = sweep.tasks.next := by
  induction ids generalizing sweep with
  | nil => rfl
  | cons id rest ih =>
    rw [foldl_cons, ih]
    unfold sweepStep
    split <;> rfl

section Absent

variable {kernel : Kernel} {hart : HartId} {id : TaskId}

/-- No task is added: the counter stands and a missing task stays missing. -/
structure NoneAdded (before after : IdTable Task) : Prop where
  next : after.next = before.next
  absent (id : TaskId) : before.get id = none → after.get id = none

theorem NoneAdded.refl (tasks : IdTable Task) : NoneAdded tasks tasks :=
  ⟨rfl, fun _ gone => gone⟩

theorem NoneAdded.modify {was after : IdTable Task} (kept : NoneAdded was after)
    (target : TaskId) (change : Task → Task) : NoneAdded was (after.modify target change) := by
  constructor
  · exact kept.next
  · intro id gone
    rw [get_modify, kept.absent id gone]
    split <;> rfl

theorem modify_none_added (tasks : IdTable Task) (target : TaskId) (change : Task → Task) :
    NoneAdded tasks (tasks.modify target change) :=
  (NoneAdded.refl tasks).modify target change

/-- What edits of control blocks and moves in the ready queues lead to. -/
inductive Updates (kernel : Kernel) : Kernel → Prop
  | done : Updates kernel kernel
  | core {after next : Kernel} (earlier : Updates kernel after) (same : SameCore after next) :
      Updates kernel next
  | modify {after : Kernel} (earlier : Updates kernel after) (tid : TaskId)
      (change : Task → Task) (keeps : ∀ task, (change task).priority = task.priority) :
      Updates kernel (modifyTask after tid change)
  | push {after : Kernel} (earlier : Updates kernel after) (hart : HartId) (tid : TaskId) :
      Updates kernel (pushReady after hart tid)
  | unqueue {after : Kernel} (earlier : Updates kernel after) (tid : TaskId) :
      Updates kernel { after with ready := removeFromAll after.ready tid }

theorem Updates.state {after : Kernel} (earlier : Updates kernel after) (tid : TaskId)
    (state : TaskState) : Updates kernel (setState after tid state) :=
  earlier.modify tid _ (fun _ => rfl)

theorem Updates.copied (sender receiver : TaskId) (msg : Message) (length : Nat) :
    Updates kernel (copyMessage kernel sender receiver msg length) :=
  .core .done ⟨rfl, rfl, rfl, rfl, rfl⟩

theorem accept_updates (caller sender : TaskId) (msg : Message) (length : Nat) :
    Updates kernel (acceptSender kernel hart caller sender msg length) :=
  .modify (.push (.state (.copied sender caller msg length) sender .ready) hart sender)
    caller _ (by exact fun _ => rfl)

/-- Actions that do no more than `Updates` lists. -/
def Local : Action → Prop
  | .edit _ _ => False
  | .spawn _ => False
  | .exit _ _ _ _ => False
  | .tick => False
  | .reap => False
  | .wakeDue => False
  | .dispatch => False
  | .futexWake _ _ => False
  | .register _ _ => False
  | .clearRegistry _ => False
  | .subscribe _ _ => False
  | _ => True

theorem act_updates {action : Action} (inside : Local action) :
    Updates kernel (act kernel hart action) := by
  cases action with
  | quiet => exact .done
  | acceptPending caller => exact Updates.done.modify caller _ (fun _ => rfl)
  | arm caller =>
    refine Updates.done.modify caller _ ?_
    intro task
    unfold installDeadline
    split <;> rfl
  | send caller target msg =>
    rcases ipc_send_cases kernel hart caller target msg with
      refused | ⟨_, _, _, _, _, queues⟩ | ⟨_, _, buf, _, _, _, delivers⟩ | ⟨_, blocks⟩
    · rw [act, refused]
      exact .done
    · rw [act, queues]
      exact .core (.modify .done target _ (by exact fun _ => rfl)) ⟨rfl, rfl, rfl, rfl, rfl⟩
    · rw [act, delivers]
      exact .push (.modify (.copied caller target msg buf.len) target _
        (by exact fun _ => rfl)) hart target
    · rw [act, blocks]
      exact Updates.done.state caller _
  | recv caller =>
    simp only [act, ipcRecv]
    split
    · exact accept_updates caller _ _ _
    · exact Updates.done.state caller _
  | tryRecv caller =>
    simp only [act, ipcTryRecv]
    split
    · exact accept_updates caller _ _ _
    · exact .done
  | reply caller =>
    simp only [act, ipcReply]
    split
    · exact .done
    · rename_i target named
      exact .modify (.push (.modify .done target _ (by exact fun _ => rfl)) hart target) caller _
        (by exact fun _ => rfl)
  | requeue tid => exact (Updates.done.state tid .ready).push hart tid
  | futexWait caller =>
    simp only [act, futexWait]
    split
    · exact .done
    · split
      · exact Updates.done.state caller _
      · exact .done
  | wait caller pid =>
    simp only [act, waitCall]
    split
    · exact .done
    · split
      · exact .done
      · exact .state (.modify .done pid _ (by exact fun _ => rfl)) caller _
  | sleep caller _ | awaitEvent caller _ _ => exact Updates.done.state caller _
  | freeze tid =>
    simp only [act, setTaskFrozen]
    split
    · exact .done
    · exact (Updates.done.state tid _).unqueue tid
  | rollback tid =>
    simp only [act, unfreezeTask]
    split
    · exact .done
    · split
      · exact (Updates.done.state tid .ready).push hart tid
      · exact .done
  | _ => exact inside.elim

theorem Updates.fields {after : Kernel} (updates : Updates kernel after) :
    NoneAdded kernel.tasks after.tasks ∧ after.current = kernel.current ∧
      after.registry = kernel.registry := by
  induction updates with
  | done => exact ⟨.refl _, rfl, rfl⟩
  | modify _ tid change _ ih => exact ⟨ih.1.modify tid change, ih.2⟩
  | core _ same => rwa [same.tasks, same.current, same.registry]
  | push _ _ _ ih | unqueue _ _ ih => exact ih

theorem exit_none_added (tid : TaskId) (reason : Nat) (code : Option Nat) (cause : ExitCause) :
    NoneAdded kernel.tasks (act kernel hart (.exit tid reason code cause)).tasks := by
  rw [act_exit_tasks]
  constructor
  · simp only [exitTable]
    rw [notify_watchers_next, wake_waiters_next]
    rfl
  · intro id gone
    rw [exit_table_get, gone]
    split <;> rfl

theorem wake_due_none_added : NoneAdded kernel.tasks (act kernel hart .wakeDue).tasks := by
  constructor
  · exact sweep_step_next kernel.ticks kernel.tasks.ids ⟨kernel.tasks, kernel.netRxPending, []⟩
  · intro id gone
    rcases (sweep_all_spec { kernel with
      lastGlobalSweepTick := max kernel.lastGlobalSweepTick kernel.ticks }).2 id with
      ⟨-, was, flag, out, has, -, -⟩ | ⟨-, kept⟩
    · cases gone.symm.trans has
    · exact kept.trans gone

theorem act_none_added {action : Action} (spawnless : ∀ cellId, action ≠ .spawn cellId) :
    NoneAdded kernel.tasks (act kernel hart action).tasks := by
  by_cases inside : Local action
  · exact (act_updates inside).fields.1
  cases action with
  | spawn cellId => exact absurd rfl (spawnless cellId)
  | edit => exact modify_none_added _ _ _
  | exit tid reason code cause => exact exit_none_added tid reason code cause
  | wakeDue => exact wake_due_none_added
  | dispatch =>
    simp only [act, dispatchNext]
    split
    · exact modify_none_added _ _ _
    · exact .refl _
  | futexWake =>
    exact ⟨rfl, fun id gone => by simp [act, futexWake, pushAllReady, gone]⟩
  | _ => first | exact absurd trivial inside | exact .refl _

theorem act_next (action : Action) : kernel.tasks.next ≤ (act kernel hart action).tasks.next := by
  by_cases spawns : ∃ cellId, action = .spawn cellId
  · obtain ⟨cellId, rfl⟩ := spawns
    exact Nat.le_succ _
  · exact (act_none_added (not_exists.mp spawns)).next.ge

theorem act_absent (gone : kernel.tasks.get id = none) (action : Action) :
    (act kernel hart action).tasks.get id = none ∨
      ∃ cellId, action = .spawn cellId ∧ id = kernel.tasks.next ∧
        (act kernel hart action).tasks.get id = some (Task.new cellId) := by
  by_cases spawns : ∃ cellId, action = .spawn cellId
  · obtain ⟨cellId, rfl⟩ := spawns
    by_cases fresh : id = kernel.tasks.next
    · exact Or.inr ⟨cellId, rfl, fresh, by simp [act, spawn, pushReady, fresh]⟩
    · simp [act, spawn, pushReady, fresh, gone]
  · exact Or.inl ((act_none_added (not_exists.mp spawns)).absent id gone)

/-- The inversion lemma read backwards: where a task's control block comes from. -/
theorem act_origin {action : Action} {after : Task}
    (has : (act kernel hart action).tasks.get id = some after) :
    (∃ task, kernel.tasks.get id = some task ∧ TaskChange kernel id task action after) ∨
      ∃ cellId, action = .spawn cellId ∧ id = kernel.tasks.next ∧ after = Task.new cellId := by
  cases found : kernel.tasks.get id with
  | none =>
    rcases act_absent found action with gone | ⟨cellId, spawns, fresh, created⟩
    · rw [gone] at has
      cases has
    · rw [created] at has
      cases has
      exact Or.inr ⟨cellId, spawns, fresh, rfl⟩
  | some task =>
    rcases act_task found action with ⟨other, here, change⟩ | ⟨gone, -⟩
    · rw [here] at has
      cases has
      exact Or.inl ⟨task, rfl, change⟩
    · rw [gone] at has
      cases has

theorem act_zero_free (holds : ZeroFree kernel) (action : Action) :
    ZeroFree (act kernel hart action) := by
  constructor
  · rcases act_absent holds.1 action with gone | ⟨cellId, -, zero, -⟩
    · exact gone
    · exact absurd zero (Nat.ne_of_lt holds.2)
  · exact holds.2.trans_le (act_next action)

end Absent

def Pushes (kernel : Kernel) (id : TaskId) : Action → Prop
  | .spawn _ => id = kernel.tasks.next
  | .reply caller _ => (kernel.tasks.get caller).bind Task.currentCaller = some id
  | .requeue tid => id = tid
  | action => ∃ task, kernel.tasks.get id = some task ∧ Wakes kernel id task action

def Unqueues (kernel : Kernel) (id : TaskId) : Action → Prop
  | .exit tid _ _ _ => id = tid
  | .freeze tid _ => id = tid ∧ (kernel.tasks.get tid).isSome
  | _ => False

section Queue

variable {kernel : Kernel} {hart : HartId} {id : TaskId}

theorem wakes_of_pushes {task : Task} {action : Action}
    (found : kernel.tasks.get id = some task) (pushes : Pushes kernel id action) :
    Wakes kernel id task action := by
  cases action with
  | spawn =>
    have fresh : id = kernel.tasks.next := pushes
    exact absurd fresh (Nat.ne_of_lt (lt_next_of_get found))
  | reply => exact pushes
  | requeue => exact pushes
  | _ =>
    obtain ⟨_, has, wakes⟩ := pushes
    rw [found] at has
    cases has
    exact wakes

theorem queued_of_push {was after : Kernel} {pushed : TaskId}
    (perm : (queued after).Perm (pushed :: queued was)) (mem : id ∈ queued after) :
    id ∈ queued was ∨ id = pushed := by
  rcases mem_cons.mp (perm.mem_iff.mp mem) with here | older
  · exact Or.inr here
  · exact Or.inl older

theorem accept_queue (caller sender : TaskId) (msg : Message) (bufferLen : Nat)
    (waiting : findSender kernel.tasks caller = some (sender, msg))
    (mem : id ∈ queued (acceptSender kernel hart caller sender msg bufferLen)) :
    id ∈ queued kernel ∨
      ∃ task, kernel.tasks.get id = some task ∧ task.state.sendTarget = some caller := by
  have perm := queued_push_ready
    (setState (copyMessage kernel sender caller msg bufferLen) sender .ready) hart sender
  rcases queued_of_push perm mem with older | rfl
  · exact Or.inl older
  · obtain ⟨task, has, state⟩ := find_sender_some waiting
    exact Or.inr ⟨task, has, by rw [state]; rfl⟩

theorem send_queue (caller target : TaskId) (msg : Message)
    (mem : id ∈ queued (ipcSend kernel hart caller target msg).1) :
    id ∈ queued kernel ∨ Pushes kernel id (.send caller target msg) := by
  rcases ipc_send_cases kernel hart caller target msg with refused | queues | delivers | blocks
  · rw [refused] at mem
    exact Or.inl mem
  · obtain ⟨receiver, _, has, state, _, out⟩ := queues
    rw [out] at mem
    exact Or.inl mem
  · obtain ⟨receiver, _, buf, _, has, state, out⟩ := delivers
    rw [out] at mem
    have perm := queued_push_ready
      (modifyTask (copyMessage kernel caller target msg buf.len) target
        (fun task => { task with state := .ready, currentCaller := some caller })) hart target
    rcases queued_of_push perm mem with older | rfl
    · exact Or.inl older
    · exact Or.inr ⟨receiver, has, rfl, by simp [state, TaskState.isRecv]⟩
  · rw [blocks.2] at mem
    exact Or.inl mem

theorem exit_queue (tid : TaskId) (reason : Nat) (code : Option Nat) (cause : ExitCause)
    (mem : id ∈ queued (act kernel hart (.exit tid reason code cause))) :
    (id ∈ queued kernel ∧ id ≠ tid) ∨ Pushes kernel id (.exit tid reason code cause) := by
  have exited : id ∈ queued (exitTask kernel hart tid reason) := by
    unfold queued at mem ⊢
    rwa [act_exit_ready] at mem
  have perm : (queued (exitTask kernel hart tid reason)).Perm
      ((exitTable kernel tid reason).2 ++ queuedIn (removeFromAll kernel.ready tid)) :=
    queued_push_all_ready _ hart _
  rcases mem_append.mp (perm.mem_iff.mp exited) with woken | older
  · obtain ⟨dying, task, has, wakes⟩ := (mem_exit_woken kernel tid reason id).mp woken
    exact Or.inr ⟨task, has, dying, wakes⟩
  · rw [queued_in_remove_from_all, mem_filter, decide_eq_true_eq] at older
    exact Or.inl older

theorem wake_due_queue (mem : id ∈ queued (act kernel hart .wakeDue)) :
    id ∈ queued kernel ∨ Pushes kernel id .wakeDue := by
  have swept := (sweep_all_spec
    { kernel with lastGlobalSweepTick := max kernel.lastGlobalSweepTick kernel.ticks }).2 id
  have perm : (queued (act kernel hart .wakeDue)).Perm
      ((sweepAll { kernel with
        lastGlobalSweepTick := max kernel.lastGlobalSweepTick kernel.ticks }).woken ++
          queued kernel) :=
    queued_push_all_ready _ hart _
  rcases mem_append.mp (perm.mem_iff.mp mem) with woken | older
  · rcases swept with ⟨-, task, flag, out, has, due, -⟩ | ⟨notWoken, -⟩
    · exact Or.inr ⟨task, has, (sweep_task_woken due).1⟩
    · exact absurd woken notWoken
  · exact Or.inl older

theorem dispatch_queue (mem : id ∈ queued (act kernel hart .dispatch)) : id ∈ queued kernel := by
  simp only [act, dispatchNext] at mem
  split at mem
  · rename_i next rest picked
    exact (pick_or_steal_perm picked).mem_iff.mpr (mem_cons_of_mem _ mem)
  · exact mem

theorem futex_wake_queue (addr count : Nat)
    (mem : id ∈ queued (act kernel hart (.futexWake addr count))) :
    id ∈ queued kernel ∨ Pushes kernel id (.futexWake addr count) := by
  have perm : (queued (act kernel hart (.futexWake addr count))).Perm
      (futexWaiters kernel.tasks addr count ++ queued kernel) :=
    queued_push_all_ready _ hart _
  rcases mem_append.mp (perm.mem_iff.mp mem) with woken | older
  · have listed := (mem_filter.mp (mem_of_mem_take woken)).2
    obtain ⟨task, has, waits⟩ := (any_eq_true _ _).mp listed
    have state : task.state = .futexWait addr := by simpa using waits
    exact Or.inr ⟨task, has, state⟩
  · exact Or.inl older

theorem freeze_queue {tid : TaskId} {swapId : Nat}
    (mem : id ∈ queued (act kernel hart (.freeze tid swapId))) :
    id ∈ queued kernel ∧ ¬ Unqueues kernel id (.freeze tid swapId) := by
  simp only [act, setTaskFrozen] at mem
  split at mem
  · rename_i gone
    refine ⟨mem, ?_⟩
    rintro ⟨-, has⟩
    rw [gone] at has
    cases has
  · have filtered : id ∈ queuedIn (removeFromAll kernel.ready tid) := mem
    rw [queued_in_remove_from_all, mem_filter, decide_eq_true_eq] at filtered
    exact ⟨filtered.1, fun unqueued => filtered.2 unqueued.1⟩

theorem act_pushes (action : Action) (mem : id ∈ queued (act kernel hart action)) :
    id ∈ queued kernel ∨ Pushes kernel id action := by
  cases action with
  | spawn =>
    have pushed := queued_of_push (queued_push_ready _ hart kernel.tasks.next) mem
    exact pushed
  | send caller target msg => exact send_queue caller target msg mem
  | recv caller =>
    simp only [act, ipcRecv] at mem
    split at mem
    · rename_i waiting
      exact accept_queue caller _ _ _ waiting mem
    · exact Or.inl mem
  | tryRecv caller =>
    simp only [act, ipcTryRecv] at mem
    split at mem
    · rename_i waiting
      exact accept_queue caller _ _ _ waiting mem
    · exact Or.inl mem
  | reply =>
    simp only [act, ipcReply] at mem
    split at mem
    · exact Or.inl mem
    · rename_i target named
      refine (queued_of_push (queued_push_ready (modifyTask kernel target _) hart target)
        mem).imp_right ?_
      rintro rfl
      exact named
  | exit tid reason code cause => exact (exit_queue tid reason code cause mem).imp_left And.left
  | wakeDue => exact wake_due_queue mem
  | requeue tid => exact queued_of_push (queued_push_ready (setState kernel tid .ready) hart tid) mem
  | dispatch => exact Or.inl (dispatch_queue mem)
  | futexWait =>
    simp only [act, futexWait] at mem
    split at mem
    · exact Or.inl mem
    · split at mem <;> exact Or.inl mem
  | futexWake addr count => exact futex_wake_queue addr count mem
  | wait =>
    simp only [act, waitCall] at mem
    split at mem
    · exact Or.inl mem
    · split at mem <;> exact Or.inl mem
  | freeze tid => exact Or.inl (freeze_queue mem).1
  | rollback tid =>
    simp only [act, unfreezeTask] at mem
    split at mem
    · exact Or.inl mem
    · rename_i task has
      split at mem
      · rename_i thawed
        refine (queued_of_push (queued_push_ready (setState kernel tid .ready) hart tid)
          mem).imp_right ?_
        rintro rfl
        exact ⟨task, has, rfl, thawed⟩
      · exact Or.inl mem
  | _ => exact Or.inl mem

/-- The inversion lemma for the ready queues. -/
theorem act_queue (action : Action) (mem : id ∈ queued (act kernel hart action)) :
    (id ∈ queued kernel ∧ ¬ Unqueues kernel id action) ∨ Pushes kernel id action := by
  cases action with
  | exit tid reason code cause => exact exit_queue tid reason code cause mem
  | freeze => exact Or.inl (freeze_queue mem)
  | _ => exact (act_pushes _ mem).imp_left (fun older => ⟨older, not_false⟩)

/-- The inversion lemma for the current-task words: they change on the acting hart
only, to idle or to a queued task. -/
theorem act_current (action : Action) (other : HartId) :
    (act kernel hart action).current other = kernel.current other ∨
      (other = hart ∧ Scheduling action ∧ ((act kernel hart action).current other = 0 ∨
          (action = .dispatch ∧ (act kernel hart action).current other ∈ queued kernel))) := by
  by_cases inside : Local action
  · exact Or.inl (congrFun (act_updates inside).fields.2.1 other)
  cases action with
  | dispatch =>
    by_cases here : other = hart
    · right
      refine ⟨here, trivial, ?_⟩
      subst here
      simp only [act, dispatchNext]
      split
      · rename_i next rest picked
        refine Or.inr ⟨trivial, ?_⟩
        simp only [Function.update_self]
        exact (pick_or_steal_perm picked).mem_iff.mpr mem_cons_self
      · left
        simp
    · left
      simp only [act, dispatchNext]
      split <;> simp [here]
  | exit =>
    simp only [act, retire]
    split
    · rename_i scheduled
      split
      · by_cases here : other = hart
        · right
          refine ⟨here, scheduled, Or.inl ?_⟩
          simp [clearCurrent, here]
        · left
          simp [clearCurrent, here, exitTask, pushAllReady, modifyTask]
      · exact Or.inl rfl
    · exact Or.inl rfl
  | _ => first | exact absurd trivial inside | exact Or.inl rfl

end Queue

theorem act_all_next (kernel : Kernel) (hart : HartId) (actions : List Action) :
    kernel.tasks.next ≤ (actAll kernel hart actions).tasks.next := by
  induction actions generalizing kernel with
  | nil => exact Nat.le_refl _
  | cons action rest ih => exact (act_next action).trans (ih (act kernel hart action))

theorem step_next {was after : System} {event : Event} (ran : step was event = some after) :
    was.kernel.tasks.next ≤ after.kernel.tasks.next := by
  rw [(step_acts ran).tasks]
  exact act_all_next _ _ _

end ViCell.Core.Transitions

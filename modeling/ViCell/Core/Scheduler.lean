import ViCell.Core.State

/-!
# The scheduler

`task/scheduler.rs`: creating and retiring tasks, the deadline and heartbeat
sweeps, the watchdog and the selection of the next task.  Every function here
runs under the global scheduler lock and is one atomic step.

`exitTask` and the sweeps first compute all task-table changes and then push the
woken ids in the order of the source.  A push reads only a task's priority,
which these changes leave alone, so the result is that of the interleaved loops.
-/

namespace ViCell.Core.Scheduler

open Lib Core.Tcb Core.Ready Core.State Function List

def watchdogBudgetTicks : Nat := 500

def watchdogWarnTicks : Nat := watchdogBudgetTicks * 4 / 5

def eventNetRx : Nat := 1

/-- `Scheduler::spawn` and `spawn_thread`: the new task is `Ready` and queued. -/
def spawn (kernel : Kernel) (hart : HartId) (cellId : CellId) : Kernel :=
  let inserted := { kernel with tasks := kernel.tasks.alloc (Task.new cellId) }
  pushReady inserted hart kernel.tasks.next

/-- What a surviving task sees of `dead` leaving: a pending send is cancelled and
a stale `current_caller` is dropped. -/
def unblockSender (dead : TaskId) (task : Task) : Task :=
  let unblocked :=
    if task.state.sendTarget = some dead then
      { task with state := .ready, a0 := usizeMax }
    else task
  if unblocked.currentCaller = some dead then
    { unblocked with currentCaller := none }
  else unblocked

def wakeWaiter (reason : Nat) (task : Task) : Task :=
  { task with state := .ready, replyValue := some reason }

/-- One `NotifyOnExit` delivery: a parked receiver is woken, any other watcher
gets the notice queued for its next `Recv`. -/
def notifyWatcher (dead : TaskId) (reason : Nat) (task : Task) : Task :=
  if task.state.isRecv then
    { task with currentCaller := some dead, pendingExitReason := some reason, state := .ready }
  else { task with pendingDeaths := task.pendingDeaths ++ [(dead, reason)] }

def sendersTo (tasks : IdTable Task) (target : TaskId) : List TaskId :=
  tasks.ids.filter (fun id =>
    (tasks.get id).any (fun task => task.state.sendTarget = some target))

def wakeWaiters (reason : Nat) (waiters : List TaskId) (tasks : IdTable Task) :
    IdTable Task :=
  waiters.foldl (fun table waiter => table.modify waiter (wakeWaiter reason)) tasks

/-- The loop over the subscribers of `dead`, with the watchers it wakes. -/
def notifyWatchers (dead : TaskId) (reason : Nat) :
    List TaskId → IdTable Task → IdTable Task × List TaskId
  | [], tasks => (tasks, [])
  | watcher :: rest, tasks =>
    let parked := (tasks.get watcher).any (fun task => task.state.isRecv)
    let later := notifyWatchers dead reason rest
      (tasks.modify watcher (notifyWatcher dead reason))
    (later.1, if parked then watcher :: later.2 else later.2)

def clearTid (registry : List (Nat × TaskId)) (tid : TaskId) : List (Nat × TaskId) :=
  registry.filter (fun entry => entry.2 ≠ tid)

def waitersOf (kernel : Kernel) (tid : TaskId) : List TaskId :=
  ((kernel.tasks.get tid).map Task.waiters).getD []

/-- Every task-table change of `exit_task`, with the ids it wakes in push order:
blocked senders, then waiters, then parked watchers. -/
def exitTable (kernel : Kernel) (tid : TaskId) (reason : Nat) :
    IdTable Task × List TaskId :=
  let survivors := kernel.tasks.erase tid
  let unblocked := survivors.mapEach (fun _ task => unblockSender tid task)
  let joined := wakeWaiters reason (waitersOf kernel tid) unblocked
  let notice := notifyWatchers tid reason (kernel.deathSubscribers tid) joined
  (notice.1, sendersTo survivors tid ++
      (waitersOf kernel tid).filter (fun waiter => (survivors.get waiter).isSome) ++ notice.2)

def exitTask (kernel : Kernel) (hart : HartId) (tid : TaskId) (reason : Nat) : Kernel :=
  let dying := kernel.tasks.get tid
  pushAllReady
    { kernel with
      tasks := (exitTable kernel tid reason).1
      zombies := kernel.zombies ++
        (dying.map (fun task => (tid, { task with waiters := [] }))).toList
      registry := clearTid kernel.registry tid
      inputCell := if kernel.inputCell = tid then 0 else kernel.inputCell
      ready := removeFromAll kernel.ready tid
      deathSubscribers := update kernel.deathSubscribers tid []
      log := (dying.map (fun _ => Observation.died tid reason)).toList ++ kernel.log }
    hart (exitTable kernel tid reason).2

def WokenByExit (kernel : Kernel) (dead id : TaskId) (task : Task) : Prop :=
  task.state.sendTarget = some dead ∨ id ∈ waitersOf kernel dead ∨
    (id ∈ kernel.deathSubscribers dead ∧ task.state.isRecv)

instance (kernel : Kernel) (dead id : TaskId) (task : Task) :
    Decidable (WokenByExit kernel dead id task) :=
  inferInstanceAs (Decidable (_ ∨ _ ∨ _))

/-- The control block of a surviving task after `exit_task`. -/
def survivor (kernel : Kernel) (dead : TaskId) (reason : Nat) (id : TaskId) (task : Task) :
    Task :=
  (notifyWatcher dead reason)^[(kernel.deathSubscribers dead).count id]
    (if id ∈ waitersOf kernel dead then wakeWaiter reason (unblockSender dead task)
     else unblockSender dead task)

theorem unblock_sender_state (dead : TaskId) (task : Task) :
    (unblockSender dead task).state =
      if task.state.sendTarget = some dead then .ready else task.state := by
  simp only [unblockSender]
  split <;> split <;> rfl

theorem wake_waiters_get (reason : Nat) (waiters : List TaskId) (tasks : IdTable Task)
    (id : TaskId) :
    (wakeWaiters reason waiters tasks).get id =
      if id ∈ waiters then (tasks.get id).map (wakeWaiter reason) else tasks.get id := by
  induction waiters generalizing tasks with
  | nil => simp [wakeWaiters]
  | cons waiter rest ih =>
    have later := ih (tasks.modify waiter (wakeWaiter reason))
    simp only [wakeWaiters, foldl_cons] at later ⊢
    rw [later]
    by_cases here : id = waiter
    · subst here
      by_cases again : id ∈ rest
      · simp only [again, if_true, IdTable.get_modify, Option.map_map, List.mem_cons]
        rfl
      · simp [again]
    · simp [here]

theorem notify_watchers_get (dead : TaskId) (reason : Nat) (watchers : List TaskId)
    (tasks : IdTable Task) (id : TaskId) :
    (notifyWatchers dead reason watchers tasks).1.get id =
      (tasks.get id).map (notifyWatcher dead reason)^[watchers.count id] := by
  induction watchers generalizing tasks with
  | nil => simp [notifyWatchers]
  | cons watcher rest ih =>
    simp only [notifyWatchers]
    rw [ih]
    by_cases here : id = watcher
    · subst here
      simp only [IdTable.get_modify, if_true, List.count_cons_self, Option.map_map]
      rfl
    · simp [here, List.count_cons_of_ne (Ne.symm here)]

theorem notify_watcher_state (dead : TaskId) (reason : Nat) (task : Task) :
    (notifyWatcher dead reason task).state = if task.state.isRecv then .ready else task.state := by
  unfold notifyWatcher
  split <;> rfl

theorem notify_watcher_not_recv (dead : TaskId) (reason : Nat) (task : Task) :
    (notifyWatcher dead reason task).state.isRecv = false := by
  rw [notify_watcher_state]
  split
  · rfl
  · rename_i parked
    simpa using parked

theorem notify_watchers_woken (dead : TaskId) (reason : Nat) (watchers : List TaskId)
    (tasks : IdTable Task) :
    (notifyWatchers dead reason watchers tasks).2.Nodup ∧
      ∀ id, id ∈ (notifyWatchers dead reason watchers tasks).2 ↔
        id ∈ watchers ∧ (tasks.get id).any (fun task => task.state.isRecv) := by
  induction watchers generalizing tasks with
  | nil => simp [notifyWatchers]
  | cons watcher rest ih =>
    have later := ih (tasks.modify watcher (notifyWatcher dead reason))
    have spent : ((tasks.modify watcher (notifyWatcher dead reason)).get watcher).any
        (fun task => task.state.isRecv) = false := by
      cases found : tasks.get watcher with
      | none => simp [found]
      | some => simp [found, notify_watcher_not_recv]
    have absent : watcher ∉ (notifyWatchers dead reason rest
        (tasks.modify watcher (notifyWatcher dead reason))).2 := by
      rw [later.2, spent]
      simp
    simp only [notifyWatchers]
    by_cases parked : (tasks.get watcher).any (fun task => task.state.isRecv)
    · simp only [parked, if_true]
      refine ⟨nodup_cons.mpr ⟨absent, later.1⟩, ?_⟩
      intro id
      rw [mem_cons, later.2]
      by_cases here : id = watcher
      · subst here
        simp [parked]
      · simp [here]
    · simp only [parked]
      refine ⟨later.1, ?_⟩
      intro id
      by_cases here : id = watcher
      · subst here
        simp [absent, parked]
      · rw [if_neg (by simp), later.2]
        simp [here]

theorem exit_table_get (kernel : Kernel) (tid : TaskId) (reason : Nat) (id : TaskId) :
    (exitTable kernel tid reason).1.get id =
      if id = tid then none else (kernel.tasks.get id).map (survivor kernel tid reason id) := by
  simp only [exitTable, notify_watchers_get, wake_waiters_get, IdTable.get_map_each,
    IdTable.get_erase]
  by_cases here : id = tid
  · simp [here]
  · cases found : kernel.tasks.get id with
    | none => simp
    | some =>
      by_cases joined : id ∈ waitersOf kernel tid
      all_goals simp [here, joined, survivor]

theorem iterate_notify_state (dead : TaskId) (reason count : Nat) (task : Task) :
    ((notifyWatcher dead reason)^[count] task).state =
      if 0 < count ∧ task.state.isRecv then .ready else task.state := by
  induction count generalizing task with
  | zero => simp
  | succ count ih =>
    rw [iterate_succ_apply, ih, notify_watcher_not_recv, notify_watcher_state]
    simp

theorem survivor_state (kernel : Kernel) (dead : TaskId) (reason : Nat) (id : TaskId)
    (task : Task) :
    (survivor kernel dead reason id task).state =
      if WokenByExit kernel dead id task then .ready else task.state := by
  unfold survivor WokenByExit
  rw [iterate_notify_state]
  by_cases joined : id ∈ waitersOf kernel dead
  · simp [joined, wakeWaiter]
  · simp only [joined, if_false, unblock_sender_state, false_or]
    by_cases blocked : task.state.sendTarget = some dead
    · simp [blocked]
    · simp [blocked]

/-- `exit_task` writes only these fields of a survivor. -/
theorem survivor_kept {Field : Type} (field : Task → Field)
    (kept : ∀ state a0 caller reply deaths reason task,
      field { task with
        state := state, a0 := a0, currentCaller := caller, replyValue := reply
        pendingDeaths := deaths, pendingExitReason := reason } = field task)
    (kernel : Kernel) (dead : TaskId) (reason : Nat) (id : TaskId) (task : Task) :
    field (survivor kernel dead reason id task) = field task := by
  have notified : ∀ count was,
      field ((notifyWatcher dead reason)^[count] was) = field was := by
    intro count
    induction count with
    | zero => exact fun _ => rfl
    | succ count ih =>
      intro was
      rw [iterate_succ_apply, ih]
      unfold notifyWatcher
      split <;> exact kept _ _ _ _ _ _ was
  have unblocked : field (unblockSender dead task) = field task := by
    simp only [unblockSender]
    split <;> split <;> exact kept _ _ _ _ _ _ task
  unfold survivor
  rw [notified]
  split
  · exact (kept _ _ _ _ _ _ _).trans unblocked
  · exact unblocked

theorem survivor_waiters (kernel : Kernel) (dead : TaskId) (reason : Nat) (id : TaskId)
    (task : Task) : (survivor kernel dead reason id task).waiters = task.waiters :=
  survivor_kept Task.waiters (fun _ _ _ _ _ _ _ => rfl) kernel dead reason id task

theorem mem_senders_to (tasks : IdTable Task) (target id : TaskId) : id ∈ sendersTo tasks target ↔
      ∃ task, tasks.get id = some task ∧ task.state.sendTarget = some target := by
  unfold sendersTo
  rw [mem_filter, IdTable.mem_ids, IdTable.live_iff_exists]
  constructor
  · rintro ⟨⟨task, found⟩, sending⟩
    simpa [found] using sending
  · rintro ⟨task, found, sending⟩
    exact ⟨⟨task, found⟩, by simp [found, sending]⟩

theorem mem_exit_woken (kernel : Kernel) (tid : TaskId) (reason : Nat) (id : TaskId) :
    id ∈ (exitTable kernel tid reason).2 ↔
      id ≠ tid ∧ ∃ task, kernel.tasks.get id = some task ∧ WokenByExit kernel tid id task := by
  simp only [exitTable, mem_append, mem_senders_to, mem_filter,
    (notify_watchers_woken _ _ _ _).2, wake_waiters_get, IdTable.get_map_each,
    IdTable.get_erase, WokenByExit]
  by_cases gone : id = tid
  · simp [gone]
  · cases found : kernel.tasks.get id with
    | none => simp [gone]
    | some task =>
      simp only [gone, ne_eq]
      by_cases joined : id ∈ waitersOf kernel tid
      · simp [joined]
      · simp only [joined, if_false, Option.map_some, Option.any_some, unblock_sender_state]
        by_cases blocked : task.state.sendTarget = some tid
        · simp [blocked]
        · simp [blocked]

/-- Zombies whose context no hart is still using. -/
def takeReapableZombies (kernel : Kernel) : Kernel :=
  { kernel with zombies := kernel.zombies.filter (fun zombie => anyHartRunning kernel zombie.1) }

def takePendingGrantReap (kernel : Kernel) : Kernel :=
  { kernel with pendingGrantReap := [] }

def recordTimeout (task : Task) : Task :=
  { task with a0 := 0, deadlineMisses := saturatingSucc task.deadlineMisses }

/-- `waker::consume_pending`: the fired bits of `mask` and the flag afterwards. -/
def consumePending (mask : Nat) (netRxPending : Bool) : Nat × Bool :=
  if mask &&& eventNetRx ≠ 0 ∧ netRxPending then (eventNetRx, false) else (0, netRxPending)

/-- One task of the deadline sweep: `none` when it is not woken, otherwise its
new control block and the event flag left for the tasks after it. -/
def sweepTask (now : Nat) (netRxPending : Bool) (task : Task) : Option (Task × Bool) :=
  match task.state with
  | .sleeping wakeAt =>
    if wakeAt ≤ now then some ({ task with state := .ready }, netRxPending) else none
  | .recv _ _ (some deadline) =>
    if deadline ≤ now then
      some ({ recordTimeout task with state := .ready }, netRxPending)
    else none
  | .waitEvent mask deadline =>
    let fired := consumePending mask netRxPending
    if fired.1 ≠ 0 then some ({ task with a0 := fired.1, state := .ready }, fired.2)
    else if deadline.any (fun due => due ≤ now) then
      some ({ recordTimeout task with state := .ready }, fired.2)
    else none
  | _ => none

structure Sweep where
  tasks : IdTable Task
  netRxPending : Bool
  woken : List TaskId

def sweepStep (now : Nat) (sweep : Sweep) (id : TaskId) : Sweep :=
  match (sweep.tasks.get id).bind (sweepTask now sweep.netRxPending) with
  | none => sweep
  | some woken =>
    { tasks := sweep.tasks.modify id (fun _ => woken.1)
      netRxPending := woken.2
      woken := sweep.woken ++ [id] }

def sweepAll (kernel : Kernel) : Sweep :=
  kernel.tasks.ids.foldl (sweepStep kernel.ticks)
    { tasks := kernel.tasks, netRxPending := kernel.netRxPending, woken := [] }

/-- Part 1 of the global sweep: wake every task whose deadline or event is due. -/
def wakeDue (kernel : Kernel) (hart : HartId) : Kernel :=
  pushAllReady
    { kernel with
      tasks := (sweepAll kernel).tasks
      netRxPending := (sweepAll kernel).netRxPending }
    hart (sweepAll kernel).woken

def isTimed : TaskState → Bool
  | .sleeping _ => true
  | .recv _ _ (some _) => true
  | .waitEvent _ _ => true
  | _ => false

/-- The sweep only ends timed waits.  It rewrites the state, the result register
and the miss counter, and nothing else. -/
theorem sweep_task_woken {now : Nat} {flag : Bool} {task : Task} {out : Task × Bool}
    (swept : sweepTask now flag task = some out) :
    isTimed task.state ∧
      out.1 = { task with
        state := .ready
        a0 := out.1.a0
        deadlineMisses := out.1.deadlineMisses } := by
  unfold sweepTask at swept
  split at swept
  · rename_i wakeAt timed
    split at swept
    · cases swept
      simp [timed, isTimed]
    · cases swept
  · rename_i mask buf deadline timed
    split at swept
    · cases swept
      simp [timed, isTimed, recordTimeout]
    · cases swept
  · rename_i mask deadline timed
    simp only at swept
    split at swept
    · cases swept
      simp [timed, isTimed]
    · split at swept
      · cases swept
        simp [timed, isTimed, recordTimeout]
      · cases swept
  · cases swept

def Swept (now : Nat) (before after : IdTable Task) (woken : List TaskId) (id : TaskId) :
    Prop :=
  (id ∈ woken ∧ ∃ task flag result, before.get id = some task ∧
      sweepTask now flag task = some result ∧ after.get id = some result.1) ∨
    (id ∉ woken ∧ after.get id = before.get id)

theorem sweep_step_cases (now : Nat) (sweep : Sweep) (id : TaskId) :
    sweepStep now sweep id = sweep ∨ ∃ task out, sweep.tasks.get id = some task ∧
        sweepTask now sweep.netRxPending task = some out ∧
        sweepStep now sweep id =
          ⟨sweep.tasks.modify id (fun _ => out.1), out.2, sweep.woken ++ [id]⟩ := by
  unfold sweepStep
  cases found : sweep.tasks.get id with
  | none => simp
  | some task =>
    cases swept : sweepTask now sweep.netRxPending task with
    | none => simp [swept]
    | some out => exact Or.inr ⟨task, out, rfl, swept, by simp [swept]⟩

theorem sweep_fold_spec (now : Nat) (ids : List TaskId) (ne : ids.Nodup) (start : Sweep) :
    ∃ woken, (ids.foldl (sweepStep now) start).woken = start.woken ++ woken ∧
      woken.Nodup ∧ (∀ id ∈ woken, id ∈ ids) ∧
      ∀ id, Swept now start.tasks (ids.foldl (sweepStep now) start).tasks woken id := by
  induction ids generalizing start with
  | nil => exact ⟨[], by simp, nodup_nil, by simp, fun id => Or.inr ⟨by simp, rfl⟩⟩
  | cons head rest ih =>
    have split := nodup_cons.mp ne
    obtain ⟨woken, wokenEq, wokenNodup, wokenSubset, swept⟩ := ih split.2 (sweepStep now start head)
    rw [foldl_cons]
    rcases sweep_step_cases now start head with unchanged | ⟨task, out, found, due, ran⟩
    · rw [unchanged] at wokenEq swept ⊢
      exact ⟨woken, wokenEq, wokenNodup,
        fun id mem => mem_cons_of_mem _ (wokenSubset id mem), swept⟩
    · have absent : head ∉ woken := fun mem => split.1 (wokenSubset head mem)
      refine ⟨head :: woken, ?_, nodup_cons.mpr ⟨absent, wokenNodup⟩, ?_, ?_⟩
      · rw [wokenEq, ran]
        simp
      · intro id mem
        rcases mem_cons.mp mem with rfl | later
        · exact mem_cons_self
        · exact mem_cons_of_mem _ (wokenSubset id later)
      · intro id
        have here := swept id
        rw [ran] at here ⊢
        by_cases same : id = head
        · subst same
          left
          refine ⟨mem_cons_self, task, _, out, found, due, ?_⟩
          rcases here with ⟨mem, -⟩ | ⟨-, kept⟩
          · exact absurd mem absent
          · rw [kept]
            simp [found]
        · rcases here with ⟨mem, other, flag, later, foundOther, dueOther, after⟩ | ⟨notMember, kept⟩
          · left
            refine ⟨mem_cons_of_mem _ mem, other, flag, later, ?_, dueOther, after⟩
            simpa [same] using foundOther
          · right
            refine ⟨by simp [same, notMember], ?_⟩
            simpa [same] using kept

theorem sweep_all_spec (kernel : Kernel) : (sweepAll kernel).woken.Nodup ∧
      ∀ id, Swept kernel.ticks kernel.tasks (sweepAll kernel).tasks (sweepAll kernel).woken id := by
  obtain ⟨woken, wokenEq, ne, -, swept⟩ :=
    sweep_fold_spec kernel.ticks kernel.tasks.ids kernel.tasks.ids_nodup
      { tasks := kernel.tasks, netRxPending := kernel.netRxPending, woken := [] }
  unfold sweepAll
  rw [wokenEq]
  exact ⟨ne, swept⟩

def hungTasks (kernel : Kernel) : List TaskId :=
  kernel.tasks.ids.filter (fun id =>
    (kernel.tasks.get id).any (fun task =>
      task.heartbeatDeadline.any (fun due => due ≤ kernel.ticks)))

def clearCurrent (kernel : Kernel) (hart : HartId) : Kernel :=
  { kernel with
    current := update kernel.current hart 0
    currentCell := update kernel.currentCell hart 0 }

def terminateHung (hart : HartId) (kernel : Kernel) (tid : TaskId) : Kernel :=
  let terminated := exitTask
    { kernel with pendingGrantReap := kernel.pendingGrantReap ++ [tid] } hart tid usizeMax
  if terminated.current hart = tid then clearCurrent terminated hart else terminated

/-- Part 1b: terminate hung tasks, collected before the first is removed. -/
def heartbeatSweep (kernel : Kernel) (hart : HartId) : Kernel :=
  (hungTasks kernel).foldl (terminateHung hart) kernel

def globalSweep (kernel : Kernel) (hart : HartId) : Kernel :=
  if kernel.lastGlobalSweepTick < kernel.ticks ∨ kernel.netRxPending then
    heartbeatSweep
      (wakeDue { kernel with lastGlobalSweepTick := max kernel.lastGlobalSweepTick kernel.ticks }
        hart)
      hart
  else kernel

def currentTask (kernel : Kernel) (hart : HartId) : Option Task :=
  if kernel.current hart = 0 then none else kernel.tasks.get (kernel.current hart)

theorem current_task_get {kernel : Kernel} {hart : HartId} {task : Task}
    (found : currentTask kernel hart = some task) :
    kernel.tasks.get (kernel.current hart) = some task := by
  unfold currentTask at found
  split at found
  · cases found
  · exact found

/-- The watchdog's accounting of one more tick spent running at real-time priority. -/
def countRunTick (task : Task) : Task :=
  { task with
    runTicks := saturatingSucc task.runTicks
    rtOverrunWarned :=
      task.rtOverrunWarned || decide (watchdogWarnTicks ≤ saturatingSucc task.runTicks) }

/-- Step 3 of `pick_next_local`: a task found `Running` is requeued, or killed
when it has monopolised the hart; any other task has its run counters reset. -/
def settleCurrent (kernel : Kernel) (hart : HartId) : Kernel :=
  let tid := kernel.current hart
  match currentTask kernel hart with
  | none => kernel
  | some task =>
    if task.state = .running then
      if priorityRealTime ≤ task.priority then
        if watchdogBudgetTicks < saturatingSucc task.runTicks then
          clearCurrent
            (exitTask
              { modifyTask kernel tid countRunTick with
                pendingGrantReap := kernel.pendingGrantReap ++ [tid] }
              hart tid usizeMax)
            hart
        else
          pushReady
            (modifyTask kernel tid (fun task => { countRunTick task with state := .ready }))
            hart tid
      else pushReady (setState kernel tid .ready) hart tid
    else
      modifyTask kernel tid
        (fun task => { task with runTicks := 0, rtOverrunWarned := false })

/-- Step 4: run the head of the queue, or leave the hart idle. -/
def dispatchNext (kernel : Kernel) (hart : HartId) : Kernel :=
  match pickOrSteal kernel.ready hart with
  | some (next, rest) =>
    { kernel with
      tasks := kernel.tasks.modify next (fun task => { task with state := .running })
      ready := rest
      current := update kernel.current hart next
      currentCell := update kernel.currentCell hart
        (((kernel.tasks.get next).map Task.cellId).getD (kernel.currentCell hart)) }
  | none => { kernel with current := update kernel.current hart 0 }

def pickNextLocal (kernel : Kernel) (hart : HartId) : Kernel :=
  dispatchNext (settleCurrent kernel hart) hart

/-- Hart 0 also runs the global sweep.  No syscall leaves a task `Polling`, so
the poll of pending futures has nothing to do. -/
def pickNext (kernel : Kernel) (hart : HartId) : Kernel :=
  if hart = 0 then pickNextLocal (globalSweep kernel hart) hart
  else pickNextLocal kernel hart

end ViCell.Core.Scheduler

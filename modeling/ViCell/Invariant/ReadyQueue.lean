import ViCell.Lib.Enumerates
import ViCell.Core.Ipc

/-!
# Ready queues and task states agree

The queues and the `state` fields are written separately.  `QueueMatches` says
that they agree: the ids waiting on either hart are exactly the live tasks in
state `Ready`, each once.  This file shows which scheduler and IPC functions
keep the agreement unconditionally, and what the others need.
-/

namespace ViCell.Invariant.ReadyQueue

open Lib Core.Tcb Core.Ready Core.State Core.Scheduler Core.Ipc List Option IdTable

def IsReady (tasks : IdTable Task) (id : TaskId) : Prop :=
  ∃ task, tasks.get id = some task ∧ task.state = .ready

def QueueMatches (kernel : Kernel) : Prop :=
  Enumerates (queued kernel) (IsReady kernel.tasks)

/-- Every recorded waiter of a live task is parked on that task, once. -/
def WaitersParked (kernel : Kernel) : Prop :=
  ∀ target task, kernel.tasks.get target = some task → task.waiters.Nodup ∧
      ∀ waiter ∈ task.waiters, ∀ parked, kernel.tasks.get waiter = some parked →
        parked.state = .waiting target

variable {id : TaskId} {task : Task}

theorem is_ready_of_get {tasks : IdTable Task} (found : tasks.get id = some task) :
    IsReady tasks id ↔ task.state = .ready := by
  unfold IsReady
  rw [found]
  simp

theorem is_ready_modify (tasks : IdTable Task) (target id : TaskId) (change : Task → Task)
    (task : Task) (found : tasks.get target = some task) :
    IsReady (tasks.modify target change) id ↔
      if id = target then (change task).state = .ready else IsReady tasks id := by
  unfold IsReady
  by_cases here : id = target
  · subst here
    simp [found]
  · simp [here]

theorem is_ready_modify_same (tasks : IdTable Task) (target id : TaskId)
    (change : Task → Task) (same : ∀ task, (change task).state = task.state) :
    IsReady (tasks.modify target change) id ↔ IsReady tasks id := by
  unfold IsReady
  by_cases here : id = target
  · subst here
    cases found : tasks.get id with
    | none => simp [found]
    | some => simp [found, same]
  · simp [here]

variable {kernel : Kernel}

theorem wake_one_matches (matched : QueueMatches kernel) (hart : HartId) (target : TaskId)
    (task : Task) (change : Task → Task) (found : kernel.tasks.get target = some task)
    (blocked : task.state ≠ .ready) (woken : (change task).state = .ready) :
    QueueMatches (pushReady (modifyTask kernel target change) hart target) := by
  have pushed := queued_push_ready (modifyTask kernel target change) hart target
  refine Enumerates.grow matched [target] pushed (by simp) ?_ ?_
  · intro item mem
    rw [mem_singleton] at mem
    subst mem
    rw [is_ready_of_get found]
    exact blocked
  · intro item
    change IsReady (kernel.tasks.modify target change) item ↔ _
    rw [is_ready_modify kernel.tasks target item change task found]
    by_cases here : item = target
    · simp [here, woken]
    · simp [here]

theorem spawn_matches (matched : QueueMatches kernel) (hart : HartId) (cellId : CellId) :
    QueueMatches (spawn kernel hart cellId) := by
  have absent : kernel.tasks.get kernel.tasks.next = none := kernel.tasks.fresh _ (Nat.le_refl _)
  have pushed := queued_push_ready
    { kernel with tasks := kernel.tasks.alloc (Task.new cellId) } hart kernel.tasks.next
  refine Enumerates.grow matched [kernel.tasks.next] pushed (by simp) ?_ ?_
  · intro item mem
    rw [mem_singleton] at mem
    subst mem
    rintro ⟨task, found, -⟩
    rw [absent] at found
    cases found
  · intro item
    change IsReady (kernel.tasks.alloc (Task.new cellId)) item ↔ _
    unfold IsReady
    by_cases here : item = kernel.tasks.next
    · simp [here, Task.new]
    · simp [here]

theorem waiters_of_parked (parked : WaitersParked kernel) (tid : TaskId) :
    (waitersOf kernel tid).Nodup ∧
      ∀ id ∈ waitersOf kernel tid, ∀ task, kernel.tasks.get id = some task →
        task.state = .waiting tid := by
  unfold waitersOf
  cases dying : kernel.tasks.get tid with
  | none => simp
  | some dead => simpa using parked tid dead dying

theorem get_of_erase {tasks : IdTable Task} {gone : TaskId}
    (found : (tasks.erase gone).get id = some task) : tasks.get id = some task := by
  rw [get_erase] at found
  split at found
  · cases found
  · exact found

theorem exit_woken_nodup (parked : WaitersParked kernel) (tid : TaskId) (reason : Nat) :
    (exitTable kernel tid reason).2.Nodup := by
  have notices := notify_watchers_woken tid reason (kernel.deathSubscribers tid)
    (wakeWaiters reason (waitersOf kernel tid)
      ((kernel.tasks.erase tid).mapEach (fun _ task => unblockSender tid task)))
  have waiters := waiters_of_parked parked tid
  simp only [exitTable]
  rw [nodup_append', nodup_append']
  refine ⟨⟨(ids_nodup _).filter _, waiters.1.filter _, ?_⟩, notices.1, ?_⟩
  · intro id isSender isWaiter
    obtain ⟨task, found, sending⟩ := (mem_senders_to _ _ _).mp isSender
    have waiting := waiters.2 id (mem_filter.mp isWaiter).1 task (get_of_erase found)
    rw [waiting] at sending
    cases sending
  · intro id earlier isWatcher
    have parkedNow := ((notices.2 id).mp isWatcher).2
    rw [wake_waiters_get, get_map_each] at parkedNow
    rw [mem_append] at earlier
    cases found : (kernel.tasks.erase tid).get id with
    | none =>
      rw [found] at parkedNow
      simp at parkedNow
    | some =>
      rw [found] at parkedNow
      by_cases joined : id ∈ waitersOf kernel tid
      · simp [joined, wakeWaiter, TaskState.isRecv] at parkedNow
      · rcases earlier with isSender | isWaiter
        · obtain ⟨_, foundSender, sending⟩ := (mem_senders_to _ _ _).mp isSender
          rw [found, some.injEq] at foundSender
          subst foundSender
          simp [joined, unblock_sender_state, sending, TaskState.isRecv] at parkedNow
        · exact joined (mem_filter.mp isWaiter).1

theorem exit_task_tasks (kernel : Kernel) (hart : HartId) (tid : TaskId) (reason : Nat) :
    (exitTask kernel hart tid reason).tasks = (exitTable kernel tid reason).1 := rfl

theorem woken_by_exit_blocked (parked : WaitersParked kernel) {dead : TaskId}
    (found : kernel.tasks.get id = some task) (woken : WokenByExit kernel dead id task) :
    task.state ≠ .ready := by
  rcases woken with sending | waiting | ⟨-, receiving⟩
  · intro ready
    rw [ready] at sending
    cases sending
  · rw [(waiters_of_parked parked dead).2 id waiting task found]
    simp
  · intro ready
    rw [ready] at receiving
    cases receiving

theorem exit_task_matches (matched : QueueMatches kernel) (parked : WaitersParked kernel)
    (hart : HartId) (tid : TaskId) (reason : Nat) :
    QueueMatches (exitTask kernel hart tid reason) := by
  have removed : Enumerates (queuedIn (removeFromAll kernel.ready tid))
      (fun id => IsReady kernel.tasks id ∧ id ≠ tid) := by
    rw [queued_in_remove_from_all]
    exact Enumerates.remove matched (fun _ => Iff.rfl)
  refine Enumerates.grow removed (exitTable kernel tid reason).2
    (queued_push_all_ready _ hart _) (exit_woken_nodup parked tid reason) ?_ ?_
  · rintro id isWoken ⟨⟨task, found, ready⟩, -⟩
    obtain ⟨-, _, foundOther, woken⟩ := (mem_exit_woken kernel tid reason id).mp isWoken
    rw [found, some.injEq] at foundOther
    subst foundOther
    exact woken_by_exit_blocked parked found woken ready
  · intro id
    rw [exit_task_tasks, mem_exit_woken]
    unfold IsReady
    simp only [exit_table_get]
    by_cases gone : id = tid
    · simp [gone]
    · cases found : kernel.tasks.get id with
      | none => simp [gone]
      | some task =>
        simp only [gone, if_false, map_some, some.injEq, exists_eq_left', survivor_state, ne_eq]
        by_cases woken : WokenByExit kernel tid id task
        · simp [woken]
        · simp [woken]

def NoWaiters (kernel : Kernel) : Prop :=
  ∀ id task, kernel.tasks.get id = some task → task.waiters = []

theorem no_waiters_parked (none : NoWaiters kernel) : WaitersParked kernel := by
  intro target task found
  rw [none target task found]
  simp

theorem modify_no_waiters (none : NoWaiters kernel) (target : TaskId) (change : Task → Task)
    (kept : ∀ task, (change task).waiters = task.waiters) :
    NoWaiters (modifyTask kernel target change) := by
  intro id task found
  simp only [modifyTask, get_modify] at found
  split at found
  · obtain ⟨was, foundBefore, rfl⟩ := map_eq_some_iff.mp found
    rw [kept]
    exact none id was foundBefore
  · exact none id task found

/-- The queue agreement together with the absence of joiners, which none of the
operations studied here creates. -/
structure QueueInvariant (kernel : Kernel) : Prop where
  matched : QueueMatches kernel
  noWaiters : NoWaiters kernel

section

variable (holds : QueueInvariant kernel)
include holds

theorem modify_same_state_queue (target : TaskId) (change : Task → Task)
    (sameState : ∀ task, (change task).state = task.state)
    (kept : ∀ task, (change task).waiters = task.waiters) :
    QueueInvariant (modifyTask kernel target change) where
  matched := Enumerates.congr holds.matched
    (fun id => is_ready_modify_same kernel.tasks target id change sameState)
  noWaiters := modify_no_waiters holds.noWaiters target change kept

section

variable (hart : HartId)
include hart

theorem exit_task_queue (tid : TaskId) (reason : Nat) :
    QueueInvariant (exitTask kernel hart tid reason) where
  matched := exit_task_matches holds.matched (no_waiters_parked holds.noWaiters) hart tid reason
  noWaiters := by
    intro id task found
    rw [exit_task_tasks, exit_table_get] at found
    split at found
    · cases found
    · obtain ⟨was, foundBefore, rfl⟩ := map_eq_some_iff.mp found
      rw [survivor_waiters]
      exact holds.noWaiters id was foundBefore

theorem spawn_queue (cellId : CellId) :
    QueueInvariant (spawn kernel hart cellId) where
  matched := spawn_matches holds.matched hart cellId
  noWaiters := by
    intro id task found
    change (kernel.tasks.alloc (Task.new cellId)).get id = some task at found
    rw [get_alloc] at found
    split at found
    · cases found
      rfl
    · exact holds.noWaiters id task found

theorem wake_due_queue : QueueInvariant (wakeDue kernel hart) := by
  obtain ⟨ne, swept⟩ := sweep_all_spec kernel
  constructor
  · refine Enumerates.grow holds.matched (sweepAll kernel).woken
      (queued_push_all_ready _ hart _) ne ?_ ?_
    · rintro id isWoken ⟨task, found, ready⟩
      rcases swept id with ⟨-, was, flag, out, foundBefore, due, -⟩ | ⟨notWoken, -⟩
      · rw [found, some.injEq] at foundBefore
        subst foundBefore
        have timed := (sweep_task_woken due).1
        rw [ready] at timed
        cases timed
      · exact notWoken isWoken
    · intro id
      change IsReady (sweepAll kernel).tasks id ↔ _
      rcases swept id with ⟨isWoken, was, flag, out, foundBefore, due, after⟩ | ⟨notWoken, kept⟩
      · rw [is_ready_of_get after, (sweep_task_woken due).2]
        simp [isWoken]
      · unfold IsReady
        rw [kept]
        simp [notWoken]
  · intro id task found
    change (sweepAll kernel).tasks.get id = some task at found
    rcases swept id with ⟨-, was, flag, out, foundBefore, due, after⟩ | ⟨-, kept⟩
    · rw [after, some.injEq] at found
      rw [← found, (sweep_task_woken due).2]
      exact holds.noWaiters id was foundBefore
    · rw [kept] at found
      exact holds.noWaiters id task found

theorem clear_current_queue : QueueInvariant (clearCurrent kernel hart) :=
  ⟨holds.matched, holds.noWaiters⟩

theorem terminate_hung_queue (tid : TaskId) : QueueInvariant (terminateHung hart kernel tid) := by
  have marked : QueueInvariant
      { kernel with pendingGrantReap := kernel.pendingGrantReap ++ [tid] } :=
    ⟨holds.matched, holds.noWaiters⟩
  have terminated := exit_task_queue marked hart tid usizeMax
  simp only [terminateHung]
  split
  · exact clear_current_queue terminated hart
  · exact terminated

theorem heartbeat_sweep_queue : QueueInvariant (heartbeatSweep kernel hart) := by
  unfold heartbeatSweep
  generalize hungTasks kernel = hung
  induction hung generalizing kernel with
  | nil => exact holds
  | cons tid rest ih => exact ih (terminate_hung_queue holds hart tid)

theorem global_sweep_queue : QueueInvariant (globalSweep kernel hart) := by
  unfold globalSweep
  split
  · apply heartbeat_sweep_queue
    apply wake_due_queue
    exact ⟨holds.matched, holds.noWaiters⟩
  · exact holds

theorem requeue_running (tid : TaskId) (task : Task) (change : Task → Task)
    (found : kernel.tasks.get tid = some task) (running : task.state = .running)
    (readied : ∀ task, (change task).state = .ready)
    (kept : ∀ task, (change task).waiters = task.waiters) :
    QueueInvariant (pushReady (modifyTask kernel tid change) hart tid) where
  matched := by
    apply wake_one_matches holds.matched hart tid task change found
    · rw [running]
      simp
    · exact readied task
  noWaiters := modify_no_waiters holds.noWaiters tid change kept

theorem settle_current_queue : QueueInvariant (settleCurrent kernel hart) := by
  simp only [settleCurrent]
  split
  · exact holds
  · rename_i task current
    have found := current_task_get current
    split
    · rename_i running
      split
      · split
        · apply clear_current_queue
          apply exit_task_queue
          have counted := modify_same_state_queue holds (kernel.current hart) countRunTick
            (fun _ => rfl) (fun _ => rfl)
          exact ⟨counted.matched, counted.noWaiters⟩
        · exact requeue_running holds hart _ task _ found running (fun _ => rfl) (fun _ => rfl)
      · exact requeue_running holds hart _ task _ found running (fun _ => rfl) (fun _ => rfl)
    · exact modify_same_state_queue holds _ _ (fun _ => rfl) (fun _ => rfl)

theorem dispatch_next_queue : QueueInvariant (dispatchNext kernel hart) := by
  unfold dispatchNext
  split
  · rename_i next rest picked
    have perm := pick_or_steal_perm picked
    have headReady : IsReady kernel.tasks next := by
      apply (holds.matched.2 next).mp
      exact perm.mem_iff.mpr mem_cons_self
    obtain ⟨task, found, _⟩ := headReady
    constructor
    · apply Enumerates.shrink holds.matched perm
      intro id
      rw [is_ready_modify kernel.tasks next id _ task found]
      by_cases here : id = next
      · simp [here]
      · simp [here]
    · exact modify_no_waiters holds.noWaiters next _ (fun _ => rfl)
  · exact ⟨holds.matched, holds.noWaiters⟩

theorem pick_next_queue : QueueInvariant (pickNext kernel hart) := by
  unfold pickNext
  split
  · exact dispatch_next_queue (settle_current_queue (global_sweep_queue holds hart) hart) hart
  · exact dispatch_next_queue (settle_current_queue holds hart) hart

end

end

end ViCell.Invariant.ReadyQueue

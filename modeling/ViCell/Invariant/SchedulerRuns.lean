import ViCell.Lib.Runs
import ViCell.Invariant.ReadyQueue

/-!
# Runs of the scheduler and IPC functions

Any number of tasks and both harts call the scheduler and IPC functions in any
order.  The ready queues agree with the task states all along a run exactly when
no step takes one of two shortcuts: a reply that queues its target without
looking at it, and a block of a caller that another hart has already woken.
-/

namespace ViCell.Invariant.SchedulerRuns

open Lib Core.Tcb Core.Ready Core.State Core.Scheduler Core.Ipc Invariant.ReadyQueue

inductive SchedulerOp
  | spawn (hart : HartId) (cellId : CellId)
  | ipcSend (hart : HartId) (caller target : TaskId) (message : Message)
  | ipcRecv (hart : HartId) (caller : TaskId) (mask : Nat) (buffer : Buffer)
  | ipcTryRecv (hart : HartId) (caller : TaskId) (buffer : Buffer)
  | ipcReply (hart : HartId) (caller : TaskId) (result : Nat)
  | exitTask (hart : HartId) (tid : TaskId) (reason : Nat)
  | pickNext (hart : HartId)
  /-- The clock that `pick_next` reads. -/
  | tick
  /-- The second hart comes up and takes real-time work. -/
  | rtHartOnline
  | setPriority (tid : TaskId) (priority : Nat)

def applyOp (kernel : Kernel) : SchedulerOp → Kernel
  | .spawn hart cellId => spawn kernel hart cellId
  | .ipcSend hart caller target message => (ipcSend kernel hart caller target message).1
  | .ipcRecv hart caller mask buffer => (ipcRecv kernel hart caller mask buffer).1
  | .ipcTryRecv hart caller buffer => (ipcTryRecv kernel hart caller buffer).1
  | .ipcReply hart caller result => (ipcReply kernel hart caller result).1
  | .exitTask hart tid reason => exitTask kernel hart tid reason
  | .pickNext hart => pickNext kernel hart
  | .tick => { kernel with ticks := tickAdd kernel.ticks 1 }
  | .rtHartOnline => { kernel with rtHartOnline := true }
  | .setPriority tid priority =>
    modifyTask kernel tid (fun task => { task with priority := priority })

def runOps (kernel : Kernel) (ops : List SchedulerOp) : Kernel :=
  ops.foldl applyOp kernel

/-- Each id is queued at most once over both harts, a live task is queued exactly
when it is `Ready`, and every queued id is live. -/
structure ReadyConsistent (kernel : Kernel) : Prop where
  atMostOnce : (queued kernel).Nodup
  queuedIffReady : ∀ id task, kernel.tasks.get id = some task →
    (id ∈ queued kernel ↔ task.state = .ready)
  queuedLive : ∀ id ∈ queued kernel, kernel.tasks.live id

/-- A blocking call leaves its caller out of the queues only if the caller was
not waiting in one of them. -/
def CallerNotReady (kernel : Kernel) (caller : TaskId) : Prop :=
  ∀ task, kernel.tasks.get caller = some task → task.state ≠ .ready

/-- The steps that keep the queues right: a send or receive that blocks has a
caller that is not `Ready`, and a reply goes to a live task that is not `Ready`. -/
def KeepsQueues (kernel : Kernel) : SchedulerOp → Prop
  | .ipcSend _ caller target _ => SendBlocks kernel target → CallerNotReady kernel caller
  | .ipcRecv _ caller _ _ =>
    findSender kernel.tasks caller = none → CallerNotReady kernel caller
  | .ipcReply _ caller _ =>
    ∀ target, (kernel.tasks.get caller).bind Task.currentCaller = some target →
      ∃ task, kernel.tasks.get target = some task ∧ task.state ≠ .ready
  | _ => True

theorem ready_consistent_iff (kernel : Kernel) : ReadyConsistent kernel ↔ QueueMatches kernel := by
  constructor
  · intro sound
    refine ⟨sound.atMostOnce, ?_⟩
    intro id
    constructor
    · intro mem
      obtain ⟨task, found⟩ := (IdTable.live_iff_exists _ _).mp (sound.queuedLive id mem)
      exact ⟨task, found, (sound.queuedIffReady id task found).mp mem⟩
    · rintro ⟨task, found, ready⟩
      exact (sound.queuedIffReady id task found).mpr ready
  · intro matched
    refine ⟨matched.1, ?_, ?_⟩
    · intro id task found
      rw [matched.2 id, is_ready_of_get found]
    · intro id mem
      obtain ⟨task, found, -⟩ := (matched.2 id).mp mem
      exact (IdTable.live_iff_exists _ _).mpr ⟨task, found⟩

theorem not_is_ready_iff (kernel : Kernel) (id : TaskId) :
    ¬ IsReady kernel.tasks id ↔ CallerNotReady kernel id := by
  unfold IsReady CallerNotReady
  simp

variable {kernel : Kernel}

theorem block_matches_iff (matched : QueueMatches kernel) (caller : TaskId) (state : TaskState)
    (blocked : state ≠ .ready) :
    QueueMatches (setState kernel caller state) ↔ CallerNotReady kernel caller := by
  rw [← not_is_ready_iff]
  constructor
  · intro after ready
    have mem : caller ∈ queued kernel := (matched.2 caller).mpr ready
    obtain ⟨task, found, -⟩ := ready
    have stillReady : IsReady (kernel.tasks.modify caller _) caller := (after.2 caller).mp mem
    rw [is_ready_modify kernel.tasks caller caller _ task found, if_pos rfl] at stillReady
    exact blocked stillReady
  · intro notReady
    apply Enumerates.congr matched
    intro id
    change IsReady (kernel.tasks.modify caller _) id ↔ _
    cases found : kernel.tasks.get caller with
    | none =>
      unfold IsReady
      by_cases here : id = caller
      · simp [here, found]
      · simp [here]
    | some task =>
      rw [is_ready_modify kernel.tasks caller id _ task found]
      by_cases here : id = caller
      · simp [here, blocked, notReady]
      · simp [here]

theorem set_state_no_waiters (none : NoWaiters kernel) (caller : TaskId) (state : TaskState) :
    NoWaiters (setState kernel caller state) :=
  modify_no_waiters none caller _ (fun _ => rfl)

theorem ipc_send_matches_iff (matched : QueueMatches kernel) (hart : HartId)
    (caller target : TaskId) (msg : Message) :
    QueueMatches (ipcSend kernel hart caller target msg).1 ↔
      (SendBlocks kernel target → CallerNotReady kernel caller) := by
  rcases ipc_send_cases kernel hart caller target msg with
    refused | ⟨receiver, swapId, found, frozen, room, sent⟩ |
      ⟨receiver, mask, buf, deadline, found, parked, sent⟩ | ⟨blocks, sent⟩
  · have notBlocked : ¬ SendBlocks kernel target := by
      intro blocks
      rw [ipc_send_of_blocks blocks] at refused
      simp at refused
    rw [refused]
    simp [notBlocked, matched]
  · have notBlocked : ¬ SendBlocks kernel target := by
      rintro ⟨other, foundOther, -, notFrozen⟩
      rw [found, Option.some.injEq] at foundOther
      rw [← foundOther, frozen] at notFrozen
      cases notFrozen
    rw [sent]
    simp only [notBlocked, false_implies, iff_true]
    exact Enumerates.congr matched
      (fun id => is_ready_modify_same kernel.tasks target id _ (fun _ => rfl))
  · have notBlocked : ¬ SendBlocks kernel target := by
      rintro ⟨other, foundOther, notRecv, -⟩
      rw [found, Option.some.injEq] at foundOther
      rw [← foundOther, parked] at notRecv
      cases notRecv
    rw [sent]
    simp only [notBlocked, false_implies, iff_true]
    have copied : QueueMatches (copyMessage kernel caller target msg buf.len) := matched
    exact wake_one_matches copied hart target receiver _ found (by simp [parked]) rfl
  · rw [sent]
    simp only [blocks, true_implies]
    exact block_matches_iff matched caller _ (by simp)

section

variable (holds : QueueInvariant kernel)
include holds

theorem wake_queue (hart : HartId) (target : TaskId) (task : Task)
    (change : Task → Task) (found : kernel.tasks.get target = some task)
    (blocked : task.state ≠ .ready) (readied : ∀ task, (change task).state = .ready)
    (kept : ∀ task, (change task).waiters = task.waiters) :
    QueueInvariant (pushReady (modifyTask kernel target change) hart target) :=
  ⟨wake_one_matches holds.matched hart target task change found blocked (readied task),
    modify_no_waiters holds.noWaiters target change kept⟩

theorem accept_sender_queue (hart : HartId)
    (caller sender : TaskId) (msg : Message) (bufferLen : Nat)
    (found : findSender kernel.tasks caller = some (sender, msg)) :
    QueueInvariant (acceptSender kernel hart caller sender msg bufferLen) := by
  obtain ⟨task, has, sending⟩ := find_sender_some found
  have copied : QueueInvariant (copyMessage kernel sender caller msg bufferLen) :=
    ⟨holds.matched, holds.noWaiters⟩
  have woken := wake_queue copied hart sender task
    (fun task => { task with state := .ready }) has (by simp [sending])
    (fun _ => rfl) (fun _ => rfl)
  exact modify_same_state_queue woken caller _ (fun _ => rfl) (fun _ => rfl)

theorem ipc_recv_matches_iff (hart : HartId) (caller : TaskId) (mask : Nat) (buf : Buffer) :
    QueueMatches (ipcRecv kernel hart caller mask buf).1 ↔
      (findSender kernel.tasks caller = none → CallerNotReady kernel caller) := by
  unfold ipcRecv
  split
  · rename_i sender msg found
    simp only [found, reduceCtorEq, false_implies, iff_true]
    exact (accept_sender_queue holds hart caller sender msg buf.len found).matched
  · rename_i gone
    simp only [gone, true_implies]
    exact block_matches_iff holds.matched caller _ (by simp)

/-- A reply keeps the agreement exactly when its target is live and not `Ready`:
a `Ready` target is queued a second time, a dead one is queued all the same. -/
theorem ipc_reply_matches_iff (hart : HartId) (caller : TaskId) (out : Nat) :
    QueueMatches (ipcReply kernel hart caller out).1 ↔
      ∀ target, (kernel.tasks.get caller).bind Task.currentCaller = some target →
        ∃ task, kernel.tasks.get target = some task ∧ task.state ≠ .ready := by
  unfold ipcReply
  split
  · rename_i gone
    simp [gone, holds.matched]
  · rename_i target named
    simp only [named, Option.some.injEq, forall_eq']
    constructor
    · intro after
      have pushed := queued_push_ready
        (modifyTask kernel target
          (fun task => { task with state := .ready, replyValue := some out })) hart target
      obtain ⟨_, foundAfter, -⟩ := (after.2 target).mp
        (pushed.mem_iff.mpr List.mem_cons_self)
      cases found : kernel.tasks.get target with
      | none => simp [pushReady, modifyTask, found] at foundAfter
      | some task =>
        refine ⟨task, rfl, ?_⟩
        intro ready
        exact Enumerates.not_grow_of_holds holds.matched pushed
          ((is_ready_of_get found).mpr ready) after
    · rintro ⟨task, found, blocked⟩
      have woken := wake_queue holds hart target task
        (fun task => { task with state := .ready, replyValue := some out })
        found blocked (fun _ => rfl) (fun _ => rfl)
      exact (modify_same_state_queue woken caller
        (fun task => { task with currentCaller := none }) (fun _ => rfl) (fun _ => rfl)).matched

theorem apply_op_no_waiters (op : SchedulerOp) : NoWaiters (applyOp kernel op) := by
  have none := holds.noWaiters
  cases op with
  | spawn hart cellId => exact (spawn_queue holds hart cellId).noWaiters
  | ipcSend hart caller target msg =>
    simp only [applyOp]
    rcases ipc_send_cases kernel hart caller target msg with
      sent | ⟨_, _, -, -, -, sent⟩ | ⟨_, _, _, _, -, -, sent⟩ | ⟨-, sent⟩
    · rw [sent]
      exact none
    · rw [sent]
      exact modify_no_waiters none target _ (fun _ => rfl)
    · rw [sent]
      exact modify_no_waiters none target _ (fun _ => rfl)
    · rw [sent]
      exact set_state_no_waiters none caller _
  | ipcRecv hart caller =>
    simp only [applyOp, ipcRecv]
    split
    · rename_i sender msg found
      exact (accept_sender_queue holds hart caller sender msg _ found).noWaiters
    · exact set_state_no_waiters none caller _
  | ipcTryRecv hart caller =>
    simp only [applyOp, ipcTryRecv]
    split
    · rename_i sender msg found
      exact (accept_sender_queue holds hart caller sender msg _ found).noWaiters
    · exact none
  | ipcReply hart caller out =>
    simp only [applyOp, ipcReply]
    split
    · exact none
    · rename_i target named
      have woken : NoWaiters (pushReady
          (modifyTask kernel target
            (fun task => { task with state := .ready, replyValue := some out }))
          hart target) := modify_no_waiters none target _ (fun _ => rfl)
      exact modify_no_waiters woken caller _ (fun _ => rfl)
  | exitTask hart tid reason => exact (exit_task_queue holds hart tid reason).noWaiters
  | pickNext hart => exact (pick_next_queue holds hart).noWaiters
  | tick => exact none
  | rtHartOnline => exact none
  | setPriority tid => exact modify_no_waiters none tid _ (fun _ => rfl)

theorem apply_op_matches_iff (op : SchedulerOp) :
    QueueMatches (applyOp kernel op) ↔ KeepsQueues kernel op := by
  cases op with
  | ipcSend hart caller target msg =>
    exact ipc_send_matches_iff holds.matched hart caller target msg
  | ipcRecv hart caller mask buf =>
    exact ipc_recv_matches_iff holds hart caller mask buf
  | ipcReply hart caller out => exact ipc_reply_matches_iff holds hart caller out
  | spawn hart cellId =>
    exact iff_of_true (spawn_matches holds.matched hart cellId) trivial
  | ipcTryRecv hart caller =>
    refine iff_of_true ?_ trivial
    simp only [applyOp, ipcTryRecv]
    split
    · rename_i sender msg found
      exact (accept_sender_queue holds hart caller sender msg _ found).matched
    · exact holds.matched
  | exitTask hart tid reason =>
    exact iff_of_true (exit_task_queue holds hart tid reason).matched trivial
  | pickNext hart => exact iff_of_true (pick_next_queue holds hart).matched trivial
  | tick | rtHartOnline => exact iff_of_true holds.matched trivial
  | setPriority tid priority =>
    have changed := modify_same_state_queue holds tid
      (fun task => { task with priority := priority }) (fun _ => rfl) (fun _ => rfl)
    exact iff_of_true changed.matched trivial

end

theorem boot_queue : QueueInvariant boot where
  matched := by
    constructor
    · exact List.nodup_nil
    · intro id
      constructor
      · intro mem
        cases mem
      · rintro ⟨task, found, -⟩
        cases found
  noWaiters := by
    intro id task found
    cases found

/-- Over every run of the scheduler and IPC functions, on any number of tasks and
both harts, the ready queues agree with the task states at every point exactly
when every step keeps them. -/
theorem ready_queues_consistent_iff (ops : List SchedulerOp) :
    (∀ executed, executed <+: ops → ReadyConsistent (runOps boot executed)) ↔
      ∀ executed op, executed ++ [op] <+: ops → KeepsQueues (runOps boot executed) op := by
  apply prefix_invariant_iff applyOp boot ReadyConsistent NoWaiters KeepsQueues
  · exact (ready_consistent_iff boot).mpr boot_queue.matched
  · exact boot_queue.noWaiters
  · intro kernel op consistent none
    exact apply_op_no_waiters ⟨(ready_consistent_iff kernel).mp consistent, none⟩ op
  · intro kernel op consistent none
    rw [ready_consistent_iff]
    exact apply_op_matches_iff ⟨(ready_consistent_iff kernel).mp consistent, none⟩ op

/-- One hart, two tasks.  Task 2's message is delivered to task 1 while task 2
stays runnable; when task 1 replies, task 2 is queued a second time. -/
def replyToReadyCaller : List SchedulerOp :=
  [.spawn 0 1, .spawn 0 2, .pickNext 0, .ipcRecv 0 1 0 ⟨.user, 8⟩, .pickNext 0,
    .ipcSend 0 2 1 ⟨0, .user, [7]⟩, .pickNext 0, .ipcReply 0 1 0]

theorem reply_queues_caller_twice : queued (runOps boot replyToReadyCaller) = [2, 2] ∧
      ¬ ReadyConsistent (runOps boot replyToReadyCaller) := by
  have twice : queued (runOps boot replyToReadyCaller) = [2, 2] := by decide +kernel
  refine ⟨twice, ?_⟩
  intro consistent
  have distinct := consistent.atMostOnce
  rw [twice] at distinct
  simp at distinct

end ViCell.Invariant.SchedulerRuns

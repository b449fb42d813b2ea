import ViCell.Core.Transitions

/-!
# What one action does to a task's recorded partners

The counterpart of `Transitions` for the fields that name other tasks:
`current_caller`, `waiters` and `reply_value`, and for the life of the task
itself.
-/

namespace ViCell.Core.FieldChanges

open Lib Core.Tcb Core.Ready Core.State Core.Scheduler Core.Ipc Core.HotSwap Core.Machine Option
open Core.Effects Core.Transitions

def SetsCaller (kernel : Kernel) (id named : TaskId) : Action → Prop
  | .acceptPending caller sender => id = caller ∧ named = sender
  | .send caller target _ => id = target ∧ named = caller
  | .recv caller _ _ =>
    id = caller ∧ ∃ message, findSender kernel.tasks caller = some (named, message)
  | .tryRecv caller _ =>
    id = caller ∧ ∃ message, findSender kernel.tasks caller = some (named, message)
  | .exit tid _ _ _ => named = tid ∧ id ∈ kernel.deathSubscribers tid
  | _ => False

section Caller

variable {kernel : Kernel} {hart : HartId} {id named : TaskId} {after : Task}

variable {dead : TaskId} {task : Task}

theorem unblock_sender_caller (names : (unblockSender dead task).currentCaller = some named) :
    task.currentCaller = some named ∧ named ≠ dead := by
  have cleared : (unblockSender dead task).currentCaller =
      if task.currentCaller = some dead then none else task.currentCaller := by
    by_cases sending : task.state.sendTarget = some dead <;>
      by_cases stale : task.currentCaller = some dead <;> simp [unblockSender, sending, stale]
  rw [cleared] at names
  split at names
  · cases names
  · rename_i differs
    constructor
    · exact names
    · intro same
      rw [same] at names
      exact differs names

theorem notify_watcher_caller {reason count : Nat}
    (names : ((notifyWatcher dead reason)^[count] task).currentCaller = some named) :
    task.currentCaller = some named ∨ (named = dead ∧ 0 < count) := by
  induction count generalizing task with
  | zero => exact Or.inl names
  | succ count ih =>
    rcases ih names with once | ⟨same, -⟩
    · unfold notifyWatcher at once
      split at once
      · exact Or.inr ⟨(some.inj once).symm, Nat.succ_pos count⟩
      · exact Or.inl once
    · exact Or.inr ⟨same, Nat.succ_pos count⟩

theorem survivor_caller {reason : Nat}
    (names : (survivor kernel dead reason id task).currentCaller = some named) :
    (task.currentCaller = some named ∧ named ≠ dead) ∨
      (named = dead ∧ id ∈ kernel.deathSubscribers dead) := by
  rcases notify_watcher_caller names with was | ⟨same, counted⟩
  · left
    apply unblock_sender_caller
    split at was <;> exact was
  · exact Or.inr ⟨same, List.count_pos_iff.mp counted⟩

theorem accept_effect_caller {caller sender : TaskId}
    (names : (acceptEffect caller sender id task).currentCaller = some named) :
    task.currentCaller = some named ∨ (id = caller ∧ named = sender) := by
  simp only [acceptEffect] at names
  by_cases isCaller : id = caller
  · simp only [isCaller] at names
    exact Or.inr ⟨isCaller, (some.inj names).symm⟩
  · simp only [isCaller, if_false] at names
    left
    split at names <;> exact names

theorem reply_effect_caller {caller target : TaskId} {out : Nat}
    (names : (replyEffect caller target out id task).currentCaller = some named) :
    task.currentCaller = some named := by
  simp only [replyEffect] at names
  by_cases isCaller : id = caller
  · simp only [isCaller] at names
    cases names
  · simp only [isCaller, if_false] at names
    split at names <;> exact names

/-- The inversion lemma for `current_caller`: an id found there was there before
and its task has not just exited, or the action wrote it. -/
theorem act_caller {action : Action} (found : (act kernel hart action).tasks.get id = some after)
    (names : after.currentCaller = some named) :
    (∃ task, kernel.tasks.get id = some task ∧ task.currentCaller = some named ∧
        ∀ reason code cause, action ≠ .exit named reason code cause) ∨
      SetsCaller kernel id named action := by
  rcases act_origin found with ⟨task, has, change⟩ | ⟨cellId, rfl, fresh, rfl⟩
  · cases change with
    | survived =>
      rcases survivor_caller names with ⟨kept, differs⟩ | notified
      · left
        refine ⟨task, has, kept, ?_⟩
        intro otherReason otherCode otherCause same
        cases same
        exact differs rfl
      · exact Or.inr notified
    | same _ stays =>
      left
      refine ⟨_, has, names, ?_⟩
      intro reason code cause exits
      subst exits
      exact stays trivial
    | edited edit =>
      rw [(edit_keeps edit task).2.2] at names
      exact Or.inl ⟨task, has, names, by simp⟩
    | unbuffered sender | delivered caller msg receiving =>
      exact Or.inr ⟨rfl, (some.inj names).symm⟩
    | armed =>
      unfold installDeadline at names
      split at names <;> exact Or.inl ⟨task, has, names, by simp⟩
    | received caller sender mask buf msg waiting
    | polled _ _ _ msg waiting =>
      rcases accept_effect_caller names with kept | ⟨rfl, rfl⟩
      · exact Or.inl ⟨task, has, kept, by simp⟩
      · exact Or.inr ⟨rfl, msg, waiting⟩
    | replied =>
      exact Or.inl ⟨task, has, reply_effect_caller names, by simp⟩
    | waits =>
      left
      refine ⟨task, has, ?_, by simp⟩
      simp only [waitEffect] at names
      split at names <;> split at names <;> exact names
    | _ => exact Or.inl ⟨task, has, names, by simp⟩
  · cases names

end Caller

variable {kernel : Kernel} {id : TaskId} {after : Task} {action : Action}

theorem change_waiters {task : Task} (change : TaskChange kernel id task action after) :
    task.waiters ⊆ after.waiters := by
  cases change with
  | edited =>
    rw [(edit_keeps _ _).2.1]
    exact List.Subset.refl _
  | armed =>
    unfold installDeadline
    split <;> exact List.Subset.refl _
  | received caller sender mask buf msg waiting
  | polled =>
    simp only [acceptEffect]
    split <;> split <;> exact List.Subset.refl _
  | replied =>
    simp only [replyEffect]
    split <;> split <;> exact List.Subset.refl _
  | survived =>
    rw [survivor_waiters]
    exact List.Subset.refl _
  | waits caller pid =>
    have joined : (waitEffect caller pid id task).waiters =
        if id = pid then task.waiters ++ [caller] else task.waiters := by
      simp only [waitEffect]
      split <;> split <;> rfl
    rw [joined]
    split
    · exact List.subset_append_left _ _
    · exact List.Subset.refl _
  | _ => exact List.Subset.refl _

/-- Everything an action can do to the messages queued for a task. -/
inductive QueueChange (id : TaskId) (task : Task) : Action → List PendingMsg → Prop
  | same (action : Action) : QueueChange id task action task.pendingMsgs
  | popped (sender : TaskId) :
      QueueChange id task (.acceptPending id sender) task.pendingMsgs.tail
  | pushed (caller : TaskId) (message : Message) (tick : Nat) (frozen : task.state.isFrozen) :
      QueueChange id task (.send caller id message) (task.pendingMsgs ++ [⟨caller, message, tick⟩])
  | taken : QueueChange id task (.edit id .takePending) []

theorem change_messages {task : Task} (change : TaskChange kernel id task action after) :
    QueueChange id task action after.pendingMsgs := by
  cases change with
  | edited edit =>
    cases edit with
    | takePending => exact .taken
    | countRunTick =>
      have kept : (Edit.apply .countRunTick task).pendingMsgs = task.pendingMsgs := by
        simp only [Edit.apply, Scheduler.countRunTick]
      exact .same _
    | _ => exact .same _
  | unbuffered sender => exact .popped sender
  | buffered caller msg frozen => exact .pushed caller msg kernel.ticks frozen
  | armed =>
    unfold installDeadline
    split <;> exact .same _
  | received caller sender mask buf msg waiting
  | polled =>
    simp only [acceptEffect]
    split <;> split <;> exact .same _
  | replied =>
    simp only [replyEffect]
    split <;> split <;> exact .same _
  | survived =>
    rw [survivor_kept Task.pendingMsgs (fun _ _ _ _ _ _ _ => rfl)]
    exact .same _
  | waits =>
    simp only [waitEffect]
    split <;> split <;> exact .same _
  | _ => exact .same _

/-- Replace every field that actions other than edits write. -/
def rewrite (state : TaskState) (a0 misses : Nat) (caller : Option TaskId)
    (reply : Option Nat) (waiters : List TaskId) (messages : List PendingMsg)
    (deaths : List (TaskId × Nat)) (reason : Option Nat) (task : Task) : Task :=
  { task with
    state := state, a0 := a0, deadlineMisses := misses, currentCaller := caller
    replyValue := reply, waiters := waiters, pendingMsgs := messages
    pendingDeaths := deaths, pendingExitReason := reason }

def EditOnly {Field : Type} (field : Task → Field) : Prop :=
  ∀ state a0 misses caller reply waiters messages deaths reason task,
    field (rewrite state a0 misses caller reply waiters messages deaths reason task) = field task

section EditOnlyFields

variable {Field : Type} {field : Task → Field} {kernel : Kernel} {id : TaskId}
  {task after : Task} {action : Action}

theorem survivor_field (edits : EditOnly field) (dead : TaskId) (reason : Nat) :
    field (survivor kernel dead reason id task) = field task :=
  survivor_kept field (fun _ _ _ _ _ _ _ => edits _ _ _ _ _ _ _ _ _ _) kernel dead reason id task

theorem change_field (edits : EditOnly field) (change : TaskChange kernel id task action after) :
    field after = field task ∨ ∃ edit, action = .edit id edit ∧ after = edit.apply task := by
  cases change with
  | same => exact Or.inl rfl
  | edited edit => exact Or.inr ⟨edit, rfl, rfl⟩
  | armed =>
    left
    unfold installDeadline
    split
    · exact edits _ _ _ _ _ _ _ _ _ task
    · rfl
  | received caller sender mask buf msg waiting
  | polled =>
    left
    simp only [acceptEffect]
    split <;> split <;> exact edits _ _ _ _ _ _ _ _ _ task
  | replied =>
    left
    simp only [replyEffect]
    split <;> split <;> exact edits _ _ _ _ _ _ _ _ _ task
  | waits =>
    left
    simp only [waitEffect]
    split <;> split <;> exact edits _ _ _ _ _ _ _ _ _ task
  | survived tid reason => exact Or.inl (survivor_field edits tid reason)
  | _ => exact Or.inl (edits _ _ _ _ _ _ _ _ _ task)

end EditOnlyFields

variable {hart : HartId}

theorem blocked_origin (found : (act kernel hart action).tasks.get id = some after)
    (notReady : after.state ≠ .ready) (notRunning : after.state ≠ .running)
    (notFrozen : after.state.isFrozen = false) :
    (∃ task, kernel.tasks.get id = some task ∧ task.state = after.state ∧
        ∀ tid reason code cause, action = .exit tid reason code cause →
          ¬ WokenByExit kernel tid id task) ∨
      ∃ task, kernel.tasks.get id = some task ∧ Parks kernel id task after.state action := by
  rcases act_origin found with ⟨task, has, change⟩ | ⟨cellId, rfl, fresh, rfl⟩
  · by_cases exits : Exits action
    · cases change with
      | survived =>
        rw [survivor_state] at notReady ⊢
        split at notReady
        · exact absurd rfl notReady
        · rename_i asleep
          left
          refine ⟨task, has, ?_, ?_⟩
          · rw [if_neg asleep]
          · intro dead otherReason otherCode otherCause same
            cases same
            exact asleep
      | same _ stays => exact absurd exits stays
      | _ => exact exits.elim
    · have state := change_state has change
      generalize out : some after.state = changed at state
      have staying : ∀ tid reason code cause, action = .exit tid reason code cause →
          ¬ WokenByExit kernel tid id task := by
        intro tid reason code cause same
        subst same
        exact absurd trivial exits
      cases state with
      | same => exact Or.inl ⟨task, has, (some.inj out).symm, staying⟩
      | woken => exact absurd (some.inj out) notReady
      | parked _ parks =>
        cases out
        exact Or.inr ⟨task, has, parks⟩
      | dispatched => exact absurd (some.inj out) notRunning
      | frozen =>
        rw [some.inj out] at notFrozen
        cases notFrozen
      | gone => cases out
  · exact absurd rfl notReady

def KeepsRegistry : Action → Prop
  | .exit _ _ _ _ => False
  | .register _ _ => False
  | .clearRegistry _ => False
  | _ => True

theorem act_registry_kept (keeps : KeepsRegistry action) :
    (act kernel hart action).registry = kernel.registry := by
  by_cases inside : Local action
  · exact (act_updates inside).fields.2.2
  cases action with
  | exit | register | clearRegistry => exact keeps.elim
  | dispatch =>
    simp only [act, dispatchNext]
    split <;> rfl
  | _ => first | exact absurd trivial inside | rfl

theorem act_exit_registry (kernel : Kernel) (hart : HartId) (tid : TaskId) (reason : Nat)
    (code : Option Nat) (cause : ExitCause) :
    (act kernel hart (.exit tid reason code cause)).registry = clearTid kernel.registry tid := by
  simp only [act, retire]
  split
  · split <;> rfl
  · rfl

theorem mem_clear_tid {registry : List (Nat × TaskId)} {tid : TaskId} {entry : Nat × TaskId} :
    entry ∈ clearTid registry tid ↔ entry ∈ registry ∧ entry.2 ≠ tid := by
  simp [clearTid]

/-- The inversion lemma for the service registry: an entry was there before and its
task has not just exited, or it has just been registered. -/
theorem act_registry {entry : Nat × TaskId} (mem : entry ∈ (act kernel hart action).registry) :
    (entry ∈ kernel.registry ∧ ∀ reason code cause, action ≠ .exit entry.2 reason code cause) ∨
      action = .register entry.1 entry.2 := by
  by_cases keeps : KeepsRegistry action
  · rw [act_registry_kept keeps] at mem
    left
    refine ⟨mem, ?_⟩
    intro reason code cause exits
    subst exits
    exact keeps
  · cases action with
    | exit =>
      rw [act_exit_registry, mem_clear_tid] at mem
      left
      refine ⟨mem.1, ?_⟩
      intro otherReason otherCode otherCause same
      cases same
      exact mem.2 rfl
    | clearRegistry =>
      exact Or.inl ⟨(mem_clear_tid.mp mem).1, by simp⟩
    | register =>
      simp only [act, register] at mem
      split at mem
      · exact Or.inl ⟨mem, by simp⟩
      · split at mem
        · exact Or.inl ⟨mem, by simp⟩
        · rcases List.mem_cons.mp mem with rfl | older
          · exact Or.inr rfl
          · exact Or.inl ⟨List.mem_of_mem_filter older, by simp⟩
    | _ => exact absurd trivial keeps

end ViCell.Core.FieldChanges

import ViCell.Core.FieldChanges

/-!
# Stored task ids

Task ids are stored as the target of a blocked send or wait, as `current_caller`
and in the service registry.  The targets of blocked tasks are live in every
reachable state.  The other two kinds may outlive their task; every such stale id
was stored by an action of the run that named a dead task.
-/

namespace ViCell.Invariant.References

open Lib Core.Tcb Core.Ready Core.State Core.Scheduler Core.Ipc Core.Handler Core.Machine Option
open Core.Effects Core.Transitions Core.FieldChanges

/-- Blocked tasks wait for live ones, and a joined task knows who waits for it. -/
structure TargetsLive (kernel : Kernel) : Prop where
  sending : ∀ id task target, kernel.tasks.get id = some task →
    task.state.sendTarget = some target → ∃ partner, kernel.tasks.get target = some partner
  waiting : ∀ id task target, kernel.tasks.get id = some task → task.state = .waiting target →
      ∃ partner, kernel.tasks.get target = some partner ∧ id ∈ partner.waiters

section Targets

variable {kernel : Kernel} {hart : HartId} {id target : TaskId} {action : Action} {after : Task}

theorem parks_sending {task : Task} {state : TaskState} (parks : Parks kernel id task state action)
    (sends : state.sendTarget = some target) :
    SendBlocks kernel target ∧ ∃ message, action = .send id target message := by
  cases action with
  | send _ _ message =>
    obtain ⟨rfl, blocks, rfl⟩ := parks
    cases sends
    exact ⟨blocks, message, rfl⟩
  | recv caller mask buf | futexWait caller addr value observed | wait caller pid =>
    obtain ⟨-, -, rfl⟩ := parks
    cases sends
  | arm =>
    obtain ⟨-, mask, buf, _, -, rfl⟩ := parks
    cases sends
  | sleep caller wakeAt | awaitEvent caller mask deadline =>
    obtain ⟨-, rfl⟩ := parks
    cases sends
  | _ => exact parks.elim

theorem parks_waiting {task : Task} (parks : Parks kernel id task (.waiting target) action) :
    action = .wait id target ∧
      ∃ partner, kernel.tasks.get target = some partner ∧ partner.state ≠ .terminated := by
  cases action with
  | wait =>
    obtain ⟨rfl, alive, same⟩ := parks
    cases same
    exact ⟨rfl, alive⟩
  | send caller other msg | recv caller mask buf | futexWait caller addr value observed =>
    exact absurd parks.2.2 (by simp)
  | arm =>
    obtain ⟨-, mask, buf, _, -, same⟩ := parks
    cases same
  | sleep caller wakeAt | awaitEvent caller mask deadline => exact absurd parks.2 (by simp)
  | _ => exact parks.elim

theorem sending_live_act (holds : TargetsLive kernel)
    (found : (act kernel hart action).tasks.get id = some after)
    (sends : after.state.sendTarget = some target) :
    ∃ partner, (act kernel hart action).tasks.get target = some partner := by
  have notReady : after.state ≠ .ready := by
    intro ready
    rw [ready] at sends
    cases sends
  have notRunning : after.state ≠ .running := by
    intro running
    rw [running] at sends
    cases sends
  have notFrozen : after.state.isFrozen = false := by
    cases state : after.state <;> simp_all [TaskState.sendTarget, TaskState.isFrozen]
  rcases blocked_origin found notReady notRunning notFrozen with
    ⟨task, has, same, asleep⟩ | ⟨task, has, parks⟩
  · rw [← same] at sends
    obtain ⟨partner, alive⟩ := holds.sending id task target has sends
    rcases act_live alive action with live | ⟨reason, code, cause, exits⟩
    · exact live
    · exact absurd (Or.inl sends) (asleep target reason code cause exits)
  · obtain ⟨⟨_, alive, -⟩, msg, rfl⟩ := parks_sending parks sends
    rcases act_live alive (.send id target msg) with live | ⟨reason, code, cause, exits⟩
    · exact live
    · cases exits

theorem waiting_live_act (holds : TargetsLive kernel)
    (found : (act kernel hart action).tasks.get id = some after)
    (waits : after.state = .waiting target) :
    ∃ partner, (act kernel hart action).tasks.get target = some partner ∧ id ∈ partner.waiters := by
  rcases blocked_origin found (by simp [waits]) (by simp [waits])
      (by simp [waits, TaskState.isFrozen]) with
    ⟨task, has, same, asleep⟩ | ⟨task, has, parks⟩
  · obtain ⟨partner, alive, recorded⟩ := holds.waiting id task target has (same.trans waits)
    rcases act_task alive action with ⟨later, live, change⟩ | ⟨-, reason, code, cause, exits⟩
    · exact ⟨later, live, change_waiters change recorded⟩
    · have woken : id ∈ waitersOf kernel target := by simpa [waitersOf, alive] using recorded
      exact absurd (Or.inr (Or.inl woken)) (asleep target reason code cause exits)
  · rw [waits] at parks
    obtain ⟨rfl, partner, alive, runs⟩ := parks_waiting parks
    refine ⟨waitEffect id target target partner, ?_, ?_⟩
    · simp only [act, waitCall, alive, runs]
      exact wait_get alive id target
    · simp only [waitEffect]
      split <;> simp

theorem targets_live_act (holds : TargetsLive kernel) : TargetsLive (act kernel hart action) where
  sending _ _ _ found sends := sending_live_act holds found sends
  waiting _ _ _ found waits := waiting_live_act holds found waits

theorem targets_live_step {was next : System} {event : Event}
    (holds : TargetsLive was.kernel) (ran : step was event = some next) :
    TargetsLive next.kernel := by
  have acted : TargetsLive (actAll was.kernel (actionsOf was event).1
      (actionsOf was event).2) :=
    act_all_preserved (fun _ _ held => targets_live_act held) _ holds
  have core := step_acts ran
  constructor
  · rw [core.tasks]
    exact acted.sending
  · rw [core.tasks]
    exact acted.waiting

end Targets

/-- The action makes this task's `current_caller` name a task that is not live
afterwards: a death notice, a buffered message whose sender has gone, or a send
made for such a sender, the kernel's own id included. -/
def NamesDead (id named : TaskId) (kernel : Kernel) : Action → Prop
  | .exit tid _ _ _ => tid = named ∧ id ∈ kernel.deathSubscribers named
  | .acceptPending caller sender =>
    caller = id ∧ sender = named ∧ kernel.tasks.get named = none
  | .send caller target _ => target = id ∧ caller = named ∧ kernel.tasks.get named = none
  | _ => False

def RegistersDead (serviceId : Nat) (tid : TaskId) (kernel : Kernel) (action : Action) : Prop :=
  action = .register serviceId tid ∧ kernel.tasks.get tid = none

def StaleCaller (id named : TaskId) (kernel : Kernel) : Prop :=
  (∃ task, kernel.tasks.get id = some task ∧ task.currentCaller = some named) ∧
    kernel.tasks.get named = none

def StaleService (serviceId : Nat) (tid : TaskId) (kernel : Kernel) : Prop :=
  (serviceId, tid) ∈ kernel.registry ∧ kernel.tasks.get tid = none

section Stale

variable {id named : TaskId} {kernel : Kernel} {hart : HartId} {action : Action}

theorem missing_origin (gone : (act kernel hart action).tasks.get id = none) :
    kernel.tasks.get id = none ∨ ∃ reason code cause, action = .exit id reason code cause := by
  cases has : kernel.tasks.get id with
  | none => exact Or.inl rfl
  | some =>
    rcases act_live has action with ⟨after, live⟩ | exits
    · rw [gone] at live
      cases live
    · exact Or.inr exits

theorem stale_caller_origin (stale : StaleCaller id named (act kernel hart action)) :
    StaleCaller id named kernel ∨ NamesDead id named kernel action := by
  obtain ⟨⟨_, found, names⟩, gone⟩ := stale
  have origin := missing_origin gone
  rcases act_caller found names with ⟨task, has, kept, stays⟩ | sets
  · rcases origin with was | ⟨reason, code, cause, exits⟩
    · exact Or.inl ⟨⟨task, has, kept⟩, was⟩
    · exact absurd exits (stays reason code cause)
  · cases action with
    | exit =>
      obtain ⟨rfl, subscribed⟩ := sets
      exact Or.inr ⟨rfl, subscribed⟩
    | acceptPending caller sender | send caller target msg =>
      obtain ⟨rfl, rfl⟩ := sets
      rcases origin with was | ⟨reason, code, cause, exits⟩
      · exact Or.inr ⟨rfl, rfl, was⟩
      · cases exits
    | recv caller mask buf | tryRecv caller buf =>
      obtain ⟨-, msg, waiting⟩ := sets
      obtain ⟨sender, alive, -⟩ := find_sender_some waiting
      rcases origin with was | ⟨reason, code, cause, exits⟩
      · rw [alive] at was
        cases was
      · cases exits
    | _ => exact sets.elim

theorem stale_service_origin {serviceId : Nat} {tid : TaskId}
    (stale : StaleService serviceId tid (act kernel hart action)) :
    StaleService serviceId tid kernel ∨ RegistersDead serviceId tid kernel action := by
  obtain ⟨mem, gone⟩ := stale
  have origin := missing_origin gone
  rcases act_registry mem with ⟨kept, stays⟩ | registers
  · rcases origin with was | ⟨reason, code, cause, exits⟩
    · exact Or.inl ⟨kept, was⟩
    · exact absurd exits (stays reason code cause)
  · subst registers
    rcases origin with was | ⟨reason, code, cause, exits⟩
    · exact Or.inr ⟨rfl, was⟩
    · cases exits

theorem stale_caller_explained {events : List Event} {system : System}
    (ran : runEvents step initial events = some system)
    (stale : StaleCaller id named system.kernel) :
    Occurs step (StepPerforms (NamesDead id named)) initial events := by
  refine run_introduces (StaleCaller id named) ?_
    (fun _ _ _ later => stale_caller_origin later) ?_ ran stale
  · intro left right core stale
    unfold StaleCaller at stale ⊢
    rwa [core.tasks] at stale
  · rintro ⟨⟨task, found, names⟩, -⟩
    obtain ⟨-, rfl⟩ := initial_task found
    cases names

theorem stale_service_explained {events : List Event} {system : System} {serviceId : Nat}
    {tid : TaskId} (ran : runEvents step initial events = some system)
    (stale : StaleService serviceId tid system.kernel) :
    Occurs step (StepPerforms (RegistersDead serviceId tid)) initial events := by
  refine run_introduces (StaleService serviceId tid) ?_
    (fun _ _ _ later => stale_service_origin later) ?_ ran stale
  · intro left right core stale
    unfold StaleService at stale ⊢
    rwa [core.tasks, core.registry] at stale
  · rintro ⟨mem, -⟩
    cases mem

end Stale

theorem targets_live_initial : TargetsLive initial.kernel where
  sending id task target found sends := by
    obtain ⟨-, rfl⟩ := initial_task found
    cases sends
  waiting id task target found waits := by
    obtain ⟨-, rfl⟩ := initial_task found
    cases waits

/-- In every reachable state the targets of blocked sends and waits are live, and
a `current_caller` or a registry entry that names no live task was stored by an
earlier action that named a dead task. -/
theorem references_live_or_explained {events : List Event} {system : System}
    (ran : runEvents step initial events = some system) :
    (∀ id task target, system.kernel.tasks.get id = some task →
        task.state.sendTarget = some target ∨ task.state = .waiting target →
        system.kernel.tasks.live target) ∧
      (∀ id task named, system.kernel.tasks.get id = some task → task.currentCaller = some named →
        system.kernel.tasks.live named ∨
          Occurs step (StepPerforms (NamesDead id named)) initial events) ∧
      ∀ serviceId tid, (serviceId, tid) ∈ system.kernel.registry → system.kernel.tasks.live tid ∨
          Occurs step (StepPerforms (RegistersDead serviceId tid)) initial events := by
  have targets : TargetsLive system.kernel :=
    run_invariant (fun reached => TargetsLive reached.kernel)
      (fun _ _ _ => targets_live_step) ran targets_live_initial
  refine ⟨?_, ?_, ?_⟩
  · intro id task target found blocked
    rw [IdTable.live_iff_exists]
    rcases blocked with sends | waits
    · exact targets.sending id task target found sends
    · obtain ⟨partner, alive, -⟩ := targets.waiting id task target found waits
      exact ⟨partner, alive⟩
  · intro id task named found names
    by_cases missing : system.kernel.tasks.get named = none
    · exact Or.inr (stale_caller_explained ran ⟨⟨task, found, names⟩, missing⟩)
    · exact Or.inl (isSome_iff_ne_none.mpr missing)
  · intro serviceId tid member
    by_cases missing : system.kernel.tasks.get tid = none
    · exact Or.inr (stale_service_explained ran ⟨member, missing⟩)
    · exact Or.inl (isSome_iff_ne_none.mpr missing)

/-- `init` watches a task and waits for messages; the task exits. -/
def watchedExit : List Event :=
  [.idle 0] ++ callFor 0 .spawn 1 ++ callFor 0 (.notifyOnExit 2) 2 ++
    callFor 0 (.recv 0 ⟨16, List.replicate 8 0⟩) 4 ++ callFor 0 (.exit 7) 1

theorem watched_exit_explained :
    Occurs step (StepPerforms (NamesDead 1 2)) initial watchedExit := by
  have complete : (runEvents step initial watchedExit).isSome := by decide +kernel
  have caller : ((runEvents step initial watchedExit).bind (fun system =>
      (system.kernel.tasks.get 1).bind Task.currentCaller)) = some 2 := by decide +kernel
  have gone : ((runEvents step initial watchedExit).bind (fun system =>
      system.kernel.tasks.get 2)) = none := by decide +kernel
  obtain ⟨system, ran⟩ := isSome_iff_exists.mp complete
  rw [ran, bind_some] at caller gone
  obtain ⟨task, found, names⟩ := bind_eq_some_iff.mp caller
  rcases (references_live_or_explained ran).2.1 1 task 2 found names with alive | explained
  · rw [IdTable.live, gone] at alive
    cases alive
  · exact explained

/-- The notice makes the watcher's `current_caller` the id of the task that exited. -/
theorem death_notice_names_dead :
    (runEvents step initial watchedExit).map (fun system =>
        ((system.kernel.tasks.get 1).bind Task.currentCaller,
          decide (system.kernel.tasks.live 2))) = some (some 2, false) := by
  decide +kernel

end ViCell.Invariant.References

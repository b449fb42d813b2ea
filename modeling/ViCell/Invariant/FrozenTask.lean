import ViCell.Core.Transitions

/-!
# Frozen tasks stay frozen

A hot-swap parks the task it replaces in state `Frozen`.  `FreezeSafe` says which
actions of the kernel respect that; `frozen_until_released` shows that in a run
of such steps a frozen task is out of every queue and on no hart, and keeps its
state until the same hot-swap rolls it back or terminates it.
-/

namespace ViCell.Invariant.FrozenTask

open Lib Core.Tcb Core.Ready Core.State Core.Scheduler Core.Ipc Core.Handler Core.HotSwap
open Core.Machine Core.Effects Core.Transitions

def frozenBy (kernel : Kernel) (id : TaskId) : Option Nat :=
  match stateOf kernel.tasks id with
  | some (.frozen swapId) => some swapId
  | _ => none

/-- The action leaves frozen tasks to the hot-swap that froze them. -/
def FreezeSafe (kernel : Kernel) (_hart : HartId) : Action → Prop
  | .send caller target _ => SendBlocks kernel target → frozenBy kernel caller = none
  | .reply caller _ =>
    ∀ target ∈ (kernel.tasks.get caller).bind Task.currentCaller, frozenBy kernel target = none
  | .exit tid _ _ cause =>
    (∀ waiter ∈ waitersOf kernel tid, frozenBy kernel waiter = none) ∧
      ∀ swapId ∈ frozenBy kernel tid, cause = .replaced swapId
  | .freeze tid _ => frozenBy kernel tid = none ∧ ∀ hart, kernel.current hart ≠ tid
  | .rollback tid swapId => ∀ other ∈ frozenBy kernel tid, other = swapId
  | _ => True

instance (kernel : Kernel) (hart : HartId) (action : Action) :
    Decidable (FreezeSafe kernel hart action) := by
  unfold FreezeSafe
  split <;> infer_instance

def releasing : Action → Option (TaskId × Nat)
  | .rollback tid swapId => some (tid, swapId)
  | .exit tid _ _ (.replaced swapId) => some (tid, swapId)
  | _ => none

structure FrozenParked (kernel : Kernel) : Prop where
  zeroFree : ZeroFree kernel
  parked : ∀ id swapId, frozenBy kernel id = some swapId →
    id ∉ queued kernel ∧ ∀ hart, kernel.current hart ≠ id

section OneAction

variable {kernel : Kernel} {hart : HartId} {id : TaskId} {swapId : Nat} {action : Action}

theorem frozen_by_iff :
    frozenBy kernel id = some swapId ↔ stateOf kernel.tasks id = some (.frozen swapId) := by
  unfold frozenBy
  split
  · rename_i other state
    rw [state]
    simp
  · rename_i other
    constructor
    · intro none
      cases none
    · intro state
      exact absurd state (other swapId)

theorem frozen_by_get (frozen : frozenBy kernel id = some swapId) :
    ∃ task, kernel.tasks.get id = some task ∧ task.state = .frozen swapId :=
  Option.map_eq_some_iff.mp (frozen_by_iff.mp frozen)

theorem not_frozen_by (frozen : frozenBy kernel id = some swapId)
    (clear : frozenBy kernel id = none) : False := by
  rw [clear] at frozen
  cases frozen

variable {task : Task}

theorem wakes_frozen (found : kernel.tasks.get id = some task)
    (state : task.state = .frozen swapId) (own : Own kernel hart action)
    (safe : FreezeSafe kernel hart action) (wakes : Wakes kernel id task action) :
    action = .rollback id swapId := by
  have frozen : frozenBy kernel id = some swapId := by
    rw [frozen_by_iff, state_of_get found, state]
  cases action with
  | send =>
    have receiving := wakes.2
    rw [state] at receiving
    cases receiving
  | recv caller mask buf | tryRecv caller buf =>
    have sending : task.state.sendTarget = some caller := wakes
    rw [state] at sending
    cases sending
  | reply => exact (not_frozen_by frozen (safe id wakes)).elim
  | exit =>
    rcases wakes.2 with sending | waiting | ⟨-, receiving⟩
    · rw [state] at sending
      cases sending
    · exact (not_frozen_by frozen (safe.1 id waiting)).elim
    · rw [state] at receiving
      cases receiving
  | wakeDue =>
    have timed : isTimed task.state = true := wakes
    rw [state] at timed
    cases timed
  | requeue tid =>
    obtain ⟨-, _, has, runs⟩ := own
    have here : id = tid := wakes
    subst here
    rw [found] at has
    cases has
    rw [state] at runs
    cases runs
  | futexWake addr =>
    have waits : task.state = .futexWait addr := wakes
    rw [state] at waits
    cases waits
  | rollback =>
    obtain ⟨rfl, -⟩ := wakes
    rw [safe swapId frozen]
  | _ => exact wakes.elim

theorem parks_frozen {state : TaskState} (found : kernel.tasks.get id = some task)
    (frozen : task.state = .frozen swapId) (idle : ∀ hart, kernel.current hart ≠ id)
    (own : Own kernel hart action) (safe : FreezeSafe kernel hart action) :
    ¬ Parks kernel id task state action := by
  intro parks
  have notCurrent : id ≠ kernel.current hart := fun same => idle hart same.symm
  cases action with
  | send =>
    obtain ⟨rfl, blocks, -⟩ := parks
    have held : frozenBy kernel id = some swapId := by
      rw [frozen_by_iff, state_of_get found, frozen]
    exact not_frozen_by held (safe blocks)
  | recv caller mask buf | arm caller deadline | futexWait caller addr value observed
  | wait caller pid | sleep caller wakeAt | awaitEvent caller mask deadline => exact notCurrent (parks.1.trans own)
  | _ => exact parks

theorem parks_not_frozen {state : TaskState} (parks : Parks kernel id task state action)
    (other : Nat) : state ≠ .frozen other := by
  cases action with
  | send caller target msg | recv caller mask buf | futexWait caller addr value observed
  | wait => simp [parks.2.2]
  | arm =>
    obtain ⟨-, mask, buf, _, -, rfl⟩ := parks
    simp
  | sleep => simp [parks.2]
  | awaitEvent => simp [parks.2]
  | _ => exact parks.elim

theorem frozen_kept (holds : FrozenParked kernel) (own : Own kernel hart action)
    (safe : FreezeSafe kernel hart action) (frozen : frozenBy kernel id = some swapId) :
    frozenBy (act kernel hart action) id = some swapId ∨ releasing action = some (id, swapId) := by
  obtain ⟨task, found, state⟩ := frozen_by_get frozen
  obtain ⟨unqueued, idle⟩ := holds.parked id swapId frozen
  have change : StateChange kernel id task action (stateOf (act kernel hart action).tasks id) :=
    act_state found action
  generalize after : stateOf (act kernel hart action).tasks id = out at change
  cases change with
  | same =>
    left
    rw [frozen_by_iff, after, state]
  | woken wakes =>
    right
    rw [wakes_frozen found state own safe wakes]
    rfl
  | parked _ parks => exact absurd parks (parks_frozen found state idle own safe)
  | dispatched _ mem => exact absurd mem unqueued
  | frozen _ freezes =>
    subst freezes
    exact (not_frozen_by frozen safe.1).elim
  | gone _ _ _ exits =>
    subst exits
    right
    rw [safe.2 swapId frozen]
    rfl

theorem frozen_origin (frozen : frozenBy (act kernel hart action) id = some swapId) :
    frozenBy kernel id = some swapId ∨
      (action = .freeze id swapId ∧ (kernel.tasks.get id).isSome) := by
  cases found : kernel.tasks.get id with
  | none =>
    obtain ⟨task, has, state⟩ := frozen_by_get frozen
    rcases act_absent found action with lost | ⟨cellId, -, -, fresh⟩
    · rw [lost] at has
      cases has
    · rw [fresh] at has
      cases has
      cases state
  | some task =>
    have change : StateChange kernel id task action
        (stateOf (act kernel hart action).tasks id) := act_state found action
    generalize after : stateOf (act kernel hart action).tasks id = out at change
    have same : out = some (.frozen swapId) := after.symm.trans (frozen_by_iff.mp frozen)
    cases change with
    | same =>
      left
      rw [frozen_by_iff, state_of_get found]
      exact same
    | woken => cases same
    | parked _ parks => exact absurd (Option.some.inj same) (parks_not_frozen parks swapId)
    | dispatched => cases same
    | frozen _ freezes =>
      cases same
      exact Or.inr ⟨freezes, rfl⟩
    | gone => cases same

theorem rollback_thaws (frozen : frozenBy kernel id = some swapId) :
    frozenBy (act kernel hart (.rollback id swapId)) id = none := by
  obtain ⟨task, found, state⟩ := frozen_by_get frozen
  have thawed : task.state.isFrozen = true := by
    rw [state]
    rfl
  simp [frozenBy, act, unfreezeTask, found, thawed, stateOf, pushReady, setState, modifyTask]

theorem frozen_unqueued (holds : FrozenParked kernel) (own : Own kernel hart action)
    (safe : FreezeSafe kernel hart action) (frozen : frozenBy (act kernel hart action) id = some swapId) :
    id ∉ queued (act kernel hart action) := by
  intro mem
  rcases frozen_origin frozen with was | ⟨freezes, live⟩
  · rcases act_queue action mem with ⟨older, -⟩ | pushes
    · exact (holds.parked id swapId was).1 older
    · obtain ⟨task, found, state⟩ := frozen_by_get was
      have rolled := wakes_frozen found state own safe (wakes_of_pushes found pushes)
      subst rolled
      exact not_frozen_by frozen (rollback_thaws was)
  · subst freezes
    rcases act_queue (.freeze id swapId) mem with ⟨-, stays⟩ | pushes
    · exact stays ⟨rfl, live⟩
    · obtain ⟨task, -, wakes⟩ := pushes
      exact wakes

theorem frozen_idle (holds : FrozenParked kernel) (safe : FreezeSafe kernel hart action)
    (frozen : frozenBy (act kernel hart action) id = some swapId) (other : HartId) :
    (act kernel hart action).current other ≠ id := by
  have nonzero : id ≠ 0 := by
    rintro rfl
    obtain ⟨_, found, -⟩ := frozen_by_get frozen
    rw [(act_zero_free holds.zeroFree action).1] at found
    cases found
  intro running
  rcases frozen_origin frozen with was | ⟨freezes, -⟩
  · obtain ⟨unqueued, idle⟩ := holds.parked id swapId was
    rcases act_current action other with kept | ⟨-, -, stopped | ⟨-, picked⟩⟩
    · exact idle other (kept.symm.trans running)
    · exact nonzero (running.symm.trans stopped)
    · rw [running] at picked
      exact unqueued picked
  · subst freezes
    rcases act_current (.freeze id swapId) other with kept | ⟨-, switches, -⟩
    · exact safe.2 other (kept.symm.trans running)
    · exact switches

theorem frozen_parked_act (holds : FrozenParked kernel) (own : Own kernel hart action)
    (safe : FreezeSafe kernel hart action) : FrozenParked (act kernel hart action) where
  zeroFree := act_zero_free holds.zeroFree action
  parked := fun _ _ frozen =>
    ⟨frozen_unqueued holds own safe frozen, frozen_idle holds safe frozen⟩

end OneAction

variable {kernel : Kernel}

variable {id : TaskId} {swapId : Nat}

theorem frozen_kept_acts {hart : HartId} {actions : List Action} (holds : FrozenParked kernel)
    (own : ActsMeet Own kernel hart actions) (safe : ActsMeet FreezeSafe kernel hart actions)
    (frozen : frozenBy kernel id = some swapId) :
    frozenBy (actAll kernel hart actions) id = some swapId ∨
      ∃ action ∈ actions, releasing action = some (id, swapId) := by
  induction actions generalizing kernel with
  | nil => exact Or.inl frozen
  | cons action rest ih =>
    rcases frozen_kept holds own.1 safe.1 frozen with kept | released
    · have later := ih (frozen_parked_act holds own.1 safe.1) own.2 safe.2 kept
      rcases later with still | ⟨other, mem, released⟩
      · exact Or.inl still
      · exact Or.inr ⟨other, List.mem_cons_of_mem _ mem, released⟩
    · exact Or.inr ⟨action, List.mem_cons_self, released⟩

theorem frozen_parked_core {left right : Kernel} (same : SameCore left right)
    (holds : FrozenParked left) : FrozenParked right := by
  have frozen : ∀ id, frozenBy right id = frozenBy left id := by
    intro id
    unfold frozenBy
    rw [same.tasks]
  constructor
  · unfold ZeroFree
    rw [same.tasks]
    exact holds.zeroFree
  · intro id swapId held
    rw [frozen] at held
    have parked := holds.parked id swapId held
    unfold queued
    rw [same.ready, same.current]
    exact parked

theorem frozen_parked_initial : FrozenParked initial.kernel where
  zeroFree := ⟨rfl, by decide⟩
  parked := by
    intro id swapId frozen
    obtain ⟨_, found, state⟩ := frozen_by_get frozen
    by_cases first : id = 1
    · subst first
      cases found
      cases state
    · have gone : initial.kernel.tasks.get id = none := by
        simp [initial, spawn, boot, pushReady, modifyTask, IdTable.empty, first]
      rw [gone] at found
      cases found

theorem frozen_parked_step {was after : System} {event : Event}
    (holds : FrozenParked was.kernel) (safe : StepMeets FreezeSafe was event)
    (ran : step was event = some after) : FrozenParked after.kernel :=
  frozen_parked_core (step_acts ran)
    (act_all_invariant (fun _ _ before met => frozen_parked_act before met.1 met.2) _ holds
      (acts_meet_and _ (actions_own was event) safe))

/-- The step is the rollback or the termination that the same hot-swap performs. -/
def ReleasedBySwap (system : System) (event : Event) (id : TaskId) (swapId : Nat) : Prop :=
  ∃ hart swap, event = .proceed hart ∧ swap.oldTid = id ∧ swap.swapId = swapId ∧
    (system.frames (system.kernel.current hart) = .swapRollback swap ∨
      ∃ newTid, system.frames (system.kernel.current hart) = .swapExit swap newTid)

theorem entry_releases_none (kernel : Kernel) (caller : TaskId) (call : Syscall) :
    releasing (entryAction kernel caller call) = none := by
  cases call <;> simp only [entryAction] <;> (try split) <;> (try split) <;> rfl

theorem frame_releases {caller : TaskId} {frame : Frame}
    (released : releasing (frameAction kernel caller frame) = some (id, swapId)) :
    ∃ swap, swap.oldTid = id ∧ swap.swapId = swapId ∧
      (frame = .swapRollback swap ∨ ∃ newTid, frame = .swapExit swap newTid) := by
  cases frame with
  | dispatch call =>
    have none := entry_releases_none kernel caller call
    cases none.symm.trans released
  | suspended resume =>
    cases resume <;> simp only [frameAction] at released <;> (try split at released) <;>
      cases released
  | recvMessages mask ptr len | memWire tid | spawnWire job tid | spawnRelocate job tid =>
    simp only [frameAction] at released
    split at released <;> cases released
  | swapRollback swap =>
    cases released
    exact ⟨swap, rfl, rfl, Or.inl rfl⟩
  | swapExit swap newTid =>
    cases released
    exact ⟨swap, rfl, rfl, Or.inr ⟨newTid, rfl⟩⟩
  | _ => cases released

theorem background_releases_none {action : Action} (background : Background kernel action) :
    releasing action = none := by
  cases background with
  | housekeeping _ keeps =>
    cases keeps with
    | kill _ cause scheduled =>
      cases cause with
      | replaced => cases scheduled
      | _ => rfl
    | _ => rfl
  | _ => rfl

theorem released_by_swap {system : System} {event : Event} {action : Action}
    (mem : action ∈ (actionsOf system event).2)
    (released : releasing action = some (id, swapId)) : ReleasedBySwap system event id swapId := by
  rcases action_source mem with ⟨hart, rfl, rfl⟩ | background
  · obtain ⟨swap, old, same, frames⟩ := frame_releases released
    exact ⟨hart, swap, rfl, old, same, frames⟩
  · rw [background_releases_none background] at released
    cases released

theorem frozen_parked_reached {system : System}
    (reached : Reaches step (StepMeets FreezeSafe) initial system) : FrozenParked system.kernel :=
  reached.invariant (fun _ _ _ => frozen_parked_step) frozen_parked_initial

/-- In a run of steps that leave frozen tasks alone, a frozen task waits in no
queue, runs on no hart, and stays frozen until its own hot-swap releases it. -/
theorem frozen_until_released {system after : System} {event : Event} {id : TaskId}
    {swapId : Nat} (reached : Reaches step (StepMeets FreezeSafe) initial system)
    (safe : StepMeets FreezeSafe system event) (stepped : step system event = some after)
    (frozen : frozenBy system.kernel id = some swapId) :
    (id ∉ queued system.kernel ∧ ∀ hart, system.kernel.current hart ≠ id) ∧
      (frozenBy after.kernel id = some swapId ∨ ReleasedBySwap system event id swapId) := by
  have holds := frozen_parked_reached reached
  constructor
  · exact holds.parked id swapId frozen
  · rcases frozen_kept_acts holds (actions_own system event) safe frozen with
      kept | ⟨action, member, released⟩
    · left
      unfold frozenBy at kept ⊢
      rwa [(step_acts stepped).tasks]
    · exact Or.inr (released_by_swap member released)

/-- A server takes a client's message, the client goes on to wait for the answer,
and a hot-swap of the client's cell freezes it. -/
def freezeClient : List Event :=
  [.idle 0] ++ callFor 0 .spawn 1 ++ callFor 0 .spawn 1 ++ [.idle 1] ++
    callFor 1 (.send 3 [7]) 2 ++ callFor 1 (.recv 0 ⟨16, [0, 0]⟩) 3 ++ [.timer 1, .proceed 1] ++
    callFor 1 (.recv 0 ⟨16, [0, 0]⟩) 4 ++ callFor 0 (.stateStash (stashKeyFor 1) [1]) 1 ++
    callFor 0 (.hotSwap 0 "/bin/client" none) 8

def clientFrozen : System :=
  finalState step initial freezeClient

theorem client_stays_frozen : frozenBy clientFrozen.kernel 2 = some 1 ∧
      (2 ∉ queued clientFrozen.kernel ∧ ∀ hart, clientFrozen.kernel.current hart ≠ 2) ∧
      (frozenBy (finalState step clientFrozen [.timer 1]).kernel 2 = some 1 ∨
        ReleasedBySwap clientFrozen (.timer 1) 2 1) := by
  have frozen : frozenBy clientFrozen.kernel 2 = some 1 := by decide +kernel
  have reached : Reaches step (StepMeets FreezeSafe) initial clientFrozen :=
    reaches_final (by decide +kernel) (by decide +kernel)
  have stepped : step clientFrozen (.timer 1) = some (finalState step clientFrozen [.timer 1]) :=
    step_final (by decide +kernel)
  exact ⟨frozen, frozen_until_released reached (by decide +kernel) stepped frozen⟩

theorem reply_readies_frozen_task :
    (runEvents step initial (freezeClient ++ [.syscall 1 (.reply 0)])).map
        (fun system => (frozenBy system.kernel 2, system.kernel.current 1, system.frames 3)) =
      some (some 1, 3, .dispatch (.reply 0)) ∧
    (runEvents step initial (freezeClient ++ callFor 1 (.reply 0) 1)).map
        (fun system => (stateOf system.kernel.tasks 2, queued system.kernel)) =
      some (some .ready, [2]) := by
  decide +kernel

end ViCell.Invariant.FrozenTask

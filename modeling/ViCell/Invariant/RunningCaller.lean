import ViCell.Core.FrameSteps

/-!
# A hart runs a task in state `Running`

Blocking is split: a helper such as `ipc_send` or `ipc_recv` writes the blocked
state, and the handler that called it must then yield.  `CpuHeld` is the
discipline this is meant to keep: while a task is on a hart and not about to
yield, its state is `Running`.  `CallSafe` collects what the handlers and helpers
rely on for it and do not check.
-/

namespace ViCell.Invariant.RunningCaller

open Lib Core.Tcb Core.Ready Core.State Core.Scheduler Core.Ipc Core.Handler Core.HotSwap
open Function Option
open Core.Machine Core.Effects Core.Transitions Core.FrameSteps

/-- The action takes no task off a hart that is executing it, and puts none on a
second one. -/
def CpuSafe (kernel : Kernel) (hart : HartId) : Action → Prop
  | .reply caller _ =>
    ∀ target ∈ (kernel.tasks.get caller).bind Task.currentCaller,
      ∃ state ∈ stateOf kernel.tasks target, state ≠ .running
  | .exit tid _ _ _ =>
    ∀ waiter ∈ waitersOf kernel tid, stateOf kernel.tasks waiter ≠ some .running
  | .freeze tid _ => stateOf kernel.tasks tid ≠ some .running
  | .dispatch =>
    ∀ taken ∈ pickOrSteal kernel.ready hart, kernel.current (1 - hart) ≠ taken.1
  | _ => True

instance (kernel : Kernel) (hart : HartId) : ∀ action, Decidable (CpuSafe kernel hart action)
  | .reply caller _ =>
    inferInstanceAs (Decidable
      (∀ target ∈ (kernel.tasks.get caller).bind Task.currentCaller,
        ∃ state ∈ stateOf kernel.tasks target, state ≠ .running))
  | .exit tid _ _ _ =>
    inferInstanceAs (Decidable
      (∀ waiter ∈ waitersOf kernel tid, stateOf kernel.tasks waiter ≠ some .running))
  | .freeze tid _ => inferInstanceAs (Decidable (stateOf kernel.tasks tid ≠ some .running))
  | .dispatch =>
    inferInstanceAs (Decidable
      (∀ taken ∈ pickOrSteal kernel.ready hart, kernel.current (1 - hart) ≠ taken.1))
  | .quiet | .edit _ _ | .acceptPending _ _ | .arm _ _ | .spawn _ | .send _ _ _
    | .recv _ _ _ | .tryRecv _ _ | .tick | .reap | .wakeDue | .requeue _
    | .futexWait _ _ _ _ | .futexWake _ _ | .wait _ _ | .sleep _ _ | .awaitEvent _ _ _
    | .rollback _ _ | .register _ _ | .clearRegistry _ | .subscribe _ _ => instDecidableTrue

/-- `settled` are the harts that are not in the middle of picking a task, `awake`
the tasks that are not about to yield. -/
structure CpuHeld (settled : HartId → Prop) (awake : TaskId → Prop) (kernel : Kernel) :
    Prop where
  zeroFree : ZeroFree kernel
  queuedBound : ∀ id ∈ queued kernel, id < kernel.tasks.next
  currentBound : ∀ hart, kernel.current hart < kernel.tasks.next
  distinct : ∀ hart, kernel.current hart = kernel.current (1 - hart) → kernel.current hart = 0
  running : ∀ hart, settled hart → awake (kernel.current hart) →
    ∀ task, kernel.tasks.get (kernel.current hart) = some task → task.state = .running

section OneAction

variable {kernel : Kernel} {hart : HartId} {id : TaskId} {task : Task} {action : Action}
  {settled : HartId → Prop} {awake : TaskId → Prop}

theorem state_of_running (found : kernel.tasks.get id = some task)
    (running : task.state = .running) : stateOf kernel.tasks id = some .running := by
  rw [state_of_get found, running]

theorem wakes_running (found : kernel.tasks.get id = some task)
    (running : task.state = .running) (safe : CpuSafe kernel hart action)
    (wakes : Wakes kernel id task action) : action = .requeue id := by
  have held := state_of_running found running
  cases action with
  | send caller target msg | rollback tid swapId =>
    have receiving := wakes.2
    rw [running] at receiving
    cases receiving
  | recv caller mask buf | tryRecv caller buf =>
    have sending : task.state.sendTarget = some caller := wakes
    rw [running] at sending
    cases sending
  | reply =>
    obtain ⟨state, has, notRunning⟩ := safe id wakes
    rw [held] at has
    exact absurd (some.inj has).symm notRunning
  | exit =>
    rcases wakes.2 with sending | waiting | ⟨-, receiving⟩
    · rw [running] at sending
      cases sending
    · exact absurd held (safe id waiting)
    · rw [running] at receiving
      cases receiving
  | wakeDue =>
    have timed : isTimed task.state = true := wakes
    rw [running] at timed
    cases timed
  | requeue tid =>
    have here : id = tid := wakes
    rw [here]
  | futexWake addr =>
    have waits : task.state = .futexWait addr := wakes
    rw [running] at waits
    cases waits
  | _ => exact wakes.elim

theorem current_kept (picks : action ≠ .dispatch) (other : HartId) :
    (act kernel hart action).current other = kernel.current other ∨
      (act kernel hart action).current other = 0 := by
  rcases act_current action other with kept | ⟨-, -, stopped | ⟨dispatches, -⟩⟩
  · exact Or.inl kept
  · exact Or.inr stopped
  · exact absurd dispatches picks

section

variable (holds : CpuHeld settled awake kernel)
include holds

theorem queued_bound_act (own : Own kernel hart action) (safe : CpuSafe kernel hart action) :
    ∀ id ∈ queued (act kernel hart action), id < (act kernel hart action).tasks.next := by
  intro id mem
  have grows : kernel.tasks.next ≤ (act kernel hart action).tasks.next := act_next action
  rcases act_queue action mem with ⟨older, -⟩ | pushes
  · exact (holds.queuedBound id older).trans_le grows
  · have live : ∀ {task}, kernel.tasks.get id = some task →
        id < (act kernel hart action).tasks.next :=
      fun found => (IdTable.lt_next_of_get found).trans_le grows
    cases action with
    | spawn =>
      have fresh : id = kernel.tasks.next := pushes
      rw [fresh]
      exact Nat.lt_succ_self _
    | reply =>
      obtain ⟨_, has, -⟩ := safe id pushes
      obtain ⟨task, found, -⟩ := map_eq_some_iff.mp has
      exact live found
    | requeue tid =>
      obtain ⟨-, task, found, -⟩ := own
      have here : id = tid := pushes
      subst here
      exact live found
    | _ =>
      obtain ⟨task, found, -⟩ := pushes
      exact live found

theorem current_unique {first second : HartId} (same : kernel.current first = kernel.current second)
    (found : kernel.tasks.get (kernel.current first) = some task) : first = second := by
  rcases hart_eq_or_other second first with here | elsewhere
  · exact here
  · subst elsewhere
    have idle : kernel.current second = 0 := holds.distinct second same.symm
    rw [same, idle, holds.zeroFree.1] at found
    cases found

theorem running_act (own : Own kernel hart action)
    (safe : CpuSafe kernel hart action) (requeues : ∀ tid, action = .requeue tid → ¬ settled hart)
    (parks : ∀ was state, kernel.tasks.get id = some was →
      Parks kernel id was state action → awake id → was.state ≠ .running)
    (picks : action ≠ .dispatch) {other : HartId} (settles : settled other)
    (current : kernel.current other = id) (wakeful : awake id)
    (after : (act kernel hart action).tasks.get id = some task) : task.state = .running := by
  cases found : kernel.tasks.get id with
  | none =>
    rcases act_absent found action with lost | ⟨cellId, -, fresh, -⟩
    · rw [lost] at after
      cases after
    · have bound := holds.currentBound other
      rw [current, fresh] at bound
      exact absurd bound (lt_irrefl _)
  | some was =>
    subst current
    have running := holds.running other settles wakeful was found
    have change : StateChange kernel (kernel.current other) was action
        (stateOf (act kernel hart action).tasks (kernel.current other)) := act_state found action
    rw [state_of_get after] at change
    generalize same : some task.state = out at change
    cases change with
    | same =>
      rw [← running]
      exact some.inj same
    | woken wakes =>
      have requeued := wakes_running found running safe wakes
      subst requeued
      obtain ⟨onHart, -⟩ := own
      have here := current_unique holds onHart found
      subst here
      exact absurd settles (requeues _ rfl)
    | parked state parked => exact absurd running (parks was state found parked wakeful)
    | dispatched dispatches => exact absurd dispatches picks
    | frozen _ freezes =>
      subst freezes
      exact absurd (state_of_running found running) safe
    | gone => cases same

theorem cpu_held_act (own : Own kernel hart action)
    (safe : CpuSafe kernel hart action) (requeues : ∀ tid, action = .requeue tid → ¬ settled hart)
    (parks : ∀ id was state, kernel.tasks.get id = some was →
      Parks kernel id was state action → awake id → was.state ≠ .running)
    (picks : action ≠ .dispatch) : CpuHeld settled awake (act kernel hart action) where
  zeroFree := act_zero_free holds.zeroFree action
  queuedBound := queued_bound_act holds own safe
  currentBound := by
    intro other
    rcases current_kept picks other with kept | stopped
    · rw [kept]
      exact (holds.currentBound other).trans_le (act_next action)
    · rw [stopped]
      exact (act_zero_free holds.zeroFree action).2
  distinct := by
    intro other same
    rcases current_kept picks other with kept | stopped
    · rcases current_kept picks (1 - other) with keptToo | stopped
      · rw [kept, keptToo] at same
        rw [kept]
        exact holds.distinct other same
      · exact same.trans stopped
    · exact stopped
  running := by
    intro other settles wakeful task after
    rcases current_kept picks other with kept | stopped
    · rw [kept] at wakeful after
      exact running_act holds own safe requeues (parks _) picks settles rfl wakeful after
    · rw [stopped, (act_zero_free holds.zeroFree action).1] at after
      cases after

end

theorem dispatch_elsewhere (other : HartId) (elsewhere : other ≠ hart) :
    (act kernel hart .dispatch).current other = kernel.current other := by
  rcases act_current .dispatch other with kept | ⟨here, -⟩
  · exact kept
  · exact absurd here elsewhere

theorem dispatch_current (safe : CpuSafe kernel hart .dispatch) :
    ((act kernel hart .dispatch).current hart = 0 ∧
        (act kernel hart .dispatch).tasks = kernel.tasks) ∨
      ((act kernel hart .dispatch).current hart ≠ kernel.current (1 - hart) ∧
        (act kernel hart .dispatch).tasks =
          kernel.tasks.modify ((act kernel hart .dispatch).current hart)
            (fun task => { task with state := .running })) := by
  cases picked : pickOrSteal kernel.ready hart with
  | none =>
    simp [act, dispatchNext, picked]
  | some taken =>
    right
    have next : (act kernel hart .dispatch).current hart = taken.1 := by
      simp [act, dispatchNext, picked]
    rw [next]
    constructor
    · exact (safe taken picked).symm
    · simp [act, dispatchNext, picked]

theorem act_all_elsewhere (actions : List Action) (other : HartId) (elsewhere : other ≠ hart) :
    (actAll kernel hart actions).current other = kernel.current other := by
  induction actions generalizing kernel with
  | nil => rfl
  | cons action rest ih =>
    have later : (actAll (act kernel hart action) hart rest).current other =
        (act kernel hart action).current other := ih
    rcases act_current action other with kept | ⟨here, -⟩
    · exact later.trans kept
    · exact absurd here elsewhere

section

variable (holds : CpuHeld (fun other => other ≠ hart) awake kernel)
include holds

theorem cpu_held_dispatch {awakeAfter : TaskId → Prop} (safe : CpuSafe kernel hart .dispatch)
    (agrees : awakeAfter (kernel.current (1 - hart)) → awake (kernel.current (1 - hart))) :
    CpuHeld (fun _ => True) awakeAfter (act kernel hart .dispatch) where
  zeroFree := act_zero_free holds.zeroFree .dispatch
  queuedBound := queued_bound_act holds trivial safe
  currentBound := by
    intro other
    have grows : kernel.tasks.next ≤ (act kernel hart .dispatch).tasks.next := act_next .dispatch
    rcases act_current .dispatch other with kept | ⟨-, -, stopped | ⟨-, mem⟩⟩
    · rw [kept]
      exact (holds.currentBound other).trans_le grows
    · rw [stopped]
      exact (act_zero_free holds.zeroFree .dispatch).2
    · exact (holds.queuedBound _ mem).trans_le grows
  distinct := by
    have apart : (act kernel hart .dispatch).current hart =
        (act kernel hart .dispatch).current (1 - hart) →
          (act kernel hart .dispatch).current hart = 0 := by
      intro same
      rw [dispatch_elsewhere (1 - hart) (other_hart_ne hart)] at same
      rcases dispatch_current safe with ⟨idle, -⟩ | ⟨differs, -⟩
      · exact idle
      · exact absurd same differs
    intro other same
    rcases hart_eq_or_other hart other with rfl | rfl
    · exact apart same
    · rw [other_hart_other] at same
      exact same.trans (apart same.symm)
  running := by
    intro other _ wakeful task after
    rcases hart_eq_or_other hart other with rfl | rfl
    · rcases dispatch_current safe with ⟨idle, -⟩ | ⟨-, tasks⟩
      · rw [idle, (act_zero_free holds.zeroFree .dispatch).1] at after
        cases after
      · rw [tasks, IdTable.get_modify, if_pos rfl] at after
        obtain ⟨_, -, rfl⟩ := map_eq_some_iff.mp after
        rfl
    · rw [dispatch_elsewhere (1 - hart) (other_hart_ne hart)] at wakeful after
      apply holds.running (1 - hart) (other_hart_ne hart) (agrees wakeful)
      rcases dispatch_current safe with ⟨-, tasks⟩ | ⟨differs, tasks⟩
      · rwa [tasks] at after
      · rwa [tasks, IdTable.get_modify, if_neg differs.symm] at after

theorem cpu_held_housekeeping (keeping : Housekeeping action) (own : Own kernel hart action)
    (safe : CpuSafe kernel hart action) :
    CpuHeld (fun other => other ≠ hart) awake (act kernel hart action) := by
  apply cpu_held_act holds own safe
  · intro tid _ settles
    exact settles rfl
  · intro id was state found parks
    cases keeping <;> exact parks.elim
  · intro dispatches
    subst dispatches
    cases keeping

theorem cpu_held_yield {awakeAfter : TaskId → Prop}
    (safe : ActsMeet CpuSafe kernel hart (yieldActions kernel hart))
    (agrees : awakeAfter (kernel.current (1 - hart)) → awake (kernel.current (1 - hart))) :
    CpuHeld (fun _ => True) awakeAfter (actAll kernel hart (yieldActions kernel hart)) := by
  have own := yield_own kernel hart
  unfold yieldActions at own safe ⊢
  rw [acts_meet_append] at own safe
  have keeping : ActsMeet (fun _ _ action => Housekeeping action) kernel hart
      (.reap :: prepareActions (act kernel hart .reap) hart) := by
    apply acts_meet_always
    intro action mem _
    rcases List.mem_cons.mp mem with rfl | prepared
    · exact .reap
    · exact prepare_housekeeping prepared
  have prepared := act_all_invariant
    (fun _ _ was met => cpu_held_housekeeping was met.1 met.2.1 met.2.2) _ holds
    (acts_meet_and _ keeping (acts_meet_and _ own.1 safe.1))
  rw [act_all_append]
  apply cpu_held_dispatch prepared safe.2.1
  rw [act_all_elsewhere _ (1 - hart) (other_hart_ne hart)]
  exact agrees

end

end OneAction

def awake : Frame → Bool
  | .yielding _ => false
  | .armTimeout _ => false
  | _ => true

def Discipline (system : System) : Prop :=
  CpuHeld (fun _ => True) (fun id => awake (system.frames id)) system.kernel

/-- Sections that call `ipc_send` or `ipc_recv` and do not yield afterwards. -/
def HandsBack (kernel : Kernel) (caller : TaskId) : Frame → Prop
  | .dispatch (.sendGather target segments) =>
    segments.length = 0 ∨ maxIovec < segments.length ∨ maxUserBuf < segments.flatten.length ∨
      ¬ SendBlocks kernel target
  | .dispatch (.recvScatter _ segments) =>
    segments.length = 0 ∨ maxIovec < segments.length ∨ maxUserBuf < segments.flatten.length ∨
      findSender kernel.tasks caller ≠ none
  | .swapSnapshot swap => ¬ SendBlocks kernel swap.oldTid
  | .swapRestore _ newTid => ¬ SendBlocks kernel newTid
  | .swapDeliver _ newTid head _ =>
    SendBlocks kernel newTid → stateOf kernel.tasks head.senderTid ≠ some .running
  | _ => True

instance (kernel : Kernel) (caller : TaskId) (frame : Frame) :
    Decidable (HandsBack kernel caller frame) := by
  unfold HandsBack
  split <;> infer_instance

variable {kernel : Kernel}

theorem send_call_yields {target : TaskId} (blocks : SendBlocks kernel target) (hart : HartId)
    (caller : TaskId) (bytes : List Byte) :
    awake (sendCall kernel hart caller target bytes).2 = false := by
  have opened : SendBlocks (openSend kernel caller target bytes) target := blocks
  simp only [sendCall, ipc_send_of_blocks opened]
  rfl

variable {caller : TaskId}

theorem recv_timeout_yields (empty : findSender kernel.tasks caller = none) (hart : HartId)
    (mask : Nat) (buf : UserBuffer) (deadline : Nat) :
    awake (recvTimeoutCall kernel hart caller mask buf deadline).2 = false := by
  have opened : findSender (openRecv kernel caller buf.bytes).tasks caller = none := empty
  simp only [recvTimeoutCall, ipcRecv, opened]
  rfl

variable {hart : HartId}

theorem entry_parks_then_yields {id : TaskId} {call : Syscall} {task : Task} {state : TaskState}
    (hands : HandsBack kernel caller (.dispatch call)) (found : kernel.tasks.get id = some task)
    (parks : Parks kernel id task state (entryAction kernel caller call)) :
    id = caller ∧ awake (enterSyscall kernel hart caller call).2 = false := by
  cases call with
  | send _ bytes => exact ⟨parks.1, send_call_yields parks.2.1 hart caller bytes⟩
  | recv mask buf | registerService serviceId tid | spawnFromMem valid =>
    simp only [entryAction] at parks
    split at parks <;> exact parks.elim
  | sendGather target segments | recvScatter mask segments =>
    simp only [entryAction] at parks
    split at parks
    · exact parks.elim
    · rename_i accepted
      rcases hands with empty | many | long | free
      · exact absurd (Or.inl empty) accepted
      · exact absurd (Or.inr (Or.inl many)) accepted
      · exact absurd (Or.inr (Or.inr long)) accepted
      · exact absurd parks.2.1 free
  | recvTimeout mask buf deadline =>
    exact ⟨parks.1, recv_timeout_yields parks.2.1 hart mask buf deadline⟩
  | wait =>
    obtain ⟨here, ⟨target, has, alive⟩, -⟩ := parks
    refine ⟨here, ?_⟩
    simp only [enterSyscall, waitCall, has, if_neg alive]
    rfl
  | futexWait =>
    obtain ⟨rfl, same, -⟩ := parks
    simp [enterSyscall, futexWait, same, found, awake]
  | setTimer => exact ⟨parks.1, rfl⟩
  | waitForEvent =>
    simp only [entryAction] at parks
    split at parks
    · exact parks.elim
    · rename_i quiet
      refine ⟨parks.1, ?_⟩
      simp only [enterSyscall, waitForEventCall, if_neg quiet]
      rfl
  | forceExit tid | capRevoke target mask | notifyOnExit watched =>
    simp only [entryAction] at parks
    split at parks
    · exact parks.elim
    · split at parks <;> exact parks.elim
  | _ => exact parks.elim

theorem parks_then_yields (hart : HartId) {id : TaskId} {frame : Frame} {task : Task}
    {state : TaskState} (hands : HandsBack kernel caller frame)
    (found : kernel.tasks.get id = some task) (running : task.state = .running)
    (parks : Parks kernel id task state (frameAction kernel caller frame)) :
    id = caller ∧ awake (advance kernel hart caller frame).2 = false := by
  cases frame with
  | dispatch => exact entry_parks_then_yields hands found parks
  | suspended resume =>
    cases resume <;> simp only [frameAction] at parks <;> (try split at parks) <;>
      exact parks.elim
  | recvMessages mask ptr len | memWire tid | spawnWire job tid | spawnRelocate job tid =>
    simp only [frameAction] at parks
    split at parks <;> exact parks.elim
  | recvBlock mask ptr len =>
    refine ⟨parks.1, ?_⟩
    change awake (recvBlock kernel hart caller mask ptr len).2 = false
    simp only [recvBlock, ipcRecv, parks.2.1]
    rfl
  | armTimeout =>
    obtain ⟨-, mask, _, _, receiving, -⟩ := parks
    rw [running] at receiving
    cases receiving
  | swapSnapshot swap | swapRestore swap newTid => exact absurd parks.2.1 hands
  | swapDeliver =>
    obtain ⟨rfl, blocks, -⟩ := parks
    exact absurd (state_of_running found running) (hands blocks)
  | _ => exact parks.elim

variable {wakeful : TaskId → Prop}

theorem cpu_held_core {settled : HartId → Prop} {left right : Kernel} (same : SameCore left right)
    (holds : CpuHeld settled wakeful left) : CpuHeld settled wakeful right := by
  obtain ⟨zeroFree, queuedBound, currentBound, ne, running⟩ := holds
  unfold ZeroFree at zeroFree
  unfold queued at queuedBound
  rw [← same.tasks] at zeroFree queuedBound currentBound running
  rw [← same.ready] at queuedBound
  rw [← same.current] at currentBound ne running
  exact ⟨zeroFree, queuedBound, currentBound, ne, running⟩

theorem cpu_held_weaken {settled fewer : HartId → Prop} {fewerAwake : TaskId → Prop}
    (holds : CpuHeld settled wakeful kernel) (settles : ∀ hart, fewer hart → settled hart)
    (wakes : ∀ hart, fewer hart → fewerAwake (kernel.current hart) →
      wakeful (kernel.current hart)) : CpuHeld fewer fewerAwake kernel where
  zeroFree := holds.zeroFree
  queuedBound := holds.queuedBound
  currentBound := holds.currentBound
  distinct := holds.distinct
  running := fun hart few awakeNow =>
    holds.running hart (settles hart few) (wakes hart few awakeNow)

theorem awake_before {frame : Frame} (notYield : ∀ resume, frame ≠ .yielding resume)
    (after : awake (advance kernel hart caller frame).2 = true) : awake frame = true := by
  cases frame with
  | yielding resume => exact absurd rfl (notYield resume)
  | armTimeout => cases after
  | _ => rfl

/-- What a step must find so that no task loses its hart without yielding: no
helper that blocks is called by a section that does not yield, and every action
is safe. -/
def CallSafe (system : System) (event : Event) : Prop :=
  (∀ hart, event = .proceed hart → HandsBack system.kernel (system.kernel.current hart)
      (system.frames (system.kernel.current hart))) ∧
    StepMeets CpuSafe system event

instance (system : System) (event : Event) : Decidable (CallSafe system event) :=
  inferInstanceAs (Decidable (_ ∧ _))

variable {was : System}

theorem discipline_section (holds : Discipline was) (safe : CallSafe was (.proceed hart))
    (live : ∃ task, was.kernel.tasks.get (was.kernel.current hart) = some task) :
    CpuHeld (fun _ => True) (fun id => awake (update was.frames (was.kernel.current hart)
        (advance was.kernel hart (was.kernel.current hart)
          (was.frames (was.kernel.current hart))).2 id))
      (actAll was.kernel hart (frameActions was.kernel hart (was.kernel.current hart)
        (was.frames (was.kernel.current hart)))) := by
  obtain ⟨task, found⟩ := live
  have hands := safe.1 hart rfl
  have acts : ActsMeet CpuSafe was.kernel hart (frameActions was.kernel hart
    (was.kernel.current hart) (was.frames (was.kernel.current hart))) := safe.2
  generalize framed : was.frames (was.kernel.current hart) = frame at hands acts ⊢
  by_cases yields : ∃ resume, frame = .yielding resume
  · obtain ⟨resume, rfl⟩ := yields
    have waiting : CpuHeld (fun other => other ≠ hart) (fun id => awake (was.frames id))
        was.kernel := cpu_held_weaken holds (fun _ _ => trivial) (fun _ _ wakeful => wakeful)
    apply cpu_held_yield waiting acts
    have apart : was.kernel.current (1 - hart) ≠ was.kernel.current hart := by
      intro same
      have both := current_unique holds same.symm found
      exact other_hart_ne hart both.symm
    rw [update_of_ne apart]
    exact fun wakeful => wakeful
  · have notYield : ∀ resume, frame ≠ .yielding resume := fun resume same => yields ⟨resume, same⟩
    rw [frame_actions_single _ _ _ notYield] at acts ⊢
    have settled : CpuHeld (fun _ => True)
        (fun id => awake (update was.frames (was.kernel.current hart)
          (advance was.kernel hart (was.kernel.current hart) frame).2 id))
        was.kernel := by
      apply cpu_held_weaken holds (fun _ few => few)
      intro other _ wakeful
      by_cases same : was.kernel.current other = was.kernel.current hart
      · rw [same, update_self] at wakeful
        rw [same, framed]
        exact awake_before notYield wakeful
      · rwa [update_of_ne same] at wakeful
    obtain ⟨own, plain⟩ := frame_spec was.kernel hart frame
    apply cpu_held_act settled own acts.1
    · intro tid requeues
      rw [requeues] at plain
      exact absurd trivial plain
    · intro id other state has parks wakeful running
      obtain ⟨rfl, sleeps⟩ := parks_then_yields hart hands has running parks
      rw [update_self, sleeps] at wakeful
      cases wakeful
    · intro dispatches
      rw [dispatches] at plain
      exact plain trivial

theorem discipline_yield (holds : CpuHeld (fun _ => True) wakeful kernel)
    (safe : ActsMeet CpuSafe kernel hart (yieldActions kernel hart)) :
    CpuHeld (fun _ => True) wakeful (actAll kernel hart (yieldActions kernel hart)) :=
  cpu_held_yield
    (cpu_held_weaken holds (fun _ _ => trivial) (fun _ _ still => still)) safe (fun still => still)

theorem discipline_plain (hart : HartId) (action : Action)
    (holds : CpuHeld (fun _ => True) wakeful kernel) (own : Own kernel hart action)
    (safe : CpuSafe kernel hart action) (plain : ¬ Scheduling action ∨ action = .tick)
    (parks : ∀ id was state, kernel.tasks.get id = some was → ¬ Parks kernel id was state action) :
    CpuHeld (fun _ => True) wakeful (act kernel hart action) := by
  apply cpu_held_act holds own safe
  · intro tid requeues
    subst requeues
    rcases plain with plain | same
    · exact absurd trivial plain
    · cases same
  · intro id was state found parked
    exact absurd parked (parks id was state found)
  · intro dispatches
    subst dispatches
    rcases plain with plain | same
    · exact absurd trivial plain
    · cases same

theorem discipline_step {after : System} {event : Event} (holds : Discipline was)
    (safe : CallSafe was event) (ran : step was event = some after) :
    Discipline after := by
  apply cpu_held_core (step_acts ran)
  cases step_shape ran with
  | enters hart tid call _ userFrame =>
    have entered : CpuHeld (fun _ => True) (fun id =>
        awake (update was.frames tid (.dispatch call) id)) was.kernel := by
      apply cpu_held_weaken holds (fun _ few => few)
      intro other _ wakeful
      by_cases same : was.kernel.current other = tid
      · rw [same, userFrame]
        rfl
      · rwa [update_of_ne same] at wakeful
    exact discipline_plain hart (.edit (was.kernel.current hart) .resetWatchdog) entered
      trivial trivial (Or.inl not_false) (fun _ _ _ _ => not_false)
  | proceeds _ _ runs =>
    obtain ⟨rfl, -, live⟩ := executing_live runs
    exact discipline_section holds safe live
  | ticks hart =>
    have ticked : CpuHeld (fun _ => True) (fun id => awake (was.frames id))
        (act was.kernel hart .tick) :=
      discipline_plain hart .tick holds trivial trivial (Or.inr rfl) (fun _ _ _ _ => not_false)
    exact discipline_yield ticked safe.2.2
  | idles => exact discipline_yield holds safe.2
  | faults hart =>
    have plain : ¬ Scheduling
        (.exit (was.kernel.current hart) usizeMax none .faulted) := by
      simp [Scheduling, ExitCause.byScheduler]
    exact discipline_plain hart
      (.exit (was.kernel.current hart) usizeMax none .faulted) holds trivial safe.2.1
      (Or.inl plain) (fun _ _ _ _ => not_false)
  | reports hart target bytes =>
    apply discipline_plain hart
      (.send 0 target ⟨was.kernel.nextTicket, .kernel, bytes⟩) holds trivial trivial
      (Or.inl not_false)
    rintro id task state found ⟨rfl, -⟩
    rw [holds.zeroFree.1] at found
    cases found
  | signals | comesOnline => exact holds

theorem discipline_initial : Discipline initial where
  zeroFree := ⟨rfl, by decide⟩
  queuedBound := by decide
  currentBound := by decide
  distinct := by decide
  running := by
    intro hart _ _ task found
    have idle : initial.kernel.current hart = 0 := rfl
    cases found

theorem discipline_reached {system : System} (reached : Reaches step CallSafe initial system) :
    Discipline system :=
  reached.invariant (fun _ _ _ => discipline_step) discipline_initial

theorem returned_current {after : System} {tid : TaskId}
    (ran : step was (.proceed hart) = some after) (runs : executing was hart = some tid)
    (returned : after.frames tid = .user) : after.kernel.current hart = tid := by
  obtain ⟨rfl, -, -⟩ := executing_live runs
  have core := (step_acts ran).current
  have notYield : ∀ resume, was.frames (was.kernel.current hart) ≠ .yielding resume := by
    intro resume yields
    simp only [step, runs, yields] at ran
    cases ran
    simp [enter, advance] at returned
  have kept : (act was.kernel hart (frameAction was.kernel (was.kernel.current hart)
      (was.frames (was.kernel.current hart)))).current hart = was.kernel.current hart := by
    rcases act_current (frameAction was.kernel (was.kernel.current hart)
        (was.frames (was.kernel.current hart))) hart with kept | ⟨-, switches, -⟩
    · exact kept
    · exact absurd switches (frame_spec _ _ _).2
  simp only [actionsOf, frame_actions_single _ _ _ notYield] at core
  rw [core]
  exact kept

/-- In a run of safe steps, a handler that returns to a live caller leaves it
`Running`. -/
theorem handler_returns_running {system after : System} {hart : HartId} {tid : TaskId}
    {task : Task} (reached : Reaches step CallSafe initial system)
    (safe : CallSafe system (.proceed hart))
    (stepped : step system (.proceed hart) = some after)
    (runs : executing system hart = some tid) (returned : after.frames tid = .user)
    (alive : after.kernel.tasks.get tid = some task) : task.state = .running := by
  have holds := discipline_step (discipline_reached reached) safe stepped
  have current := returned_current stepped runs returned
  subst current
  apply holds.running hart trivial _ task alive
  rw [returned]
  rfl

/-- A second task waits for a message on the other hart while `init` is about to
send it one. -/
def gatherToReceiver : List Event :=
  [.idle 0] ++ callFor 0 .spawn 1 ++ [.idle 1] ++ callFor 1 (.recv 0 ⟨16, [0, 0]⟩) 4 ++
    [.syscall 0 (.sendGather 2 [[7]])]

def gathering : System :=
  finalState step initial gatherToReceiver

theorem gathered_send_returns_running : (finalState step gathering [.proceed 0]).frames 1 = .user ∧
      stateOf (finalState step gathering [.proceed 0]).kernel.tasks 1 = some .running := by
  have reached : Reaches step CallSafe initial gathering :=
    reaches_final (by decide +kernel) (by decide +kernel)
  have stepped : step gathering (.proceed 0) = some (finalState step gathering [.proceed 0]) :=
    step_final (by decide +kernel)
  have returned : (finalState step gathering [.proceed 0]).frames 1 = .user := by decide +kernel
  have live : ((finalState step gathering [.proceed 0]).kernel.tasks.get 1).isSome := by
    decide +kernel
  obtain ⟨_, alive⟩ := isSome_iff_exists.mp live
  refine ⟨returned, ?_⟩
  rw [state_of_get alive, handler_returns_running reached (by decide +kernel) stepped
    (by decide +kernel) returned alive]

/-- The gathered copy is recorded in the state of a task that is back in its cell. -/
theorem gathered_send_returns_sending :
    (runEvents step initial
        ([.idle 0] ++ callFor 0 .spawn 1 ++ callFor 0 (.sendGather 2 [[7]]) 1)).map
        (fun system => (executing system 0, system.frames 1, stateOf system.kernel.tasks 1)) =
      some (some 1, .user, some (.sending 2 ⟨0, .kernel, [7]⟩)) := by
  decide +kernel

end ViCell.Invariant.RunningCaller

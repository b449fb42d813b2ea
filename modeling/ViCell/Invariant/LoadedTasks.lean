import ViCell.Invariant.SpawnGrants

/-!
# Tasks that are still being installed

`spawn` queues a new task as Ready.  The loader wires its context, relocates it and sets
its allowlist and capabilities afterwards, each in a lock section of its own.
-/

namespace ViCell.Invariant.LoadedTasks

open Lib Core.Tcb Core.Cap Core.Ready Core.State Core.Scheduler Core.Handler Core.Machine Core.Effects
open Core.Transitions Core.FrameSteps SpawnGrants

/-- The task was created, and no loader is between its creation and its grant. -/
def Installed (frames : TaskId → Frame) (next id : TaskId) : Prop :=
  id < next ∧ ∀ loader < next, ungranted (frames loader) ≠ some id

/-- A hart picks a task only while every queued one is installed. -/
def PicksInstalled (frames : TaskId → Frame) (kernel : Kernel) (_ : HartId) : Action → Prop
  | .dispatch => ∀ id ∈ queued kernel, Installed frames kernel.tasks.next id
  | _ => True

instance (frames : TaskId → Frame) (kernel : Kernel) (hart : HartId) (action : Action) :
    Decidable (PicksInstalled frames kernel hart action) := by
  unfold PicksInstalled Installed
  split <;> infer_instance

structure Sound (frames : TaskId → Frame) (kernel : Kernel) : Prop where
  idle : Installed frames kernel.tasks.next 0
  current : ∀ hart, Installed frames kernel.tasks.next (kernel.current hart)
  unborn : ∀ id, kernel.tasks.next ≤ id → frames id = .user

theorem Installed.grow {frames : TaskId → Frame} {next later id : TaskId}
    (installed : Installed frames next id) (grows : next ≤ later)
    (unborn : ∀ id, next ≤ id → frames id = .user) : Installed frames later id := by
  refine ⟨installed.1.trans_le grows, ?_⟩
  intro loader _ creates
  by_cases born : loader < next
  · exact installed.2 loader born creates
  · rw [unborn loader (Nat.le_of_not_lt born)] at creates
    cases creates

theorem sound_act {frames : TaskId → Frame} {kernel : Kernel} {hart : HartId} {action : Action}
    (sound : Sound frames kernel) (met : PicksInstalled frames kernel hart action) :
    Sound frames (act kernel hart action) where
  idle := sound.idle.grow (act_next action) sound.unborn
  current other := by
    rcases act_current action other with same | ⟨-, -, idles | ⟨rfl, picked⟩⟩
    · rw [same]
      exact (sound.current other).grow (act_next action) sound.unborn
    · rw [idles]
      exact sound.idle.grow (act_next action) sound.unborn
    · exact (met _ picked).grow (act_next .dispatch) sound.unborn
  unborn id bound := sound.unborn id ((act_next action).trans bound)

variable {was after : System} {event : Event}

theorem step_ungranted (ran : step was event = some after) {loader id : TaskId}
    (creates : ungranted (after.frames loader) = some id) :
    ungranted (was.frames loader) = some id ∨
      (id = was.kernel.tasks.next ∧ after.kernel.current = was.kernel.current) := by
  rcases frame_step ran loader with
    same | ⟨hart, call, -, -, enters⟩ | ⟨hart, -, -, inside, rfl⟩
  · exact Or.inl (same ▸ creates)
  · rw [enters] at creates
    cases creates
  · simp only [enter, Function.update_self] at creates
    rcases follows_ungranted (advance_follows was.kernel hart loader inside) creates with
      older | ⟨job, frame, fresh⟩
    · exact Or.inl older
    · refine Or.inr ⟨fresh, ?_⟩
      rw [frame]
      rfl

theorem sound_step (sound : Sound was.frames was.kernel)
    (met : StepMeets (PicksInstalled was.frames) was event)
    (ran : step was event = some after) : Sound after.frames after.kernel := by
  have core := step_acts ran
  have acted : Sound was.frames after.kernel := by
    obtain ⟨idle, current, unborn⟩ := act_all_invariant (fun _ _ => sound_act) _ sound met
    rw [← core.tasks] at idle current unborn
    rw [← core.current] at current
    exact ⟨idle, current, unborn⟩
  have later : ∀ {id}, Installed was.frames after.kernel.tasks.next id →
      (after.kernel.current = was.kernel.current → id ≠ was.kernel.tasks.next) →
      Installed after.frames after.kernel.tasks.next id := by
    intro id installed older
    refine ⟨installed.1, ?_⟩
    intro loader born creates
    rcases step_ungranted ran creates with already | ⟨fresh, kept⟩
    · exact installed.2 loader born already
    · exact older kept fresh
  constructor
  · exact later acted.idle (fun _ => sound.idle.1.ne)
  · intro hart
    apply later (acted.current hart)
    intro kept
    rw [kept]
    exact (sound.current hart).1.ne
  · intro id bound
    have unborn := acted.unborn id bound
    rcases frame_step ran id with same | ⟨hart, -, -, runs, -⟩ | ⟨hart, -, runs, -, -⟩
    · rw [same, unborn]
    all_goals
      obtain ⟨-, -, _, live⟩ := executing_live runs
      have born := (IdTable.lt_next_of_get live).trans_le (step_next ran)
      exact absurd bound (Nat.not_le_of_lt born)

/-- While every pick finds only installed tasks queued, no hart runs a task before its
context, relocations, allowlist and capabilities are in place. -/
theorem installed_before_dispatch {system : System}
    (reached : Reaches step (fun system => StepMeets (PicksInstalled system.frames) system)
      initial system) (hart : HartId) (loader : TaskId) :
    ungranted (system.frames loader) ≠ some (system.kernel.current hart) := by
  have sound : Sound system.frames system.kernel := by
    refine reached.invariant (fun _ _ _ sound met stepped => sound_step sound met stepped) ?_
    have booted : Installed initial.frames initial.kernel.tasks.next 0 := ⟨by decide, nofun⟩
    exact ⟨booted, fun _ => booted, fun _ _ => rfl⟩
  intro creates
  by_cases born : loader < system.kernel.tasks.next
  · exact (sound.current hart).2 loader born creates
  · rw [sound.unborn loader (Nat.le_of_not_lt born)] at creates
    cases creates

def openImage : Image := ⟨CapSet.empty, BitVec.allOnes 64, true⟩

def loads (sections : Nat) : List Event :=
  .idle 0 :: callFor 0 (.spawnFromPath "/bin/app" (some openImage)) sections

theorem loaded_task_dispatched : let system := finalState step initial (loads 7 ++ [.idle 1])
    system.kernel.current 1 = 2 ∧ ungranted (system.frames 1) ≠ some 2 :=
  ⟨by decide +kernel,
    installed_before_dispatch (reaches_final (by decide +kernel) (by decide +kernel)) 1 1⟩

/-- The second hart takes the task between its creation and the wiring of its context. -/
theorem unwired_task_dispatched : let system := finalState step initial (loads 2 ++ [.idle 1])
    ungranted (system.frames 1) = some 2 ∧ system.kernel.current 1 = 2 := by
  decide +kernel

end ViCell.Invariant.LoadedTasks

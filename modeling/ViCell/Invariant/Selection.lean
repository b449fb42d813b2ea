import ViCell.Core.FieldChanges

/-!
# Which task a hart runs next

The ready queues of `task/hart_local/ready.rs` are keyed by the priority that a
task has when it is pushed, and `SpawnPinned` sets the priority of a task that
`spawn_from_path` has queued already.  While every key agrees with the task's
record, `pick_next` takes the task of highest current priority that was queued
first.
-/

namespace ViCell.Invariant.Selection

open Lib Core.Tcb Core.Cap Core.Ready Core.State Core.Scheduler Core.Ipc Core.HotSwap Core.Machine
open List
open Core.Effects Core.Transitions Core.FieldChanges

/-- The queues that a pick takes from: the hart's own, or what it steals. -/
def offered (ready : ReadyQueues) (hart : HartId) : ReadyQueues :=
  match pickLocal ready hart with
  | some _ => ready
  | none => stealFromBusiest ready hart

theorem pick_or_steal_eq (ready : ReadyQueues) (hart : HartId) :
    pickOrSteal ready hart = pickLocal (offered ready hart) hart := by
  unfold pickOrSteal offered
  cases own : pickLocal ready hart with
  | some => exact own.symm
  | none => rfl

theorem mem_offered {ready : ReadyQueues} {hart other : HartId} {entry : Nat × TaskId}
    (mem : entry ∈ (offered ready hart other).entries) :
    ∃ source, entry ∈ (ready source).entries := by
  cases own : pickLocal ready hart with
  | some =>
    simp only [offered, own] at mem
    exact ⟨other, mem⟩
  | none =>
    simp only [offered, own] at mem
    exact mem_steal_from_busiest mem

theorem mem_queued_of_entry {kernel : Kernel} {hart : HartId} {entry : Nat × TaskId}
    (mem : entry ∈ (kernel.ready hart).entries) : entry.2 ∈ queued kernel := by
  have inside : entry.2 ∈ (kernel.ready hart).contents := mem_map_of_mem mem
  exact (queued_in_split kernel.ready hart).mem_iff.mpr (mem_append_left _ inside)

def levelOf (tasks : IdTable Task) (id : TaskId) : Nat :=
  ((tasks.get id).map Task.priority).getD priorityNormal

def Keyed (kernel : Kernel) : Prop :=
  ∀ hart, ∀ entry ∈ (kernel.ready hart).entries, entry.1 = levelOf kernel.tasks entry.2

/-- A priority is only set where no queue entry is keyed by another one. -/
def KeysKept (kernel : Kernel) (_hart : HartId) : Action → Prop
  | .edit tid (.priority level) => tid ∈ queued kernel → levelOf kernel.tasks tid = level
  | _ => True

instance (kernel : Kernel) (hart : HartId) (action : Action) :
    Decidable (KeysKept kernel hart action) := by
  unfold KeysKept
  split <;> infer_instance

section Operations

variable {kernel : Kernel} {hart : HartId} {action : Action}

theorem keyed_enqueue {ready : ReadyQueues} {id : TaskId}
    (holds : ∀ hart, ∀ entry ∈ (ready hart).entries, entry.1 = levelOf kernel.tasks entry.2) :
    ∀ other, ∀ entry ∈ (enqueue kernel hart ready id other).entries,
      entry.1 = levelOf kernel.tasks entry.2 := by
  intro other entry mem
  rcases mem_push_on_hart mem with older | rfl
  · exact holds other entry older
  · rfl

variable (holds : Keyed kernel)
include holds

theorem keyed_of_levels {after : Kernel} (entries : ∀ hart, ∀ entry ∈ (after.ready hart).entries,
      ∃ other, entry ∈ (kernel.ready other).entries)
    (levels : ∀ id, levelOf after.tasks id = levelOf kernel.tasks id) : Keyed after := by
  intro hart entry mem
  obtain ⟨other, older⟩ := entries hart entry mem
  rw [levels]
  exact holds other entry older

theorem keyed_modify (target : TaskId) {change : Task → Task}
    (keeps : ∀ task, (change task).priority = task.priority) :
    Keyed (modifyTask kernel target change) := by
  apply keyed_of_levels holds
  · exact fun hart entry mem => ⟨hart, mem⟩
  · intro id
    simp only [levelOf, modifyTask, IdTable.get_modify]
    split
    · rw [Option.map_map, Function.comp_def]
      simp only [keeps]
    · rfl

theorem keyed_push (id : TaskId) : Keyed (pushReady kernel hart id) :=
  keyed_enqueue holds

theorem keyed_push_all (ids : List TaskId) :
    Keyed (pushAllReady kernel hart ids) := by
  have folded : ∀ ready : ReadyQueues,
      (∀ hart, ∀ entry ∈ (ready hart).entries, entry.1 = levelOf kernel.tasks entry.2) →
      ∀ other, ∀ entry ∈ (ids.foldl (enqueue kernel hart) ready other).entries,
        entry.1 = levelOf kernel.tasks entry.2 := by
    induction ids with
    | nil => exact fun ready keyed => keyed
    | cons id rest ih => exact fun ready keyed => ih _ (keyed_enqueue keyed)
  exact folded kernel.ready holds

theorem keyed_updates {after : Kernel} (updates : Updates kernel after) :
    Keyed after := by
  induction updates with
  | done => exact holds
  | core _ same =>
    unfold Keyed
    rwa [same.ready, same.tasks]
  | modify _ tid _ keeps ih => exact keyed_modify ih tid keeps
  | push _ _ tid ih => exact keyed_push ih tid
  | unqueue _ _ ih => exact fun other entry mem => ih other entry (mem_remove_from_all mem).1

theorem keyed_exit (tid : TaskId) (reason : Nat) :
    Keyed (exitTask kernel hart tid reason) := by
  apply keyed_push_all
  intro other entry mem
  obtain ⟨older, alive⟩ := mem_remove_from_all mem
  rw [holds other entry older]
  simp only [levelOf, exit_table_get, alive, if_false, Option.map_map]
  have priorities : EditOnly Task.priority := fun _ _ _ _ _ _ _ _ _ _ => rfl
  congr 2
  funext task
  exact (survivor_field priorities tid reason).symm

theorem keyed_dispatch : Keyed (dispatchNext kernel hart) := by
  unfold dispatchNext
  split
  · rename_i next rest picked
    rw [pick_or_steal_eq] at picked
    have running : Keyed (setState kernel next .running) := keyed_modify holds next (fun _ => rfl)
    intro other entry mem
    obtain ⟨source, older⟩ := mem_offered (mem_pick_local picked mem)
    exact running source entry older
  · exact holds

theorem keyed_spawn (cellId : CellId) :
    Keyed (spawn kernel hart cellId) := by
  apply keyed_push
  apply keyed_of_levels holds
  · exact fun hart entry mem => ⟨hart, mem⟩
  · intro id
    simp only [levelOf, IdTable.get_alloc]
    split
    · rename_i fresh
      rw [fresh, kernel.tasks.fresh kernel.tasks.next le_rfl]
      rfl
    · rfl

theorem keyed_wake_due : Keyed (wakeDue kernel hart) := by
  apply keyed_push_all
  apply keyed_of_levels holds
  · exact fun hart entry mem => ⟨hart, mem⟩
  · intro id
    obtain ⟨-, swept⟩ := sweep_all_spec kernel
    rcases swept id with ⟨-, task, flag, out, found, woken, after⟩ | ⟨-, same⟩
    · have kept : out.1.priority = task.priority := by
        rw [(sweep_task_woken woken).2]
      simp only [levelOf, found, after, Option.map_some, kept]
    · simp only [levelOf, same]

theorem keyed_futex_wake (addr count : Nat) :
    Keyed (futexWake kernel hart addr count).1 := by
  apply keyed_push_all
  apply keyed_of_levels holds
  · exact fun hart entry mem => ⟨hart, mem⟩
  · intro id
    simp only [levelOf, IdTable.get_map_each, Option.map_map]
    congr 2
    funext task
    split <;> rfl

theorem keyed_edit {tid : TaskId} {edit : Edit}
    (kept : KeysKept kernel hart (.edit tid edit)) : Keyed (modifyTask kernel tid edit.apply) := by
  cases edit with
  | priority =>
    intro other entry mem
    rw [holds other entry mem]
    simp only [levelOf, modifyTask, IdTable.get_modify]
    split
    · rename_i here
      have waits : tid ∈ queued kernel := by
        rw [← here]
        exact mem_queued_of_entry mem
      have same := kept waits
      simp only [here, levelOf] at same ⊢
      cases found : kernel.tasks.get tid with
      | none => rfl
      | some =>
        rw [found] at same
        exact same
    · rfl
  | _ => exact keyed_modify holds tid (fun _ => rfl)

theorem keyed_act (kept : KeysKept kernel hart action) :
    Keyed (act kernel hart action) := by
  by_cases inside : Local action
  · exact keyed_updates holds (act_updates inside)
  cases action with
  | edit => exact keyed_edit holds kept
  | spawn cellId => exact keyed_spawn holds cellId
  | exit tid reason =>
    have exited := @keyed_exit kernel hart holds tid reason
    unfold Keyed at exited ⊢
    rwa [act_exit_ready, act_exit_tasks]
  | wakeDue => exact keyed_wake_due holds
  | dispatch => exact keyed_dispatch holds
  | futexWake addr count => exact keyed_futex_wake holds addr count
  | _ => first | exact absurd trivial inside | exact holds

end Operations

/-- Of these queue entries, `next` belongs to the task of highest current priority
that arrived first. -/
def FirstOfHighest (tasks : IdTable Task) (entries : List (Nat × TaskId)) (next : TaskId) :
    Prop :=
  ∃ level before after, entries = before ++ (level, next) :: after ∧
    (∀ entry ∈ before, levelOf tasks entry.2 < levelOf tasks next) ∧
    ∀ entry ∈ after, levelOf tasks entry.2 ≤ levelOf tasks next

theorem pick_first_of_highest {kernel : Kernel} {hart : HartId} {next : TaskId}
    {rest : ReadyQueues} (holds : Keyed kernel)
    (picked : pickOrSteal kernel.ready hart = some (next, rest)) :
    FirstOfHighest kernel.tasks (offered kernel.ready hart hart).entries next := by
  rw [pick_or_steal_eq] at picked
  unfold pickLocal at picked
  rw [Option.map_eq_some_iff] at picked
  obtain ⟨⟨found, _⟩, popped, same⟩ := picked
  cases same
  obtain ⟨level, was, after, whole, -, earlier, later⟩ := PriorityFifo.pop_split popped
  have keyed : ∀ entry ∈ was ++ (level, found) :: after,
      entry.1 = levelOf kernel.tasks entry.2 := by
    intro entry mem
    rw [← whole] at mem
    obtain ⟨source, older⟩ := mem_offered mem
    exact holds source entry older
  have chosen : level = levelOf kernel.tasks found :=
    keyed (level, found) (mem_append_right _ mem_cons_self)
  refine ⟨level, was, after, whole, ?_, ?_⟩
  · intro entry mem
    rw [← keyed entry (mem_append_left _ mem), ← chosen]
    exact earlier entry mem
  · intro entry mem
    rw [← keyed entry (mem_append_right _ (mem_cons_of_mem _ mem)), ← chosen]
    exact later entry mem

theorem keyed_initial : Keyed initial.kernel := by
  have booted : Keyed boot := by
    intro hart entry mem
    cases mem
  exact keyed_modify (keyed_spawn booted 1) 1 (fun _ => rfl)

theorem keyed_step {was after : System} {event : Event} (holds : Keyed was.kernel)
    (kept : StepMeets KeysKept was event) (ran : step was event = some after) :
    Keyed after.kernel := by
  have acted := act_all_invariant (fun _ _ => keyed_act) (actionsOf was event).2 holds kept
  have same := step_acts ran
  unfold Keyed
  rw [same.ready, same.tasks]
  exact acted

theorem keyed_reached {system : System}
    (reached : Reaches step (StepMeets KeysKept) initial system) : Keyed system.kernel :=
  reached.invariant (fun _ _ _ => keyed_step) keyed_initial

/-- The state in which one of the step's actions is to choose the next task. -/
def FoundByDispatch (system : System) (event : Event) (kernel : Kernel) : Prop :=
  ∃ earlier later, (actionsOf system event).2 = earlier ++ .dispatch :: later ∧
    kernel = actAll system.kernel (actionsOf system event).1 earlier

/-- In a run that sets no queued task's priority, every pick on a hart runs the
task of highest current priority among those queued there, the first of them. -/
theorem pick_next_highest_first {system : System} {event : Event} {kernel : Kernel}
    {next : TaskId} {rest : ReadyQueues}
    (reached : Reaches step (StepMeets KeysKept) initial system)
    (kept : StepMeets KeysKept system event) (found : FoundByDispatch system event kernel)
    (picked : pickOrSteal kernel.ready (actionsOf system event).1 = some (next, rest)) :
    (act kernel (actionsOf system event).1 .dispatch).current (actionsOf system event).1 = next ∧
      FirstOfHighest kernel.tasks
        (offered kernel.ready (actionsOf system event).1 (actionsOf system event).1).entries
        next := by
  obtain ⟨earlier, _, whole, rfl⟩ := found
  constructor
  · simp only [act, dispatchNext, picked, Function.update_self]
  · apply pick_first_of_highest _ picked
    unfold StepMeets at kept
    rw [whole, acts_meet_append] at kept
    exact act_all_invariant (fun _ _ => keyed_act) earlier (keyed_reached reached) kept.1

/-- `init` starts a cell, then one at a priority of its own. -/
def startPinned (priority : Nat) : List Event :=
  [.idle 0] ++ callFor 0 (.spawnFromPath "/bin/cell" (some ⟨CapSet.empty, 0, true⟩)) 7 ++
    callFor 0 (.spawnPinned "/bin/rt" (some ⟨CapSet.empty, 0, true⟩) priority 0) 8

def pinnedNormal : System :=
  finalState step initial (startPinned priorityNormal)

/-- What the timer's preemption of `init` does before it chooses a task. -/
def pinnedSettled : List Action :=
  .tick :: .reap ::
    prepareActions (act (act pinnedNormal.kernel 0 .tick) 0 .reap) 0

def pinnedChoice : Kernel :=
  actAll pinnedNormal.kernel 0 pinnedSettled

theorem normal_cell_first : (act pinnedChoice 0 .dispatch).current 0 = 2 ∧
      FirstOfHighest pinnedChoice.tasks (offered pinnedChoice.ready 0 0).entries 2 := by
  have reached : Reaches step (StepMeets KeysKept) initial pinnedNormal :=
    reaches_final (by decide +kernel) (by decide +kernel)
  have kept : StepMeets KeysKept pinnedNormal (.timer 0) := by decide +kernel
  have found : FoundByDispatch pinnedNormal (.timer 0) pinnedChoice := ⟨pinnedSettled, [], rfl, rfl⟩
  have taken : (pickOrSteal pinnedChoice.ready 0).map Prod.fst = some 2 := by decide +kernel
  obtain ⟨⟨next, _⟩, picked, same⟩ := Option.map_eq_some_iff.mp taken
  have chosen := pick_next_highest_first reached kept found picked
  rw [show next = 2 from same] at chosen
  exact chosen

/-- A cell spawned at real-time priority stays behind an older one of normal
priority. -/
theorem real_time_cell_waits :
    (runEvents step initial (startPinned priorityRealTime)).map
        (fun system => ((system.kernel.ready 0).contents, levelOf system.kernel.tasks 2,
          levelOf system.kernel.tasks 3, executing system 0)) =
      some ([2, 3], priorityNormal, priorityRealTime, some 1) ∧
    (runEvents step initial (startPinned priorityRealTime ++ [.timer 0])).map
        (fun system => (system.kernel.current 0, (system.kernel.ready 0).contents)) =
      some (2, [3, 1]) := by
  decide +kernel

end ViCell.Invariant.Selection

import ViCell.Cells.CapTable
import ViCell.Cells.Cleanup

/-!
# File capabilities of the tasks that go on

`Exit`, `ForceExit` and a hot-swap retirement revoke by cell id. A task loaded
from a path has its own id as cell id; threads and tasks spawned from memory
all have cell id 0, and so does a task under load.
-/

namespace ViCell.Cells

open Lib Memory Hypervisor Option TreeMaps

namespace CellKernel

/-- A task's cell id is 0 or its own id, and a capability is held under the cell
id its opener had. -/
structure FileOwners (kernel : CellKernel) : Prop where
  cells : ∀ (task : Nat) (ids : TaskIds), kernel.tasks[task]? = some ids →
    ids.cellId = 0 ∨ ids.cellId = task
  owners : ∀ (id task : Nat) (entry : CapEntry), kernel.openedBy id = some task →
    kernel.caps.entries[id]? = some entry → entry.owner = 0 ∨ entry.owner = task

variable {kernel : CellKernel}

theorem FileOwners.cell_of (owned : kernel.FileOwners) (task : Nat) :
    kernel.cellOf task = 0 ∨ kernel.cellOf task = task := by
  unfold cellOf
  cases found : kernel.tasks[task]? with
  | none => exact .inl rfl
  | some ids => exact owned.cells task ids found

/-- A step that opens nothing and gives no task the cell id of another. -/
structure Quiet (before after : CellKernel) : Prop where
  cells : ∀ (task : Nat) (ids : TaskIds), after.tasks[task]? = some ids →
    ids.cellId = 0 ∨ ids.cellId = task ∨
      ∃ old, before.tasks[task]? = some old ∧ old.cellId = ids.cellId
  caps : after.caps.Below before.caps
  openedBy : after.openedBy = before.openedBy

variable {after : CellKernel}

theorem Quiet.keeps {before : CellKernel} (quiet : Quiet before after) (owned : before.FileOwners) :
    after.FileOwners := by
  constructor
  · intro task ids found
    rcases quiet.cells task ids found with zero | own | ⟨old, existed, same⟩
    · exact .inl zero
    · exact .inr own
    · rw [← same]
      exact owned.cells task old existed
  · intro id task entry opener found
    rw [quiet.openedBy] at opener
    obtain ⟨old, existed, same⟩ := quiet.caps id entry found
    rw [same]
    exact owned.owners id task old opener existed

section Steps

variable {before after : CellKernel}

theorem Quiet.of_shrunk (tasks : ∀ (task : Nat) (ids : TaskIds), after.tasks[task]? = some ids →
      before.tasks[task]? = some ids)
    (caps : after.caps.Below before.caps) (openedBy : after.openedBy = before.openedBy) :
    Quiet before after where
  cells := fun task ids found => .inr (.inr ⟨ids, tasks task ids found, rfl⟩)
  caps := caps
  openedBy := openedBy

theorem Quiet.of_same (tasks : after.tasks = before.tasks) (caps : after.caps = before.caps)
    (openedBy : after.openedBy = before.openedBy) : Quiet before after := by
  refine Quiet.of_shrunk ?_ ?_ openedBy
  · intro task ids found
    rw [← tasks]
    exact found
  · rw [caps]
    exact CapTable.Below.refl _

variable {task : Nat}

theorem erased_task_existed {gone : Nat} {ids : TaskIds}
    (found : (before.tasks.erase gone)[task]? = some ids) : before.tasks[task]? = some ids :=
  (get_erase_eq_some.mp found).2

theorem quiet_spawn : Quiet before before.spawn where
  cells := by
    intro task ids found
    rcases get_insert_eq_some.mp found with ⟨_, isNew⟩ | ⟨_, kept⟩
    · rw [← isNew]
      exact .inl rfl
    · exact .inr (.inr ⟨ids, kept, rfl⟩)
  caps := CapTable.Below.refl _
  openedBy := rfl

theorem quiet_adopt_cell (task : Nat) : Quiet before (before.adoptCell task) := by
  unfold adoptCell
  split
  next => exact Quiet.of_same rfl rfl rfl
  next old existed =>
    refine ⟨?_, CapTable.Below.refl _, rfl⟩
    intro other ids found
    rcases get_insert_eq_some.mp found with ⟨same, isNew⟩ | ⟨_, kept⟩
    · rw [← isNew, same]
      exact .inr (.inl rfl)
    · exact .inr (.inr ⟨ids, kept, rfl⟩)

theorem quiet_finish_cell (task devices : Nat) : Quiet before (before.finishCell task devices) := by
  unfold finishCell
  dsimp only
  split
  next => exact Quiet.of_same rfl rfl rfl
  next old existed =>
    refine ⟨?_, CapTable.Below.refl _, rfl⟩
    intro other ids found
    rcases get_insert_eq_some.mp found with ⟨same, isNew⟩ | ⟨_, kept⟩
    · rw [← isNew, same]
      exact .inr (.inr ⟨old, existed, rfl⟩)
    · exact .inr (.inr ⟨ids, kept, rfl⟩)

theorem open_cap_opened_by (caller file : Nat) :
    (before.openCap caller file).1.openedBy =
      Function.update before.openedBy before.caps.nextId (some caller) := rfl

theorem file_owners_open_cap {caller file : Nat} (owned : before.FileOwners) :
    (before.openCap caller file).1.FileOwners where
  cells := owned.cells
  owners := by
    intro id task entry opener found
    rw [open_cap_opened_by] at opener
    rcases get_insert_eq_some.mp found with ⟨same, isNew⟩ | ⟨ne, kept⟩
    · rw [same, Function.update_self] at opener
      cases opener
      rw [← isNew]
      exact owned.cell_of caller
    · rw [Function.update_of_ne ne] at opener
      exact owned.owners id task entry opener kept

theorem quiet_close_cap (caller id : Nat) : Quiet before (before.closeCap caller id).1 := by
  have verified := before.caps.below_verify before.ticks id (before.cellOf caller)
  unfold closeCap
  split
  next caps error out =>
    rw [out] at verified
    exact Quiet.of_shrunk (fun _ _ found => found) verified rfl
  next caps out =>
    rw [out] at verified
    exact Quiet.of_shrunk (fun _ _ found => found) ((caps.below_revoke id).trans verified) rfl

theorem quiet_request_mmio (windows : List MmioWindow) (caller base length : Nat) :
    Quiet before (before.requestMmio windows caller base length).1 := by
  unfold requestMmio
  dsimp only
  split <;> exact Quiet.of_same rfl rfl rfl

theorem quiet_grant_dma {caller bdf phys size : Nat} {out : Except ViError Nat}
    (run : before.grantDma caller bdf phys size = some (after, out)) : Quiet before after := by
  unfold grantDma at run
  split_ifs at run
  · cases run
    exact Quiet.of_same rfl rfl rfl
  · cases run
    exact Quiet.of_same rfl rfl rfl
  · cases run
    exact Quiet.of_same rfl rfl rfl
  · cases run
    exact Quiet.of_same rfl rfl rfl
  · obtain ⟨_, _, same⟩ := map_eq_some_iff.mp run
    cases same
    exact Quiet.of_same rfl rfl rfl

theorem quiet_exit (run : before.exit task = some after) : Quiet before after := by
  obtain ⟨⟨_, touched⟩, _⟩ := cleanup_dma_spec _ task run
  rw [touched]
  exact Quiet.of_shrunk (fun _ _ found => erased_task_existed found)
    (before.caps.below_revoke_all_for _) rfl

theorem quiet_fault (hart : Nat) : Quiet before (before.fault hart) := by
  unfold fault
  dsimp only
  split
  · exact Quiet.of_shrunk (fun _ _ found => erased_task_existed found) (CapTable.Below.refl _) rfl
  · exact Quiet.of_same rfl rfl rfl

theorem quiet_kill (hart task : Nat) : Quiet before (before.kill hart task) := by
  unfold kill
  split
  all_goals exact Quiet.of_shrunk (fun _ _ found => erased_task_existed found) (CapTable.Below.refl _) rfl

theorem quiet_drain_killed (run : before.drainKilled = some after) : Quiet before after := by
  rw [(drain_spec _ run).kept]
  exact Quiet.of_same rfl rfl rfl

theorem quiet_retire {cell : Nat} (run : before.retire task cell = some after) :
    Quiet before after := by
  obtain ⟨_, cleaned, same⟩ := map_eq_some_iff.mp run
  obtain ⟨⟨_, touched⟩, _⟩ := cleanup_dma_spec _ cell cleaned
  rw [← same, touched]
  exact Quiet.of_shrunk (fun _ _ found => erased_task_existed found)
    (before.caps.below_revoke_all_for cell) rfl

theorem step_quiet_or_opens {windows : List MmioWindow} {event : CellEvent}
    (ran : before.step windows event = some after) :
    Quiet before after ∨ ∃ caller file, after = (before.openCap caller file).1 := by
  cases event with
  | spawn =>
    cases ran
    exact .inl quiet_spawn
  | adoptCell task =>
    cases ran
    exact .inl (quiet_adopt_cell task)
  | finishCell task devices =>
    cases ran
    exact .inl (quiet_finish_cell task devices)
  | dispatch hart task | claimBdf bdf task =>
    obtain ⟨_, same⟩ := ite_none_right_eq_some.mp ran
    cases same
    exact .inl (Quiet.of_same rfl rfl rfl)
  | tick =>
    cases ran
    exact .inl (Quiet.of_same rfl rfl rfl)
  | openCap caller file =>
    obtain ⟨_, same⟩ := ite_none_right_eq_some.mp ran
    cases same
    exact .inr ⟨caller, file, rfl⟩
  | beginIo =>
    obtain ⟨_, same⟩ := ite_none_right_eq_some.mp ran
    cases same
    exact .inl (Quiet.of_shrunk (fun _ _ found => found)
      (before.caps.below_park_file _ _ _) rfl)
  | finishIo =>
    cases ran
    exact .inl (Quiet.of_shrunk (fun _ _ found => found)
      (before.caps.below_unpark_file _ _) rfl)
  | closeCap caller id =>
    obtain ⟨_, same⟩ := ite_none_right_eq_some.mp ran
    cases same
    exact .inl (quiet_close_cap caller id)
  | requestMmio caller base length =>
    obtain ⟨_, same⟩ := ite_none_right_eq_some.mp ran
    cases same
    exact .inl (quiet_request_mmio windows caller base length)
  | grantDma =>
    obtain ⟨_, called⟩ := ite_none_right_eq_some.mp ran
    obtain ⟨⟨_, _⟩, run, same⟩ := map_eq_some_iff.mp called
    cases same
    exact .inl (quiet_grant_dma run)
  | createVm =>
    obtain ⟨_, called⟩ := ite_none_right_eq_some.mp ran
    obtain ⟨_, run, same⟩ := map_eq_some_iff.mp called
    obtain ⟨_, _, built⟩ := map_eq_some_iff.mp run
    rw [← same, ← built]
    exact .inl (Quiet.of_same rfl rfl rfl)
  | exit =>
    obtain ⟨_, run⟩ := ite_none_right_eq_some.mp ran
    exact .inl (quiet_exit run)
  | fault hart =>
    cases ran
    exact .inl (quiet_fault hart)
  | kill hart task =>
    obtain ⟨_, same⟩ := ite_none_right_eq_some.mp ran
    cases same
    exact .inl (quiet_kill hart task)
  | drainKilled => exact .inl (quiet_drain_killed ran)
  | retire => exact .inl (quiet_retire ran)

theorem file_owners_step {windows : List MmioWindow} {event : CellEvent}
    (owned : before.FileOwners) (ran : before.step windows event = some after) :
    after.FileOwners := by
  rcases step_quiet_or_opens ran with quiet | ⟨caller, file, opened⟩
  · exact quiet.keeps owned
  · rw [opened]
    exact file_owners_open_cap owned

end Steps

theorem file_owners_boot (iommu : Iommu) (vms : VmState) : (boot iommu vms).FileOwners where
  cells := by
    intro task ids found
    simp [boot] at found
  owners := by
    intro id task entry opener found
    cases opener

def revokedCell (kernel : CellKernel) (task : Nat) : Ending → Option Nat
  | .exit => some (kernel.cellOf task)
  | .forceExit => some (kernel.cellOf task)
  | .fault _ => none
  | .watchdog _ => none
  | .heartbeat _ => none
  | .retirement cell => some cell

/-- What an ending does to the tables that a file access reads. -/
structure FileTables (kernel after : CellKernel) (task : Nat) (ending : Ending) : Prop where
  caps : after.caps = (kernel.revokedCell task ending).elim kernel.caps kernel.caps.revokeAllFor
  tasks : after.tasks = kernel.tasks.erase task
  ticks : after.ticks = kernel.ticks

variable {task : Nat}

theorem exit_file_tables (run : kernel.exit task = some after) :
    FileTables kernel after task .exit := by
  obtain ⟨⟨_, touched⟩, _⟩ := cleanup_dma_spec _ task run
  rw [touched]
  exact ⟨rfl, rfl, rfl⟩

theorem kill_file_tables {hart : Nat} (run : (kernel.kill hart task).drainKilled = some after) :
    FileTables kernel after task (.watchdog hart) := by
  have killed : FileTables kernel (kernel.kill hart task) task (.watchdog hart) := by
    unfold kill
    split <;> exact ⟨rfl, rfl, rfl⟩
  rw [(drain_spec _ run).kept]
  exact ⟨killed.caps, killed.tasks, killed.ticks⟩

theorem terminate_file_tables {ending : Ending} (run : kernel.terminate task ending = some after) :
    FileTables kernel after task ending := by
  cases ending with
  | exit => exact exit_file_tables run
  | forceExit =>
    have exited := exit_file_tables run
    exact ⟨exited.caps, exited.tasks, exited.ticks⟩
  | fault =>
    obtain ⟨⟨pos, here⟩, same⟩ := ite_none_right_eq_some.mp run
    cases same
    unfold fault
    rw [here]
    dsimp only
    rw [if_pos pos]
    exact ⟨rfl, rfl, rfl⟩
  | watchdog => exact kill_file_tables run
  | heartbeat =>
    have killed := kill_file_tables run
    exact ⟨killed.caps, killed.tasks, killed.ticks⟩
  | retirement cell =>
    obtain ⟨_, cleaned, same⟩ := map_eq_some_iff.mp run
    obtain ⟨⟨_, touched⟩, _⟩ := cleanup_dma_spec _ cell cleaned
    rw [← same, touched]
    exact ⟨rfl, rfl, rfl⟩

/-- Each capability that `task` opened is as it was, and its calls on it have the
results they would have had. -/
def FilesKept (kernel after : CellKernel) (task : Nat) : Prop :=
  ∀ id, kernel.openedBy id = some task → after.caps.entries[id]? = kernel.caps.entries[id]? ∧
      (after.beginIo task id).2 = (kernel.beginIo task id).2 ∧
      (after.closeCap task id).2 = (kernel.closeCap task id).2

/-- No capability that `task` opened is held under this cell id. -/
def NoFilesUnder (kernel : CellKernel) (task cell : Nat) : Prop :=
  ∀ (id : Nat) (entry : CapEntry), kernel.openedBy id = some task →
    kernel.caps.entries[id]? = some entry → entry.owner ≠ cell

/-- When the end of `gone` leaves the files of `task` alone. -/
def FilesApart (kernel : CellKernel) (gone task : Nat) : Ending → Prop
  | .exit => kernel.cellOf gone ≠ 0 ∨ kernel.NoFilesUnder task 0
  | .forceExit => kernel.cellOf gone ≠ 0 ∨ kernel.NoFilesUnder task 0
  | .fault _ => True
  | .watchdog _ => True
  | .heartbeat _ => True
  | .retirement cell => (cell ≠ 0 ∧ cell ≠ task) ∨ kernel.NoFilesUnder task cell

theorem close_cap_result (kernel : CellKernel) (caller id : Nat) :
    (kernel.closeCap caller id).2 =
      (kernel.caps.verify kernel.ticks id (kernel.cellOf caller)).2 := by
  unfold closeCap
  split
  next out => rw [out]
  next out => rw [out]

section Endings

variable {kernel after : CellKernel} {gone task : Nat} {ending : Ending}

theorem FileTables.cell_of (tables : FileTables kernel after gone ending)
    (ne : gone ≠ task) : after.cellOf task = kernel.cellOf task := by
  unfold cellOf
  rw [tables.tasks, Std.TreeMap.getElem?_erase, if_neg (by simpa using ne)]

theorem FileTables.kept_of_entries (tables : FileTables kernel after gone ending) (ne : gone ≠ task)
    (entries : ∀ id, kernel.openedBy id = some task →
      after.caps.entries[id]? = kernel.caps.entries[id]?) : kernel.FilesKept after task := by
  intro id opener
  have same := entries id opener
  refine ⟨same, ?_, ?_⟩
  · change (after.caps.parkFile after.ticks id (after.cellOf task)).2 =
      (kernel.caps.parkFile kernel.ticks id (kernel.cellOf task)).2
    rw [tables.ticks, tables.cell_of ne]
    exact CapTable.park_file_result_congr same _ _
  · rw [close_cap_result, close_cap_result, tables.ticks, tables.cell_of ne]
    exact CapTable.verify_result_congr same _ _

theorem FileTables.kept_iff (tables : FileTables kernel after gone ending) (ne : gone ≠ task) :
    kernel.FilesKept after task ↔
      ∀ cell, kernel.revokedCell gone ending = some cell → kernel.NoFilesUnder task cell := by
  constructor
  · intro kept cell revoked id entry opener found isOwner
    have stays := (kept id opener).1
    rw [tables.caps, revoked, found] at stays
    have passes := (get_filter_eq_some.mp stays).2
    simp [isOwner] at passes
  · intro apart
    apply tables.kept_of_entries ne
    intro id opener
    rw [tables.caps]
    cases revoked : kernel.revokedCell gone ending with
    | none => rfl
    | some cell =>
      apply ext
      intro entry
      change (kernel.caps.entries.filter _)[id]? = _ ↔ _
      rw [get_filter_eq_some]
      constructor
      · exact fun both => both.1
      · intro found
        exact ⟨found, by simpa using apart cell revoked id entry opener found⟩

theorem FileOwners.no_files_under (owned : kernel.FileOwners) {cell : Nat} (notZero : cell ≠ 0)
    (other : cell ≠ task) : kernel.NoFilesUnder task cell := by
  intro id entry opener found isOwner
  rcases owned.owners id task entry opener found with zero | own
  · exact notZero (isOwner.symm.trans zero)
  · exact other (isOwner.symm.trans own)

theorem FileOwners.exit_apart (owned : kernel.FileOwners) (ne : gone ≠ task) :
    kernel.NoFilesUnder task (kernel.cellOf gone) ↔
      kernel.cellOf gone ≠ 0 ∨ kernel.NoFilesUnder task 0 := by
  by_cases zero : kernel.cellOf gone = 0
  · simp [zero]
  · have own : kernel.cellOf gone = gone := (owned.cell_of gone).resolve_left zero
    constructor
    · exact fun _ => .inl zero
    · intro _
      apply owned.no_files_under zero
      rw [own]
      exact ne

end Endings

/-- In every state of a run, a task's end leaves the files of another live task
usable and unchanged if and only if it revokes nothing, revokes under a cell id
other than 0 and that task's, or the other task opened nothing under that id. -/
theorem ended_task_leaves_files_iff {windows : List MmioWindow} {iommu : Iommu} {vms : VmState}
    {events : List CellEvent} {kernel after : CellKernel} {gone task : Nat} {ending : Ending}
    (executed : runEvents (step windows) (boot iommu vms) events = some kernel)
    (different : gone ≠ task) (run : kernel.terminate gone ending = some after) :
    kernel.FilesKept after task ↔ kernel.FilesApart gone task ending := by
  have owned : kernel.FileOwners := run_invariant FileOwners
    (fun _ _ _ held stepped => file_owners_step held stepped) executed (file_owners_boot iommu vms)
  rw [(terminate_file_tables run).kept_iff different]
  cases ending with
  | exit | forceExit => simpa [revokedCell, FilesApart] using owned.exit_apart different
  | fault hart | watchdog hart | heartbeat hart => simp [revokedCell, FilesApart]
  | retirement =>
    simp only [revokedCell, FilesApart, some.injEq, forall_eq']
    constructor
    · exact .inr
    · rintro (⟨notZero, other⟩ | apart)
      · exact owned.no_files_under notZero other
      · exact apart

/-- A cell loaded from a path exits next to a thread with an open file. -/
theorem loaded_exit_leaves_thread_file :
    ∃ kernel after, runEvents (step riscvWindows) (boot smallIommu board)
        [.spawn, .adoptCell 1, .finishCell 1 0, .spawn, .openCap 2 7] = some kernel ∧
      kernel.terminate 1 .exit = some after ∧ kernel.openedBy 1 = some 2 ∧
      kernel.FilesKept after 2 := by
  have evaluated : (runEvents (step riscvWindows) (boot smallIommu board)
      [.spawn, .adoptCell 1, .finishCell 1 0, .spawn, .openCap 2 7]).bind (fun kernel =>
        (kernel.terminate 1 .exit).map (fun _ => (kernel.cellOf 1, kernel.openedBy 1))) =
      some (1, some 2) := by decide +kernel
  obtain ⟨kernel, executed, rest⟩ := bind_eq_some_iff.mp evaluated
  obtain ⟨after, ended, facts⟩ := map_eq_some_iff.mp rest
  simp only [Prod.mk.injEq] at facts
  obtain ⟨cell, opener⟩ := facts
  refine ⟨kernel, after, executed, ended, opener, ?_⟩
  apply (ended_task_leaves_files_iff executed (by decide) ended).mpr
  left
  rw [cell]
  exact Nat.one_ne_zero

/-- Two threads: the exit of one closes the file of the other. -/
theorem thread_exit_revokes_thread_file :
    ∃ kernel after, runEvents (step riscvWindows) (boot smallIommu board)
        [.spawn, .spawn, .openCap 2 7] = some kernel ∧
      kernel.live 1 = true ∧ kernel.live 2 = true ∧ kernel.terminate 1 .exit = some after ∧
      kernel.openedBy 1 = some 2 ∧ (kernel.beginIo 2 1).2 = .ok 7 ∧
      (after.beginIo 2 1).2 = .error .notFound ∧ ¬ kernel.FilesKept after 2 := by
  have evaluated : (runEvents (step riscvWindows) (boot smallIommu board)
      [.spawn, .spawn, .openCap 2 7]).bind (fun kernel =>
        (kernel.terminate 1 .exit).map (fun after =>
          ([kernel.live 1, kernel.live 2], kernel.openedBy 1, (kernel.beginIo 2 1).2.toOption,
            match (after.beginIo 2 1).2 with
            | .error error => some error
            | .ok _ => none))) =
      some ([true, true], some 2, some 7, some .notFound) := by decide +kernel
  obtain ⟨kernel, executed, rest⟩ := bind_eq_some_iff.mp evaluated
  obtain ⟨after, ended, facts⟩ := map_eq_some_iff.mp rest
  simp only [Prod.mk.injEq, List.cons.injEq, and_true] at facts
  obtain ⟨⟨firstLive, secondLive⟩, opener, before, failed⟩ := facts
  have usable : (kernel.beginIo 2 1).2 = .ok 7 := by
    revert before
    cases (kernel.beginIo 2 1).2 with
    | error => exact fun impossible => nomatch impossible
    | ok =>
      intro same
      rw [some.inj same]
  have unusable : (after.beginIo 2 1).2 = .error .notFound := by
    revert failed
    cases (after.beginIo 2 1).2 with
    | error =>
      intro same
      rw [some.inj same]
    | ok => exact fun impossible => nomatch impossible
  refine ⟨kernel, after, executed, firstLive, secondLive, ended, opener, usable, unusable, ?_⟩
  intro kept
  have same := (kept 1 opener).2.1
  rw [usable, unusable] at same
  cases same

end CellKernel

end ViCell.Cells

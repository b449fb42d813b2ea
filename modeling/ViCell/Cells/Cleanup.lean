import ViCell.Lib.TreeMaps
import ViCell.Cells.Kernel
import ViCell.Hypervisor.Confinement

/-!
# What a task leaves behind

Every piece of clean-up works on one table and under one id. A way of ending
leaves nothing behind exactly if, for each table, it runs the piece for that
table under the id the task's entries have, or there are none.
-/

namespace ViCell.Cells

open Lib Memory Hypervisor List Option

namespace CellKernel

def NoCaps (kernel : CellKernel) (cell : Nat) : Prop :=
  ∀ (id : Nat) (entry : CapEntry), kernel.caps.entries[id]? = some entry → entry.owner ≠ cell

def NoQuota (kernel : CellKernel) (cell : Nat) : Prop := kernel.quota.limits[cell]? = none

def NoMmio (kernel : CellKernel) (task : Nat) : Prop :=
  ∀ (base : Nat) (region : Nat × Nat), kernel.mmio[base]? = some region → region.2 ≠ task

def NoBdfs (kernel : CellKernel) (task : Nat) : Prop :=
  ∀ (bdf owner : Nat), kernel.bdfOwners[bdf]? = some owner → owner ≠ task

def NoDomain (kernel : CellKernel) (task : Nat) : Prop := kernel.iommu.domains[task]? = none

def NoVms (kernel : CellKernel) (task : Nat) : Prop :=
  ∀ entry ∈ kernel.vms.vms, entry.1.1 ≠ task

/-- No table has an entry of the task, whose cell id was `cell`. -/
structure HoldsNothing (kernel : CellKernel) (task cell : Nat) : Prop where
  caps : kernel.NoCaps cell
  quota : kernel.NoQuota cell
  mmio : kernel.NoMmio task
  bdfs : kernel.NoBdfs task
  domain : kernel.NoDomain task
  vms : kernel.NoVms task

theorem holds_nothing_iff {kernel : CellKernel} {task cell : Nat} : kernel.HoldsNothing task cell ↔
      kernel.NoCaps cell ∧ kernel.NoQuota cell ∧ kernel.NoMmio task ∧ kernel.NoBdfs task ∧
        kernel.NoDomain task ∧ kernel.NoVms task :=
  ⟨fun nothing => ⟨nothing.caps, nothing.quota, nothing.mmio, nothing.bdfs, nothing.domain,
      nothing.vms⟩,
    fun ⟨caps, quota, mmio, bdfs, domain, vms⟩ => ⟨caps, quota, mmio, bdfs, domain, vms⟩⟩

section Pieces

variable (kernel : CellKernel) (gone task : Nat)

@[simp] theorem no_caps_revoke_caps :
    (kernel.revokeCaps gone).NoCaps task ↔ gone = task ∨ kernel.NoCaps task :=
  TreeMaps.none_marked_iff CapEntry.owner gone task

@[simp] theorem no_mmio_release_cell :
    (kernel.releaseCell gone).NoMmio task ↔ gone = task ∨ kernel.NoMmio task :=
  TreeMaps.none_marked_iff Prod.snd gone task

@[simp] theorem no_quota_release_cell :
    (kernel.releaseCell gone).NoQuota task ↔ gone = task ∨ kernel.NoQuota task := by
  change (kernel.quota.limits.erase gone)[task]? = none ↔ _
  rw [Std.TreeMap.getElem?_erase]
  by_cases same : gone = task
  · simp [same]
  · simp [same, NoQuota]

@[simp] theorem no_bdfs_release_bdfs :
    (kernel.releaseBdfs gone).NoBdfs task ↔ gone = task ∨ kernel.NoBdfs task :=
  TreeMaps.none_marked_iff id gone task

@[simp] theorem no_vms_reap_vms :
    (kernel.reapVms gone).NoVms task ↔ gone = task ∨ kernel.NoVms task := by
  unfold NoVms reapVms
  simp only [mem_filter, decide_eq_true_eq]
  constructor
  · intro rest
    by_cases same : gone = task
    · exact .inl same
    · right
      intro entry mem isTask
      exact rest entry ⟨mem, fun isGone => same (isGone.symm.trans isTask)⟩ isTask
  · rintro (same | none) entry ⟨mem, kept⟩
    · rw [← same]
      exact kept
    · exact none entry mem

theorem free_pscid_domains (iommu : Iommu) (id : Nat) :
    (iommu.freePscid id).domains = iommu.domains := by
  unfold Iommu.freePscid
  split <;> rfl

theorem unmap_cell_domains {iommu after : Iommu} (run : iommu.unmapCell gone = some after) :
    after.domains[task]? = none ↔ gone = task ∨ iommu.domains[task]? = none := by
  have erased : (iommu.domains.erase gone)[task]? = none ↔
      gone = task ∨ iommu.domains[task]? = none := by
    by_cases same : gone = task
    · simp [same]
    · simp [same]
  unfold Iommu.unmapCell at run
  split at run
  next lost =>
    cases run
    constructor
    · exact .inr
    · rintro (same | none)
      · rw [← same]
        exact lost
      · exact none
  next domain found =>
    dsimp only at run
    split at run
    next =>
      cases run
      rw [free_pscid_domains]
      exact erased
    next =>
      obtain ⟨_, _, same⟩ := map_eq_some_iff.mp run
      rw [← same, free_pscid_domains]
      exact erased

theorem cleanup_dma_spec {after : CellKernel} (run : kernel.cleanupDma gone = some after) :
    (∃ iommu, after = { kernel with iommu := iommu }) ∧
      ∀ task, after.NoDomain task ↔ gone = task ∨ kernel.NoDomain task := by
  obtain ⟨iommu, unmapped, same⟩ := map_eq_some_iff.mp run
  subst same
  exact ⟨⟨iommu, rfl⟩, fun task => unmap_cell_domains gone task unmapped⟩

end Pieces

/-- What reaping killed tasks does to the tables. -/
structure Drained (before after : CellKernel) (killed : List Nat) : Prop where
  kept : after = { before with
    bdfOwners := after.bdfOwners, iommu := after.iommu, vms := after.vms }
  bdfs : ∀ task, after.NoBdfs task ↔ task ∈ killed ∨ before.NoBdfs task
  domain : ∀ task, after.NoDomain task ↔ task ∈ killed ∨ before.NoDomain task
  vms : ∀ task, after.NoVms task ↔ task ∈ killed ∨ before.NoVms task

theorem reap_killed_spec {kernel after : CellKernel} {task : Nat}
    (run : kernel.reapKilled task = some after) : Drained kernel after [task] := by
  obtain ⟨_, cleaned, same⟩ := map_eq_some_iff.mp run
  obtain ⟨⟨_, touched⟩, domains⟩ := cleanup_dma_spec (kernel.releaseBdfs task) task cleaned
  subst same
  refine ⟨?_, ?_, ?_, ?_⟩
  · rw [touched]
    rfl
  · intro other
    rw [touched, mem_singleton, eq_comm]
    exact no_bdfs_release_bdfs kernel task other
  · intro other
    rw [mem_singleton, eq_comm]
    exact domains other
  · intro other
    rw [no_vms_reap_vms, touched, mem_singleton, eq_comm]
    exact Iff.rfl

theorem drain_spec (killed : List Nat) {kernel after : CellKernel}
    (run : killed.foldlM reapKilled kernel = some after) : Drained kernel after killed := by
  induction killed generalizing kernel with
  | nil =>
    cases run
    exact ⟨rfl, fun _ => by simp, fun _ => by simp, fun _ => by simp⟩
  | cons task rest ih =>
    obtain ⟨_, reaped, later⟩ := bind_eq_some_iff.mp run
    have first := reap_killed_spec reaped
    have others := ih later
    refine ⟨others.kept.trans ?_, ?_, ?_, ?_⟩
    · rw [first.kept]
    · intro other
      rw [others.bdfs, first.bdfs]
      simp only [mem_cons]
      tauto
    · intro other
      rw [others.domain, first.domain]
      simp only [mem_cons]
      tauto
    · intro other
      rw [others.vms, first.vms]
      simp only [mem_cons]
      tauto

inductive Ending where
  | exit
  | forceExit
  | fault (hart : Nat)
  | watchdog (hart : Nat)
  | heartbeat (hart : Nat)
  | retirement (cell : Nat)
  deriving DecidableEq, Repr

/-- The whole way, with the part that `yield_cpu` does; `none` is a panic, or a
fault of some other task. -/
def terminate (kernel : CellKernel) (task : Nat) : Ending → Option CellKernel
  | .exit => kernel.exit task
  | .forceExit => kernel.exit task
  | .fault hart =>
    if 0 < task ∧ kernel.currentTask hart = task then some (kernel.fault hart) else none
  | .watchdog hart => (kernel.kill hart task).drainKilled
  | .heartbeat hart => (kernel.kill hart task).drainKilled
  | .retirement cell => kernel.retire task cell

/-- The pieces that a way leaves out find nothing, and those it runs under
another id than the entries have find nothing either. -/
def Covered (kernel : CellKernel) (task : Nat) : Ending → Prop
  | .exit => (kernel.cellOf task = task ∨ kernel.NoMmio task) ∧ kernel.NoVms task
  | .forceExit => (kernel.cellOf task = task ∨ kernel.NoMmio task) ∧ kernel.NoVms task
  | .fault hart =>
    kernel.NoCaps (kernel.cellOf task) ∧
      (kernel.currentCell hart = kernel.cellOf task ∨ kernel.NoQuota (kernel.cellOf task)) ∧
      (kernel.currentCell hart = task ∨ kernel.NoMmio task) ∧
      kernel.NoBdfs task ∧ kernel.NoDomain task
  | .watchdog _ =>
    kernel.NoCaps (kernel.cellOf task) ∧ (kernel.cellOf task = task ∨ kernel.NoMmio task)
  | .heartbeat _ =>
    kernel.NoCaps (kernel.cellOf task) ∧ (kernel.cellOf task = task ∨ kernel.NoMmio task)
  | .retirement cell =>
    (cell = kernel.cellOf task ∨ kernel.NoCaps (kernel.cellOf task)) ∧
      (cell = kernel.cellOf task ∨ kernel.NoQuota (kernel.cellOf task)) ∧
      (cell = task ∨ kernel.NoMmio task) ∧ (cell = task ∨ kernel.NoDomain task) ∧
      kernel.NoVms task

section Ways

variable {kernel after : CellKernel} {task : Nat}

theorem cleaned_holds_nothing {cell gone own : Nat}
    (run : (((kernel.revokeCaps cell).releaseCell cell).releaseBdfs task).cleanupDma gone =
      some after) :
    after.HoldsNothing task own ↔ (cell = own ∨ kernel.NoCaps own) ∧
      (cell = own ∨ kernel.NoQuota own) ∧ (cell = task ∨ kernel.NoMmio task) ∧
      (gone = task ∨ kernel.NoDomain task) ∧ kernel.NoVms task := by
  obtain ⟨⟨_, touched⟩, domains⟩ := cleanup_dma_spec _ gone run
  have caps : after.NoCaps own ↔ cell = own ∨ kernel.NoCaps own := by
    rw [touched]
    exact no_caps_revoke_caps kernel cell own
  have quota : after.NoQuota own ↔ cell = own ∨ kernel.NoQuota own := by
    rw [touched]
    exact no_quota_release_cell (kernel.revokeCaps cell) cell own
  have mmio : after.NoMmio task ↔ cell = task ∨ kernel.NoMmio task := by
    rw [touched]
    exact no_mmio_release_cell (kernel.revokeCaps cell) cell task
  have bdfs : after.NoBdfs task := by
    rw [touched]
    exact (no_bdfs_release_bdfs ((kernel.revokeCaps cell).releaseCell cell) task task).mpr (.inl rfl)
  have domain : after.NoDomain task ↔ gone = task ∨ kernel.NoDomain task := domains task
  have vms : after.NoVms task ↔ kernel.NoVms task := by
    rw [touched]
    exact Iff.rfl
  simp only [holds_nothing_iff, caps, quota, mmio, bdfs, domain, vms, true_and]

theorem exit_holds_nothing (run : kernel.exit task = some after) :
    after.HoldsNothing task (kernel.cellOf task) ↔
      (kernel.cellOf task = task ∨ kernel.NoMmio task) ∧ kernel.NoVms task := by
  have cleaned : after.HoldsNothing task (kernel.cellOf task) ↔ _ := cleaned_holds_nothing run
  simp only [true_or, true_and] at cleaned
  exact cleaned

theorem fault_holds_nothing {hart : Nat} (pos : 0 < task) (here : kernel.currentTask hart = task) :
    (kernel.fault hart).HoldsNothing task (kernel.cellOf task) ↔
      kernel.Covered task (.fault hart) := by
  have ended : kernel.fault hart =
      { ((kernel.exitTask task).releaseCell (kernel.currentCell hart)).reapVms task with
        currentCell := Function.update kernel.currentCell hart 0 } := by
    unfold fault
    rw [here]
    dsimp only
    rw [if_pos pos]
    rfl
  have quota : (kernel.fault hart).NoQuota (kernel.cellOf task) ↔
      kernel.currentCell hart = kernel.cellOf task ∨ kernel.NoQuota (kernel.cellOf task) := by
    rw [ended]
    exact no_quota_release_cell (kernel.exitTask task) _ _
  have mmio : (kernel.fault hart).NoMmio task ↔
      kernel.currentCell hart = task ∨ kernel.NoMmio task := by
    rw [ended]
    exact no_mmio_release_cell (kernel.exitTask task) _ _
  have vms : (kernel.fault hart).NoVms task ↔ True := by
    rw [ended, iff_true]
    exact (no_vms_reap_vms ((kernel.exitTask task).releaseCell _) task task).mpr (.inl rfl)
  have others : ((kernel.fault hart).NoCaps (kernel.cellOf task) ↔
      kernel.NoCaps (kernel.cellOf task)) ∧ ((kernel.fault hart).NoBdfs task ↔ kernel.NoBdfs task) ∧
      ((kernel.fault hart).NoDomain task ↔ kernel.NoDomain task) := by
    rw [ended]
    exact ⟨Iff.rfl, Iff.rfl, Iff.rfl⟩
  rw [holds_nothing_iff, quota, mmio, vms, others.1, others.2.1, others.2.2]
  simp only [Covered, and_true]

theorem kill_tables (hart : Nat) : (kernel.kill hart task).caps = kernel.caps ∧
      (kernel.kill hart task).quota = (kernel.releaseCell (kernel.cellOf task)).quota ∧
      (kernel.kill hart task).mmio = (kernel.releaseCell (kernel.cellOf task)).mmio ∧
      task ∈ (kernel.kill hart task).pendingGrantReap := by
  unfold kill
  split <;> exact ⟨rfl, rfl, rfl, mem_append_right _ (mem_singleton_self _)⟩

theorem kill_holds_nothing {hart : Nat} (run : (kernel.kill hart task).drainKilled = some after) :
    after.HoldsNothing task (kernel.cellOf task) ↔ kernel.NoCaps (kernel.cellOf task) ∧
        (kernel.cellOf task = task ∨ kernel.NoMmio task) := by
  obtain ⟨capsKept, quotaReleased, mmioReleased, pending⟩ := kill_tables hart
  have drained := drain_spec _ run
  have caps : after.NoCaps (kernel.cellOf task) ↔ kernel.NoCaps (kernel.cellOf task) := by
    unfold NoCaps
    rw [congrArg CellKernel.caps drained.kept]
    rw [capsKept]
  have quota : after.NoQuota (kernel.cellOf task) := by
    have released := (no_quota_release_cell kernel (kernel.cellOf task) _).mpr (.inl rfl)
    unfold NoQuota at released ⊢
    rw [congrArg CellKernel.quota drained.kept]
    rw [quotaReleased]
    exact released
  have mmio : after.NoMmio task ↔ kernel.cellOf task = task ∨ kernel.NoMmio task := by
    rw [← no_mmio_release_cell]
    unfold NoMmio
    rw [congrArg CellKernel.mmio drained.kept]
    rw [mmioReleased]
  have bdfs : after.NoBdfs task := by
    rw [drained.bdfs]
    exact .inl pending
  have domain : after.NoDomain task := by
    rw [drained.domain]
    exact .inl pending
  have vms : after.NoVms task := by
    rw [drained.vms]
    exact .inl pending
  simp only [holds_nothing_iff, caps, quota, mmio, bdfs, domain, vms, true_and, and_true]

theorem retire_holds_nothing {cell : Nat} (run : kernel.retire task cell = some after) :
    after.HoldsNothing task (kernel.cellOf task) ↔ kernel.Covered task (.retirement cell) := by
  obtain ⟨next, cleaned, same⟩ := map_eq_some_iff.mp run
  subst same
  have ended : (next.exitTask task).HoldsNothing task (kernel.cellOf task) ↔
      next.HoldsNothing task (kernel.cellOf task) := by
    rw [holds_nothing_iff, holds_nothing_iff]
    rfl
  exact ended.trans (cleaned_holds_nothing cleaned)

end Ways

def smallIommu : Iommu :=
  ((Iommu.initHw { memory := fun _ => 0
                   heap := (range 8).map (fun i => 0x84000000 + i * 4096) }).getD
    { machine := { memory := fun _ => 0, heap := [] }, directory := none, domains := ∅,
      pscidFree := [], pscidNext := 1 })

/-- Task 1 is loaded from a path, opens a file, gets the GPIO controller and a
PCIe device, and lets the device read and write a page. -/
def driverRun : List CellEvent :=
  [.spawn, .adoptCell 1, .finishCell 1 2, .dispatch 0 1, .openCap 1 7,
    .requestMmio 1 0x10012000 0x1000, .claimBdf 8 1, .grantDma 1 8 0x80000000 4096]

end CellKernel

end ViCell.Cells

import ViCell.Lib.Runs
import ViCell.Lib.TreeMaps
import ViCell.Memory.FrameAllocator

/-!
# Heap quotas of cells

`charge` and `refund` of `cell_quota.rs` and the allocator of `heap.rs` that
calls them. Both go by the cell that is current on the hart at that moment. The
inner heap is an environment: it places a block wherever it likes or fails, but
never twice at one address and never beyond the size of the heap. Every block
remembers the cell that was current when it was allocated; no function of the
source knows this.
-/

namespace ViCell.Memory

open Lib Function List TreeMaps

structure HeapQuota where
  limits : Std.TreeMap Nat Nat
  inUse : Nat → Nat

namespace HeapQuota

def maxCells : Nat := 64

def store (quota : HeapQuota) (cell bytes : Nat) : HeapQuota :=
  { quota with inUse := update quota.inUse cell bytes }

def register (quota : HeapQuota) (cell limit : Nat) : HeapQuota :=
  let cleared := if cell < maxCells then quota.store cell 0 else quota
  { cleared with limits := cleared.limits.insert cell limit }

def deregister (quota : HeapQuota) (cell : Nat) : HeapQuota :=
  let cleared := if cell < maxCells then quota.store cell 0 else quota
  { cleared with limits := cleared.limits.erase cell }

def charge (quota : HeapQuota) (cell size : Nat) : HeapQuota × Bool :=
  if cell = 0 then (quota, true)
  else
    let limit := (quota.limits[cell]?).getD usizeMax
    if maxCells ≤ cell then (quota, true)
    else
      let prev := quota.inUse cell
      let added := quota.store cell (usize (prev + size))
      if limit < min (prev + size) usizeMax then
        (added.store cell (wrappingSub (added.inUse cell) size), false)
      else (added, true)

def refund (quota : HeapQuota) (cell size : Nat) : HeapQuota :=
  if cell = 0 ∨ maxCells ≤ cell then quota
  else quota.store cell (quota.inUse cell - size)

def recordedUse (quota : HeapQuota) (cell : Nat) : Nat :=
  if cell < maxCells then quota.inUse cell else 0

section

variable (quota : HeapQuota)
include quota

@[simp]
theorem recorded_store (cell bytes other : Nat) :
    (quota.store cell bytes).recordedUse other =
      if other = cell then (if cell < maxCells then bytes else 0)
      else quota.recordedUse other := by
  by_cases same : other = cell
  all_goals simp [recordedUse, store, same]

theorem charge_tracked {cell size : Nat} (tracked : 0 < cell) (small : cell < maxCells)
    (fits : quota.inUse cell + size < 2 ^ 64) :
    quota.charge cell size =
      if (quota.limits[cell]?).getD usizeMax < quota.inUse cell + size then
        (quota.store cell (quota.inUse cell), false)
      else (quota.store cell (quota.inUse cell + size), true) := by
  have added : usize (quota.inUse cell + size) = quota.inUse cell + size := by
    unfold usize
    omega
  have bounded : min (quota.inUse cell + size) usizeMax = quota.inUse cell + size := by
    unfold usizeMax
    omega
  have restored : wrappingSub (quota.inUse cell + size) size = quota.inUse cell := by
    unfold wrappingSub
    omega
  unfold charge
  rw [if_neg (by omega)]
  dsimp only
  rw [if_neg (by omega), added, bounded]
  simp only [store, update_self, update_idem, restored]

theorem charge_recorded {cell size limit : Nat} (tracked : 0 < cell) (small : cell < maxCells)
    (fits : quota.recordedUse cell + size < 2 ^ 64) (found : quota.limits[cell]? = some limit)
    {after : HeapQuota} {granted : Bool} (charged : quota.charge cell size = (after, granted)) :
    (granted = false ∧ after.recordedUse cell = quota.recordedUse cell) ∨
      (granted = true ∧ after.recordedUse cell = quota.recordedUse cell + size ∧
        quota.recordedUse cell + size ≤ limit) := by
  have counter : quota.recordedUse cell = quota.inUse cell := if_pos small
  rw [counter] at fits ⊢
  rw [charge_tracked quota tracked small fits, found, Option.getD_some] at charged
  split at charged
  · cases charged
    refine Or.inl ⟨rfl, ?_⟩
    rw [recorded_store, if_pos rfl, if_pos small]
  · cases charged
    refine Or.inr ⟨rfl, ?_, by omega⟩
    rw [recorded_store, if_pos rfl, if_pos small]

theorem limits_refund (cell size : Nat) : (quota.refund cell size).limits = quota.limits := by
  unfold refund
  split <;> rfl

theorem limits_charge (cell size : Nat) : (quota.charge cell size).1.limits = quota.limits := by
  unfold charge
  split
  · rfl
  · dsimp only
    split
    · rfl
    · split <;> rfl

theorem recorded_refund_other {cell other : Nat} (apart : other ≠ cell) (size : Nat) :
    (quota.refund cell size).recordedUse other = quota.recordedUse other := by
  unfold refund
  split
  · rfl
  · simp only [recorded_store, if_neg apart]

theorem recorded_refund_self {cell : Nat} (tracked : 0 < cell) (size : Nat) :
    (quota.refund cell size).recordedUse cell = quota.recordedUse cell - size := by
  unfold refund
  split
  · have large : ¬ cell < maxCells := by omega
    unfold recordedUse
    rw [if_neg large, Nat.zero_sub]
  · have small : cell < maxCells := by omega
    rw [recorded_store, if_pos rfl, if_pos small]
    unfold recordedUse
    rw [if_pos small]

theorem recorded_register (cell limit other : Nat) :
    (quota.register cell limit).recordedUse other =
      if other = cell then 0 else quota.recordedUse other := by
  by_cases small : cell < maxCells
  · by_cases same : other = cell
    all_goals simp [register, recordedUse, store, small, same]
  · by_cases same : other = cell
    · simp [recordedUse, small, same]
    · simp [register, recordedUse, small, same]

theorem recorded_deregister (cell other : Nat) :
    (quota.deregister cell).recordedUse other =
      if other = cell then 0 else quota.recordedUse other :=
  recorded_register quota cell 0 other

theorem limits_register (cell limit : Nat) :
    (quota.register cell limit).limits = quota.limits.insert cell limit := by
  unfold register
  split <;> rfl

theorem limits_deregister (cell : Nat) :
    (quota.deregister cell).limits = quota.limits.erase cell := by
  unfold deregister
  split <;> rfl

end

end HeapQuota

structure HeapBlock where
  address : Nat
  size : Nat
  cell : Nat
  deriving DecidableEq, Repr

def heapSize : Nat := 4096 * 4096

structure QuotaHeap where
  quota : HeapQuota
  currentCell : Nat → Nat
  blocks : List HeapBlock

inductive HeapEvent where
  | switch (hart cell : Nat)
  /-- `placed` is what the inner heap answers if it is asked. -/
  | alloc (hart size : Nat) (placed : Option Nat)
  | free (hart address : Nat)
  | register (cell limit : Nat)
  | deregister (cell : Nat)
  deriving DecidableEq, Repr

namespace QuotaHeap

def initial : QuotaHeap where
  quota := { limits := ∅, inUse := fun _ => 0 }
  currentCell := fun _ => 0
  blocks := []

def liveBytes (heap : QuotaHeap) (cell : Nat) : Nat :=
  (heap.blocks.map (fun block => if block.cell = cell then block.size else 0)).sum

def totalBytes (heap : QuotaHeap) : Nat := (heap.blocks.map HeapBlock.size).sum

def blockAt (heap : QuotaHeap) (address : Nat) : Option HeapBlock :=
  heap.blocks.find? (fun block => decide (block.address = address))

/-- `QuotaAlloc::alloc`; a layout is smaller than `2 ^ 63` bytes. -/
def alloc (heap : QuotaHeap) (hart size : Nat) (placed : Option Nat) : Option QuotaHeap :=
  let cell := heap.currentCell hart
  if size < 2 ^ 63 then
    match heap.quota.charge cell size with
    | (quota, false) => some { heap with quota := quota }
    | (quota, true) =>
      match placed with
      | none => some { heap with quota := quota.refund cell size }
      | some address =>
        if heap.blockAt address = none ∧ heap.totalBytes + size ≤ heapSize then
          some { heap with quota := quota, blocks := ⟨address, size, cell⟩ :: heap.blocks }
        else none
  else none

/-- `QuotaAlloc::dealloc`; the layout is the one of the allocation. -/
def free (heap : QuotaHeap) (hart address : Nat) : Option QuotaHeap :=
  (heap.blockAt address).map (fun block =>
    { heap with
      quota := heap.quota.refund (heap.currentCell hart) block.size
      blocks := heap.blocks.erase block })

def step (heap : QuotaHeap) : HeapEvent → Option QuotaHeap
  | .switch hart cell =>
    some { heap with currentCell := update heap.currentCell hart cell }
  | .alloc hart size placed => heap.alloc hart size placed
  | .free hart address => heap.free hart address
  | .register cell limit => some { heap with quota := heap.quota.register cell limit }
  | .deregister cell => some { heap with quota := heap.quota.deregister cell }

/-- The condition on a step: a registered cell that allocates has a counter; a
block is freed under the cell it was allocated under, unless neither of the two
cells is registered; a cell is registered before it has any block. -/
def Meets (heap : QuotaHeap) : HeapEvent → Prop
  | .alloc hart _ _ =>
    heap.quota.limits[heap.currentCell hart]? = none ∨ heap.currentCell hart < HeapQuota.maxCells
  | .free hart address =>
    match heap.blockAt address with
    | none => True
    | some block =>
      block.cell = heap.currentCell hart ∨ (heap.quota.limits[block.cell]? = none ∧
          heap.quota.limits[heap.currentCell hart]? = none)
  | .register cell _ => 0 < cell ∧ heap.liveBytes cell = 0
  | _ => True

/-- For registered cells the counter is the number of live bytes. -/
structure Accounted (heap : QuotaHeap) : Prop where
  total : heap.totalBytes ≤ heapSize
  positive : ∀ cell limit : Nat, heap.quota.limits[cell]? = some limit → 0 < cell
  usage : ∀ cell limit : Nat, heap.quota.limits[cell]? = some limit →
    heap.quota.recordedUse cell = heap.liveBytes cell ∧ heap.liveBytes cell ≤ limit

theorem live_le_total (heap : QuotaHeap) (cell : Nat) : heap.liveBytes cell ≤ heap.totalBytes := by
  apply sum_le_sum
  intro block _
  split
  · exact Nat.le_refl _
  · exact Nat.zero_le _

theorem live_cons (heap : QuotaHeap) (block : HeapBlock) (quota : HeapQuota) (cell : Nat) :
    liveBytes { heap with quota := quota, blocks := block :: heap.blocks } cell =
      (if block.cell = cell then block.size else 0) + heap.liveBytes cell := by
  simp only [liveBytes, map_cons, sum_cons]

theorem live_erase (heap : QuotaHeap) {block : HeapBlock} (mem : block ∈ heap.blocks)
    (quota : HeapQuota) (cell : Nat) :
    (if block.cell = cell then block.size else 0) +
      liveBytes { heap with quota := quota, blocks := heap.blocks.erase block } cell =
      heap.liveBytes cell :=
  sum_map_erase (fun other : HeapBlock => if other.cell = cell then other.size else 0) mem

section

variable {heap after : QuotaHeap}

theorem accounted_initial : initial.Accounted where
  total := Nat.zero_le _
  positive := by
    intro cell limit found
    simp [initial] at found
  usage := by
    intro cell limit found
    simp [initial] at found

section

variable (accounted : heap.Accounted)
include accounted

theorem Accounted.with_quota {quota : HeapQuota} (limits : quota.limits = heap.quota.limits)
    (same : ∀ cell limit : Nat, heap.quota.limits[cell]? = some limit →
      quota.recordedUse cell = heap.quota.recordedUse cell) :
    Accounted { heap with quota := quota } where
  total := accounted.total
  positive := by
    intro cell limit found
    exact accounted.positive cell limit (limits ▸ found)
  usage := by
    intro cell limit found
    have registered : heap.quota.limits[cell]? = some limit := limits ▸ found
    obtain ⟨usage, bounded⟩ := accounted.usage cell limit registered
    exact ⟨(same cell limit registered).trans usage, bounded⟩

theorem Accounted.charge_cases {cell size limit : Nat}
    (met : heap.quota.limits[cell]? = none ∨ cell < HeapQuota.maxCells) (layout : size < 2 ^ 63)
    {quota : HeapQuota} {granted : Bool} (charged : heap.quota.charge cell size = (quota, granted))
    (found : heap.quota.limits[cell]? = some limit) :
    (granted = false ∧ quota.recordedUse cell = heap.liveBytes cell) ∨
      (granted = true ∧ quota.recordedUse cell = heap.liveBytes cell + size ∧
        heap.liveBytes cell + size ≤ limit) := by
  have small : cell < HeapQuota.maxCells := by
    rcases met with gone | small
    · rw [gone] at found
      cases found
    · exact small
  obtain ⟨usage, _⟩ := accounted.usage cell limit found
  have live := heap.live_le_total cell
  have total := accounted.total
  have size_small : heapSize < 2 ^ 63 := by decide
  have fits : heap.quota.recordedUse cell + size < 2 ^ 64 := by
    omega
  have cases_ := heap.quota.charge_recorded (accounted.positive cell limit found) small fits found
    charged
  rw [usage] at cases_
  exact cases_

theorem Accounted.alloc {hart size : Nat} {placed : Option Nat}
    (met : heap.Meets (.alloc hart size placed)) (run : heap.alloc hart size placed = some after) :
    after.Accounted := by
  unfold QuotaHeap.alloc at run
  dsimp only at run
  split at run
  · rename_i layout
    have limits := heap.quota.limits_charge (heap.currentCell hart) size
    have others : ∀ cell, cell ≠ heap.currentCell hart →
        (heap.quota.charge (heap.currentCell hart) size).1.recordedUse cell =
          heap.quota.recordedUse cell := by
      intro cell apart
      unfold HeapQuota.charge
      split
      · rfl
      · dsimp only
        split
        · rfl
        · split <;> simp only [HeapQuota.recorded_store, if_neg apart]
    split at run
    · -- The quota is exceeded, and the counter is back where it was.
      rename_i quota charged
      cases run
      rw [charged] at limits others
      refine accounted.with_quota limits ?_
      intro cell limit found
      by_cases same : cell = heap.currentCell hart
      · subst same
        rcases accounted.charge_cases met layout charged found with refused | granted
        · rw [refused.2, (accounted.usage _ limit found).1]
        · cases granted.1
      · exact others cell same
    · rename_i quota charged
      rw [charged] at limits others
      split at run
      · -- The inner heap is full, and the charge is refunded.
        cases run
        refine accounted.with_quota ((quota.limits_refund _ _).trans limits) ?_
        intro cell limit found
        by_cases same : cell = heap.currentCell hart
        · subst same
          rcases accounted.charge_cases met layout charged found with refused | granted
          · cases refused.1
          · rw [quota.recorded_refund_self (accounted.positive _ limit found), granted.2.1,
              Nat.add_sub_cancel, (accounted.usage _ limit found).1]
        · rw [quota.recorded_refund_other same]
          exact others cell same
      · split at run
        · rename_i addr room
          cases run
          refine ⟨?_, ?_, ?_⟩
          · change size + heap.totalBytes ≤ heapSize
            omega
          · intro cell limit found
            exact accounted.positive cell limit (limits ▸ found)
          · intro cell limit found
            have registered : heap.quota.limits[cell]? = some limit := limits ▸ found
            rw [live_cons]
            by_cases same : cell = heap.currentCell hart
            · subst same
              rcases accounted.charge_cases met layout charged registered with refused | granted
              · cases refused.1
              · rw [if_pos rfl]
                refine ⟨granted.2.1.trans (Nat.add_comm _ _), ?_⟩
                rw [Nat.add_comm]
                exact granted.2.2
            · rw [if_neg (fun other => same other.symm), Nat.zero_add]
              obtain ⟨usage, bounded⟩ := accounted.usage cell limit registered
              exact ⟨(others cell same).trans usage, bounded⟩
        · cases run
  · cases run

theorem Accounted.free {hart addr : Nat} (met : heap.Meets (.free hart addr))
    (run : heap.free hart addr = some after) : after.Accounted := by
  obtain ⟨block, located, same⟩ := Option.map_eq_some_iff.mp run
  subst same
  have mem : block ∈ heap.blocks := mem_of_find?_eq_some located
  have limits := heap.quota.limits_refund (heap.currentCell hart) block.size
  have condition : block.cell = heap.currentCell hart ∨ (heap.quota.limits[block.cell]? = none ∧
        heap.quota.limits[heap.currentCell hart]? = none) := by
    dsimp only [Meets] at met
    rw [located] at met
    exact met
  have total : (heap.blocks.erase block |>.map HeapBlock.size).sum ≤ heap.totalBytes :=
    (erase_sublist.map HeapBlock.size).sum_le_sum (fun _ _ => Nat.zero_le _)
  refine ⟨Nat.le_trans total accounted.total, ?_, ?_⟩
  · intro cell limit found
    exact accounted.positive cell limit (limits ▸ found)
  · intro cell limit found
    have registered : heap.quota.limits[cell]? = some limit := limits ▸ found
    have rest := heap.live_erase mem
      (heap.quota.refund (heap.currentCell hart) block.size) cell
    obtain ⟨usage, bounded⟩ := accounted.usage cell limit registered
    by_cases owner : block.cell = cell
    · rw [if_pos owner] at rest
      have current : cell = heap.currentCell hart := by
        rcases condition with same | unregistered
        · exact owner.symm.trans same
        · rw [owner, registered] at unregistered
          cases unregistered.1
      subst current
      rw [heap.quota.recorded_refund_self (accounted.positive _ limit registered)]
      omega
    · rw [if_neg owner, Nat.zero_add] at rest
      have apart : cell ≠ heap.currentCell hart := by
        intro current
        rcases condition with same | unregistered
        · exact owner (same.trans current.symm)
        · rw [← current, registered] at unregistered
          cases unregistered.2
      rw [rest]
      exact ⟨(heap.quota.recorded_refund_other apart _).trans usage, bounded⟩

theorem Accounted.register {cell : Nat} (limit : Nat) (pos : 0 < cell)
    (unused : heap.liveBytes cell = 0) :
    Accounted { heap with quota := heap.quota.register cell limit } := by
  refine ⟨accounted.total, ?_, ?_⟩
  · intro other otherLimit found
    rw [HeapQuota.limits_register, get_insert_eq_some] at found
    rcases found with ⟨same, _⟩ | ⟨_, earlier⟩
    · exact same ▸ pos
    · exact accounted.positive other otherLimit earlier
  · intro other otherLimit found
    rw [HeapQuota.limits_register, get_insert_eq_some] at found
    rw [HeapQuota.recorded_register]
    change _ = heap.liveBytes other ∧ heap.liveBytes other ≤ otherLimit
    rcases found with ⟨same, _⟩ | ⟨apart, earlier⟩
    · rw [if_pos same, same, unused]
      exact ⟨rfl, Nat.zero_le _⟩
    · rw [if_neg apart]
      exact accounted.usage other otherLimit earlier

theorem Accounted.deregister (cell : Nat) :
    Accounted { heap with quota := heap.quota.deregister cell } := by
  refine ⟨accounted.total, ?_, ?_⟩
  · intro other otherLimit found
    rw [HeapQuota.limits_deregister, get_erase_eq_some] at found
    exact accounted.positive other otherLimit found.2
  · intro other otherLimit found
    rw [HeapQuota.limits_deregister, get_erase_eq_some] at found
    rw [HeapQuota.recorded_deregister, if_neg found.1]
    exact accounted.usage other otherLimit found.2

theorem step_accounted {event : HeapEvent} (met : heap.Meets event)
    (ran : heap.step event = some after) : after.Accounted := by
  cases event with
  | switch =>
    cases ran
    exact ⟨accounted.total, accounted.positive, accounted.usage⟩
  | alloc => exact accounted.alloc met ran
  | free => exact accounted.free met ran
  | register _ limit =>
    cases ran
    exact accounted.register limit met.1 met.2
  | deregister cell =>
    cases ran
    exact accounted.deregister cell

end

end

instance (heap : QuotaHeap) (event : HeapEvent) : Decidable (heap.Meets event) := by
  unfold Meets
  split
  case h_2 => split <;> infer_instance
  all_goals infer_instance

/-- In every run whose steps meet the condition, the usage recorded for each
registered cell is the number of bytes that were allocated while it was current
and are still allocated, and it is within the cell's limit. -/
theorem recorded_use_is_live_bytes {heap : QuotaHeap} (reached : Reaches step Meets initial heap) :
    ∀ cell limit : Nat, heap.quota.limits[cell]? = some limit →
      heap.quota.recordedUse cell = heap.liveBytes cell ∧ heap.quota.recordedUse cell ≤ limit := by
  have accounted : heap.Accounted := reached.invariant
    (fun _ _ _ held met stepped => step_accounted held met stepped) accounted_initial
  intro cell limit found
  obtain ⟨usage, bounded⟩ := accounted.usage cell limit found
  exact ⟨usage, usage ▸ bounded⟩

/-- Two cells allocate and free, one of them beyond its limit once. -/
def fairRun : List HeapEvent :=
  [.register 1 100, .register 2 100, .switch 0 1, .alloc 0 60 (some 4096), .switch 1 2,
    .alloc 1 90 (some 8192), .alloc 0 60 (some 12288), .free 1 8192, .alloc 1 30 none,
    .alloc 1 40 (some 8192)]

theorem fair_run_accounted : ∃ heap, runEvents step initial fairRun = some heap ∧
      heap.quota.recordedUse 1 = 60 ∧ heap.liveBytes 1 = 60 ∧ heap.liveBytes 2 = 40 := by
  have evaluated : (runEvents step initial fairRun).map (fun heap =>
      (heap.quota.recordedUse 1, heap.quota.recordedUse 2, heap.quota.limits[1]?,
        heap.quota.limits[2]?)) = some (60, 40, some 100, some 100) := by
    decide +kernel
  obtain ⟨heap, executed, values⟩ := Option.map_eq_some_iff.mp evaluated
  have met : AllMeet step Meets initial fairRun := by decide +kernel
  obtain ⟨first, rest⟩ := Prod.mk.inj values
  obtain ⟨second, limits⟩ := Prod.mk.inj rest
  obtain ⟨firstLimit, secondLimit⟩ := Prod.mk.inj limits
  have accounted := recorded_use_is_live_bytes (reaches_of_run executed met)
  refine ⟨heap, executed, first, ?_, ?_⟩
  · rw [← (accounted 1 100 firstLimit).1, first]
  · rw [← (accounted 2 100 secondLimit).1, second]

/-- A block freed under another cell stays charged to the first one, and a cell
with an id from 64 on is neither counted nor limited. -/
theorem foreign_free_keeps_charge :
    ((runEvents step initial [.register 1 100, .register 2 100, .switch 0 1,
        .alloc 0 60 (some 4096), .switch 0 2, .alloc 0 50 (some 8192), .free 0 4096]).map
      (fun heap => [heap.quota.recordedUse 1, heap.liveBytes 1, heap.quota.recordedUse 2,
        heap.liveBytes 2])) = some [60, 0, 0, 50] ∧
    ((runEvents step initial [.register 64 100, .switch 0 64, .alloc 0 500 (some 4096)]).map
      (fun heap => [heap.quota.recordedUse 64, heap.liveBytes 64])) = some [0, 500] := by
  decide +kernel

end QuotaHeap

end ViCell.Memory

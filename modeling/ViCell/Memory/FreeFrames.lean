import ViCell.Lib.Runs
import ViCell.Memory.SegmentPages

/-!
# Runs of stacks, grants and segments

One step is one lock hold of `FRAME_ALLOCATOR`, so the three parts of a grant
allocation interleave with everything else. `held` is what the callers hold: a
stack, a grant at some point of its allocation, or a cell's segments.
-/

namespace ViCell.Memory

open Lib List Option FrameAllocator

inductive Holding where
  | stack (stack : Stack)
  | reserved (base pages : Nat)
  | halfMapped (base pages mapped : Nat)
  | grant (base pages : Nat)
  | segments (pages : List MappedPage)
  deriving DecidableEq, Repr

namespace Holding

def frames : Holding → List Nat
  | .stack owned => pagesFrom owned.base 0 (Stack.totalPages owned.pages owned.hasGuard)
  | .reserved base pages => pagesFrom base 0 pages
  | .halfMapped base pages _ => pagesFrom base 0 pages
  | .grant base pages => pagesFrom base 0 pages
  | .segments _ => []

def segmentPages : Holding → List MappedPage
  | .segments pages => pages
  | _ => []

end Holding

structure KernelMemory where
  machine : Machine
  held : List Holding

inductive MemoryCall where
  | newKernelStack (pages : Nat)
  | newUserStack (pages : Nat)
  | dropStack (position : Nat)
  | reserveGrant (pages : Nat)
  | mapGrant (position : Nat)
  | undoGrant (position : Nat)
  | freeGrant (position : Nat)
  | loadSegments (dataLen : Nat) (headers : List ProgramHeader)
  | eagerUnmap (position : Nat)
  | dropSegments (position : Nat)
  deriving DecidableEq, Repr

namespace KernelMemory

def heldFrames (held : List Holding) : List Nat := held.flatMap Holding.frames

def heldPages (held : List Holding) : List MappedPage := held.flatMap Holding.segmentPages

def keepStack (state : KernelMemory) : Machine × Except ViError Stack → KernelMemory
  | (machine, .ok stack) => { machine := machine, held := .stack stack :: state.held }
  | (machine, .error _) => { state with machine := machine }

/-- A call, on the holding at a position of the list; `none` is a panic, or a
call that no holder can make. -/
def step (root : Nat) (state : KernelMemory) : MemoryCall → Option KernelMemory
  | .newKernelStack pages => (Stack.newKernel root state.machine pages).map state.keepStack
  | .newUserStack pages => (Stack.newUser root state.machine pages).map state.keepStack
  | .dropStack position =>
    match state.held[position]? with
    | some (.stack stack) =>
      some { machine := stack.drop root state.machine, held := state.held.eraseIdx position }
    | _ => none
  | .reserveGrant pages =>
    match state.machine.allocator.allocateContiguous pages with
    | none => none
    | some (allocator, none) =>
      some { state with machine := { state.machine with allocator := allocator } }
    | some (allocator, some base) =>
      some { machine := { state.machine with allocator := allocator }
             held := .reserved base pages :: state.held }
  | .mapGrant position =>
    match state.held[position]? with
    | some (.reserved base pages) =>
      let mapped := mapGrantPages root base pages state.machine
      some { machine := mapped.1
             held := (if mapped.2 < pages then .halfMapped base pages mapped.2
               else .grant base pages) :: state.held.eraseIdx position }
    | _ => none
  | .undoGrant position =>
    match state.held[position]? with
    | some (.halfMapped base pages mapped) =>
      some { machine := undoGrantPages root base pages mapped state.machine
             held := state.held.eraseIdx position }
    | _ => none
  | .freeGrant position =>
    match state.held[position]? with
    | some (.grant base pages) =>
      some { machine := freeGrantPages root base pages state.machine
             held := state.held.eraseIdx position }
    | _ => none
  | .loadSegments dataLen headers =>
    match ElfLoader.loadSegments root dataLen headers state.machine with
    | none => none
    | some (machine, .error _) => some { state with machine := machine }
    | some (machine, .ok pages) =>
      some { machine := machine, held := .segments pages :: state.held }
  | .eagerUnmap position =>
    match state.held[position]? with
    | some (.segments pages) =>
      some { state with machine := CellSegments.eagerUnmap root pages state.machine }
    | _ => none
  | .dropSegments position =>
    match state.held[position]? with
    | some (.segments pages) =>
      some { machine := CellSegments.drop root pages state.machine
             held := state.held.eraseIdx position }
    | _ => none

end KernelMemory

open KernelMemory

/-- Every holder's frames are accounted for, and no grant is half mapped: the
tables for all of RAM are there since boot. -/
structure FreeAtHome (root : Nat) (state : KernelMemory) : Prop where
  kept : HomeKept root state.machine (heldFrames state.held) (heldPages state.held)
  whole : ∀ base pages mapped, Holding.halfMapped base pages mapped ∉ state.held

variable {root : Nat} {state after : KernelMemory}

theorem held_perm {held : List Holding} {pos : Nat} {holding : Holding}
    (found : held[pos]? = some holding) :
    held.Perm (holding :: held.eraseIdx pos) := by
  obtain ⟨inside, same⟩ := List.getElem?_eq_some_iff.mp found
  rw [← same]
  exact (getElem_cons_eraseIdx_perm inside).symm

theorem FreeAtHome.split {pos : Nat} {holding : Holding} (kept : FreeAtHome root state)
    (found : state.held[pos]? = some holding) :
    HomeKept root state.machine (holding.frames ++ heldFrames (state.held.eraseIdx pos))
      (holding.segmentPages ++ heldPages (state.held.eraseIdx pos)) := by
  have order := held_perm found
  have frames := order.flatMap_right Holding.frames
  have segments := order.flatMap_right Holding.segmentPages
  exact kept.kept.fewer frames.symm.subperm segments.symm.subperm

theorem FreeAtHome.whole_erase (kept : FreeAtHome root state) (position : Nat) :
    ∀ base pages mapped, Holding.halfMapped base pages mapped ∉ state.held.eraseIdx position := by
  intro base pages mapped mem
  exact kept.whole base pages mapped (mem_of_mem_eraseIdx mem)

theorem whole_cons {held : List Holding} {holding : Holding}
    (whole : ∀ base pages mapped, Holding.halfMapped base pages mapped ∉ held)
    (mapped : ∀ base pages count, Holding.halfMapped base pages count ≠ holding) :
    ∀ base pages mapped, Holding.halfMapped base pages mapped ∉ holding :: held := by
  intro base pages count mem
  rcases mem_cons.mp mem with same | old
  · exact mapped base pages count same
  · exact whole base pages count old

theorem contiguous_zero {pool next : FrameAllocator} {base : Nat}
    (run : pool.allocateContiguous 0 = some (next, some base)) :
    base = pool.frameIndexToAddr 0 := by
  have first : (range (pool.totalFrames - 0 + 1)).find? (pool.runFree 0) = some 0 := by
    rw [range_succ_eq_map]
    rfl
  unfold allocateContiguous at run
  rw [if_neg (by decide), first] at run
  obtain ⟨_, _, same⟩ := map_eq_some_iff.mp run
  cases same
  rfl

/-- The region's first frame holds the bitmap: it is never free and never owned. -/
theorem first_frame_stray {machine : Machine} {held : List Nat} {pages : List MappedPage}
    (kept : HomeKept root machine held pages) :
    Stray machine pages machine.allocator.memoryStart := by
  have words := kept.paged.placed.words
  have notFirst : ∀ idx, machine.allocator.bitmapPages ≤ idx → idx < machine.allocator.totalFrames →
      machine.allocator.frameAt idx ≠ machine.allocator.memoryStart := by
    intro idx behind inside same
    unfold bitmapPages at behind
    unfold frameAt at same
    unfold pageSize at behind same
    omega
  refine ⟨?_, ?_⟩
  · intro idx inside unused
    exact notFirst idx (free_behind_bitmap kept.paged.placed unused) inside
  · intro page listed
    obtain ⟨idx, behind, taken, same⟩ := kept.owned page.frame
      (mem_append_right _ (mem_map_of_mem listed))
    rw [same]
    exact notFirst idx behind (allocated_inside taken)

theorem pages_from_subset (base count : Nat) {frame : Nat}
    (mem : frame ∈ pagesFrom base 1 (count - 1)) : frame ∈ pagesFrom base 0 count := by
  obtain ⟨i, inside, same⟩ := mem_map.mp mem
  rw [mem_range'_1] at inside
  exact mem_map.mpr ⟨i, mem_range'_1.mpr (by omega), same⟩

theorem stack_frames_kept {machine next : Machine} {held : List Nat} {pages : List MappedPage}
    {total base : Nat} (flags : Word) (first : total = 0 → base = machine.allocator.memoryStart)
    (inRange : base < 2 ^ 64)
    (kept : HomeKept root machine (pagesFrom base 0 total ++ held) pages)
    (run : (mapRun root flags base 1 (total - 1) machine).1 = next) :
    HomeKept root next (pagesFrom base 0 total ++ held) pages ∧
      HomeKept root (PageTable.unmap root next base) (pagesFrom base 0 total ++ held) pages := by
  obtain ⟨mapped, _, quiet⟩ := kept.map_run flags base (total - 1)
    (fun frame mem => mem_append_left _ (pages_from_subset base total mem))
  rw [run] at mapped quiet
  refine ⟨mapped, ?_⟩
  by_cases empty : total = 0
  · have place := first empty
    rw [← quiet] at place
    have extent := mapped.paged.placed.extent
    have low := mapped.paged.low
    have stray := first_frame_stray mapped
    have aligned := mapped.paged.placed.aligned
    rw [← place] at stray aligned
    exact mapped.unmap (by omega) aligned stray
  · have itself : pageAt base 0 = base := by
      unfold pageAt usize
      rw [Nat.zero_mul, Nat.add_zero, Nat.mod_eq_of_lt inRange]
    have mem : base ∈ pagesFrom base 0 total ++ held := by
      obtain ⟨_, same⟩ := Nat.exists_eq_succ_of_ne_zero empty
      rw [same, pages_from_cons, itself]
      simp
    exact (mapped.unmap_held mem).1

section

variable (kept : FreeAtHome root state)
include kept

theorem stack_kept {pages : Nat} {userMode : Bool} {out : Machine × Except ViError Stack}
    (run : Stack.allocate root state.machine pages true userMode = some out) :
    FreeAtHome root (state.keepStack out) := by
  unfold Stack.allocate at run
  dsimp only at run
  split at run
  next => cases run
  next pool contiguous =>
    cases run
    rw [allocate_contiguous_none kept.kept.paged.placed contiguous]
    exact kept
  next pool base contiguous =>
    obtain ⟨start, takes, addr⟩ := allocate_contiguous_some kept.kept.paged.placed contiguous
    have taken := kept.kept.take_held takes
    rw [← run_frames_eq kept.kept.paged.placed takes.inside, ← addr] at taken
    have inRange : base < 2 ^ 64 := by
      rw [addr]
      exact Nat.mod_lt _ (by decide)
    have first : Stack.totalPages pages true = 0 → base = pool.memoryStart := by
      intro empty
      rw [empty] at contiguous
      have extent := kept.kept.paged.placed.extent
      have addressable := kept.kept.paged.placed.addressable
      rw [contiguous_zero contiguous, takes.region.start]
      unfold frameIndexToAddr usize
      rw [Nat.zero_mul, Nat.add_zero, Nat.mod_eq_of_lt (by omega)]
    generalize (if userMode = true then Flags.userRw else Flags.kernelRw) = flags at run
    obtain ⟨mapped, unmapped⟩ := stack_frames_kept flags first inRange taken rfl
    simp only [if_true] at run
    split at run
    next =>
      cases run
      exact ⟨mapped.fewer (sublist_append_right _ _).subperm (Subperm.refl _), kept.whole⟩
    next =>
      cases run
      exact ⟨unmapped, whole_cons kept.whole nofun⟩

theorem reserve_grant_kept {pages : Nat}
    (ran : state.step root (.reserveGrant pages) = some after) : FreeAtHome root after := by
  simp only [step] at ran
  split at ran
  next => cases ran
  next pool contiguous =>
    cases ran
    rw [allocate_contiguous_none kept.kept.paged.placed contiguous]
    exact kept
  next pool base contiguous =>
    cases ran
    obtain ⟨start, takes, addr⟩ := allocate_contiguous_some kept.kept.paged.placed contiguous
    have taken := kept.kept.take_held takes
    rw [← run_frames_eq kept.kept.paged.placed takes.inside, ← addr] at taken
    exact ⟨taken, whole_cons kept.whole nofun⟩

theorem map_grant_kept {pos : Nat}
    (ran : state.step root (.mapGrant pos) = some after) : FreeAtHome root after := by
  simp only [step] at ran
  split at ran
  next base pages found =>
    cases ran
    obtain ⟨mapped, _, _⟩ := (kept.split found).map_run Flags.userRw base pages
      (fun frame mem => mem_append_left _ mem)
    have whole : ¬ (mapGrantPages root base pages state.machine).2 < pages := by
      unfold mapGrantPages
      omega
    rw [if_neg whole]
    exact ⟨mapped, whole_cons (kept.whole_erase pos) nofun⟩
  next => cases ran

theorem load_segments_kept {dataLen : Nat} {headers : List ProgramHeader}
    (ran : state.step root (.loadSegments dataLen headers) = some after) :
    FreeAtHome root after := by
  simp only [step] at ran
  split at ran
  next => cases ran
  next machine error loading =>
    cases ran
    have outcome := kept.kept.load_segments loading
    exact ⟨outcome, kept.whole⟩
  next machine pages loading =>
    cases ran
    have outcome : Loading root machine (heldFrames state.held) (heldPages state.held) pages :=
      kept.kept.load_segments loading
    exact ⟨outcome.kept, whole_cons kept.whole nofun⟩

theorem step_kept {call : MemoryCall} (ran : state.step root call = some after) :
    FreeAtHome root after := by
  cases call with
  | newKernelStack pages | newUserStack pages =>
    obtain ⟨_, run, same⟩ := map_eq_some_iff.mp ran
    rw [← same]
    exact stack_kept kept run
  | dropStack pos =>
    simp only [step] at ran
    split at ran
    next stack found =>
      cases ran
      exact ⟨(kept.split found).release_run _ _, kept.whole_erase pos⟩
    next => cases ran
  | reserveGrant => exact reserve_grant_kept kept ran
  | mapGrant => exact map_grant_kept kept ran
  | undoGrant =>
    simp only [step] at ran
    split at ran
    next base pages mapped found =>
      exact absurd (mem_of_getElem? found) (kept.whole base pages mapped)
    next => cases ran
  | freeGrant pos =>
    simp only [step] at ran
    split at ran
    next base pages found =>
      cases ran
      exact ⟨(kept.split found).release_run _ _, kept.whole_erase pos⟩
    next => cases ran
  | loadSegments => exact load_segments_kept kept ran
  | eagerUnmap =>
    simp only [step] at ran
    split at ran
    next pages found =>
      cases ran
      refine ⟨kept.kept.eager_unmap pages ?_, kept.whole⟩
      intro page mem
      exact mem_flatMap.mpr ⟨_, mem_of_getElem? found, mem⟩
    next => cases ran
  | dropSegments pos =>
    simp only [step] at ran
    split at ran
    next pages found =>
      cases ran
      exact ⟨(kept.split found).drop_segments pages, kept.whole_erase pos⟩
    next => cases ran

end

end ViCell.Memory

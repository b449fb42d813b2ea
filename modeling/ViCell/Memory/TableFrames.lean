import ViCell.Lib.RadixTable
import ViCell.Memory.FrameOps

/-!
# Radix tables in frames of the allocator

Translation tables take their pages from the frame allocator. While every byte
of every table lies in an allocated frame, a frame the allocator hands out
overlaps no table, so it can be zeroed and linked without disturbing any leaf.
-/

namespace ViCell.Memory

open Lib Lib.RadixTable

def ByteTaken (allocator : FrameAllocator) (place : Nat) : Prop :=
  ∃ idx, allocator.isFrameAllocated idx = true ∧ allocator.memoryStart + idx * pageSize ≤ place ∧
    place < allocator.memoryStart + idx * pageSize + pageSize

variable {before after : FrameAllocator}

theorem byte_taken_mono {place : Nat} (region : before.SameRegion after)
    (keeps : ∀ idx, before.isFrameAllocated idx = true → after.isFrameAllocated idx = true)
    (taken : ByteTaken before place) : ByteTaken after place := by
  obtain ⟨idx, allocated, above, below⟩ := taken
  refine ⟨idx, keeps idx allocated, ?_, ?_⟩
  · rw [region.start]
    exact above
  · rw [region.start]
    exact below

theorem takes_keeps {start count : Nat} (takes : before.TakesRun after start count) (idx : Nat)
    (taken : before.isFrameAllocated idx = true) : after.isFrameAllocated idx = true := by
  rw [takes.taken, taken, Bool.true_or]

theorem byte_taken_run {start count offset : Nat} (takes : before.TakesRun after start count)
    (within : offset < count * pageSize) :
    ByteTaken after (before.memoryStart + start * pageSize + offset) := by
  have size : pageSize = 4096 := rfl
  rw [size] at within
  refine ⟨start + offset / 4096, ?_, ?_, ?_⟩
  · rw [takes.taken, Bool.or_eq_true, decide_eq_true_eq]
    omega
  all_goals
    rw [takes.region.start, size]
    omega

section Tables

variable {Word Key : Type} (format : Format Word)

/-- The tables form a forest inside allocated frames. -/
structure TablesTaken (roots : Key → Option Nat) (allocator : FrameAllocator)
    (memory : Nat → Word) : Prop where
  forest : Forest format memory roots
  taken : ∀ key path table, Fits format path → reach format memory roots key path = some table →
    ∀ offset, offset < extent format path → ByteTaken allocator (table + offset)

def SameLeaves (roots : Key → Option Nat) (before after : Nat → Word) : Prop :=
  ∀ key path index, Fits format path → path.length = format.depth →
    index < format.entries path.length →
    leafAt format after roots key path index = leafAt format before roots key path index

variable {format} {roots : Key → Option Nat} {allocator after : FrameAllocator}
variable {memory : Nat → Word}

theorem same_leaves_refl : SameLeaves format roots memory memory :=
  fun _ _ _ _ _ _ => rfl

section

variable (tables : TablesTaken format roots allocator memory)
include tables

theorem TablesTaken.mono (region : allocator.SameRegion after)
    (keeps : ∀ idx, allocator.isFrameAllocated idx = true → after.isFrameAllocated idx = true) :
    TablesTaken format roots after memory where
  forest := tables.forest
  taken := by
    intro key path table fits found offset within
    exact byte_taken_mono region keeps (tables.taken key path table fits found offset within)

theorem TablesTaken.fresh {start count entries : Nat}
    (free : ∀ idx, start ≤ idx → idx < start + count → allocator.isFrameAllocated idx = false)
    (pos : ∀ level, 0 < format.entries level) (nonempty : 0 < count)
    (size : 8 * entries = count * pageSize) :
    Fresh format memory roots (allocator.memoryStart + start * pageSize) entries := by
  intro key path place fits found
  by_contra overlap
  rw [not_or, size] at overlap
  have page : pageSize = 4096 := rfl
  have bytes : 0 < extent format path := by
    have entry := pos path.length
    unfold extent
    omega
  -- the first common byte is in an allocated frame and in the free run
  have common : ∃ offset, offset < extent format path ∧
      allocator.memoryStart + start * pageSize ≤ place + offset ∧
      place + offset < allocator.memoryStart + (start + count) * pageSize := by
    rw [page] at overlap ⊢
    by_cases later : place ≤ allocator.memoryStart + start * 4096
    · exact ⟨allocator.memoryStart + start * 4096 - place, by omega, by omega, by omega⟩
    · exact ⟨0, by omega, by omega, by omega⟩
  obtain ⟨offset, within, above, below⟩ := common
  obtain ⟨idx, taken, frameAbove, frameBelow⟩ := tables.taken key path place fits found
    offset within
  rw [page] at above below frameAbove frameBelow
  rw [free idx (by omega) (by omega)] at taken
  cases taken

theorem TablesTaken.give {freed entries : Nat}
    (gives : allocator.GivesBack after freed) (size : 8 * entries = pageSize)
    (fresh : Fresh format memory roots (allocator.memoryStart + freed * pageSize) entries) :
    TablesTaken format roots after memory where
  forest := tables.forest
  taken := by
    intro key path table fits found offset within
    obtain ⟨idx, allocated, above, below⟩ := tables.taken key path table fits found offset within
    have apart := fresh key path table fits found
    have ne : idx ≠ freed := by
      intro same
      subst same
      omega
    refine ⟨idx, ?_, ?_, ?_⟩
    · rw [gives.taken, allocated]
      simp [ne]
    · rw [gives.region.start]
      exact above
    · rw [gives.region.start]
      exact below

end

section Link

variable {key : Key} {path : List Nat} {table index page : Nat} {word : Word}

/-- What linking a fresh table at the end of `path` does. -/
structure Linked (format : Format Word) (roots : Key → Option Nat) (key : Key) (path : List Nat)
    (page : Nat) (allocator : FrameAllocator) (before after : Nat → Word) : Prop where
  tables : TablesTaken format roots allocator after
  leaves : SameLeaves format roots before after
  found : reach format after roots key path = some page
  origin : ∀ otherKey other place, Fits format other →
    reach format after roots otherKey other = some place →
    place = page ∨ reach format before roots otherKey other = some place
  kept : ∀ otherKey other place, Fits format other →
    reach format before roots otherKey other = some place →
    reach format after roots otherKey other = some place
  others : ∀ otherKey other, otherKey ≠ key → Fits format other →
    reach format after roots otherKey other = reach format before roots otherKey other

theorem TablesTaken.link {frame : Nat} (tables : TablesTaken format roots allocator memory)
    (takes : allocator.TakesRun after frame 1)
    (pos : ∀ level, 0 < format.entries level)
    (oneFrame : 8 * format.entries (path.length + 1) = pageSize)
    (fits : Fits format (path ++ [index])) (parent : reach format memory roots key path = some table)
    (empty : format.child (memory (slot table index)) = none)
    (pointer : format.child word = some page)
    (here : page = allocator.memoryStart + frame * pageSize) :
    Linked format roots key (path ++ [index]) page after memory
      (RadixTable.link format memory page (format.entries (path.length + 1))
        (slot table index) word) := by
  have fresh : Fresh format memory roots page (format.entries (path.length + 1)) := by
    rw [here]
    exact tables.fresh takes.free pos Nat.one_pos (by rw [oneFrame, Nat.one_mul])
  have gone : Missing format memory roots key path table index page word :=
    ⟨tables.forest, fits, parent, empty, fresh, pointer⟩
  refine ⟨⟨forest_link gone, ?_⟩, ?_, ?_, ?_, ?_, ?_⟩
  · intro otherKey other place otherFits found offset within
    rcases reach_link_cases gone otherFits found with ⟨isNew, samePage⟩ | ⟨_, old⟩
    · rw [samePage, here]
      apply byte_taken_run takes
      rw [(Prod.mk.inj isNew).2] at within
      unfold extent at within
      rw [List.length_append, List.length_singleton] at within
      omega
    · exact byte_taken_mono takes.region (takes_keeps takes)
        (tables.taken otherKey other place otherFits old offset within)
  · intro otherKey other idx otherFits full bounded
    exact leaf_link gone otherKey otherFits full bounded
  · exact reach_link_new gone
  · intro otherKey other place otherFits found
    exact (reach_link_cases gone otherFits found).imp (fun new => new.2) (fun old => old.2)
  · intro otherKey other place otherFits found
    exact reach_link_kept gone otherFits found
  · intro otherKey other ne otherFits
    exact reach_link_other gone otherFits (fun both => ne both.1)

theorem TablesTaken.root [DecidableEq Key] (key : Key) {start count : Nat}
    (tables : TablesTaken format roots allocator memory)
    (takes : allocator.TakesRun after start count)
    (pos : ∀ level, 0 < format.entries level) (nonempty : 0 < count)
    (size : 8 * format.entries 0 = count * pageSize)
    (here : page = allocator.memoryStart + start * pageSize) :
    Fresh format memory roots page (format.entries 0) ∧
      TablesTaken format (Function.update roots key (some page)) after
        (zeroTable format page (format.entries 0) memory) := by
  have fresh : Fresh format memory roots page (format.entries 0) := by
    rw [here]
    exact tables.fresh takes.free pos nonempty size
  refine ⟨fresh, forest_root fresh tables.forest, ?_⟩
  intro otherKey other place fits found offset within
  rcases reach_root_cases fresh fits found with ⟨isNew, samePage⟩ | ⟨_, old⟩
  · rw [samePage, here]
    apply byte_taken_run takes
    rw [(Prod.mk.inj isNew).2] at within
    unfold extent at within
    rw [List.length_nil, size] at within
    exact within
  · exact byte_taken_mono takes.region (takes_keeps takes)
      (tables.taken otherKey other place fits old offset within)

theorem TablesTaken.write_leaf (tables : TablesTaken format roots allocator memory)
    (leaf : LeafSlot format memory roots key path table index) (word : Word) :
    TablesTaken format roots allocator (Function.update memory (slot table index) word) where
  forest := forest_write_leaf leaf word
  taken := by
    intro otherKey other place fits found offset within
    rw [reach_write_leaf leaf word otherKey fits] at found
    exact tables.taken otherKey other place fits found offset within

end Link

end Tables

end ViCell.Memory

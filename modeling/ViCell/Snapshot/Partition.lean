import ViCell.Disk.Layout
import ViCell.Memory.BootPaging
import ViCell.Snapshot.RoundTrip

/-!
# Where a snapshot is written

The writer starts at the base of the snapshot partition and never looks at the
partition's size: how far it gets depends on the number of stored frames alone.
-/

namespace ViCell.Snapshot

open Lib Memory Disk List FrameAllocator WordBitmap

/-- Taking the snapshot writes the sector: on some disk its contents change. -/
def Writes (kernelHash : Nat) (allocator : FrameAllocator) (ram : Ram) (lba : Nat) : Prop :=
  ∃ disk : Disk, (serializeSnapshot kernelHash allocator ram disk).1 lba ≠ disk lba

variable (ram : Ram) (allocator : FrameAllocator)

/-- Sectors before the first and from the last position on are left alone. -/
structure KeepsOutside (before after : Writer) : Prop where
  advances : before.lba ≤ after.lba
  outside : ∀ lba, lba < before.lba ∨ after.lba ≤ lba → after.disk lba = before.disk lba

theorem KeepsOutside.refl (writer : Writer) : KeepsOutside writer writer :=
  ⟨Nat.le_refl _, fun _ _ => rfl⟩

theorem KeepsOutside.trans {first second third : Writer} (left : KeepsOutside first second)
    (right : KeepsOutside second third) : KeepsOutside first third := by
  have here := left.advances
  have there := right.advances
  refine ⟨Nat.le_trans here there, ?_⟩
  intro lba apart
  rw [right.outside lba (by omega), left.outside lba (by omega)]

theorem visit_keeps_outside (writer : Writer) (idx : Nat) :
    KeepsOutside writer (writer.visit ram allocator idx) := by
  unfold Writer.visit
  split
  · exact KeepsOutside.refl writer
  · split
    · exact KeepsOutside.refl writer
    · have written := write_sectors_spec ram (allocator.frameIndexToAddr idx) 8 writer
      have pos : (writer.writeFrame ram (allocator.frameIndexToAddr idx)).lba =
          writer.lba + 8 := written.lba
      refine ⟨by omega, ?_⟩
      intro lba apart
      have kept := written.disk lba
      rw [if_neg (by omega)] at kept
      exact kept

theorem visits_keep_outside (visited : List Nat) (writer : Writer) :
    KeepsOutside writer (visited.foldl (Writer.visit ram allocator) writer) := by
  induction visited generalizing writer with
  | nil => exact KeepsOutside.refl writer
  | cons idx rest ih => exact (visit_keeps_outside ram allocator writer idx).trans (ih _)

theorem read_ram_ne_nil (addr : Nat) : readRam ram addr ≠ [] := by
  intro empty
  have length := congrArg length empty
  unfold readRam at length
  rw [length_map, length_range] at length
  cases length

theorem writes_iff (kernelHash lba : Nat) : Writes kernelHash allocator ram lba ↔
      snapshotBaseLba ≤ lba ∧ lba ≤ snapshotBaseLba + (storedFrames allocator).length * 8 := by
  constructor
  · rintro ⟨disk, changed⟩
    by_contra outside
    apply changed
    have wrote := write_frames_wrote ram allocator disk
    have finish := wrote.lba
    have notHeader : lba ≠ snapshotBaseLba := by omega
    have kept := visits_keep_outside ram allocator (range allocator.totalFrames)
      { disk := disk, lba := snapshotBaseLba + 1, hasher := Crc.start32, frameCount := 0 }
    unfold serializeSnapshot
    dsimp only
    rw [Function.update_of_ne notHeader]
    refine kept.outside lba ?_
    have pos : ((range allocator.totalFrames).foldl (Writer.visit ram allocator)
        { disk := disk, lba := snapshotBaseLba + 1, hasher := Crc.start32,
          frameCount := 0 }).lba = snapshotBaseLba + 1 + (storedFrames allocator).length * 8 :=
      finish
    rw [pos]
    dsimp only
    omega
  · rintro ⟨first, last⟩
    -- A disk of empty sectors shows the write: every sector written has bytes.
    refine ⟨fun _ => [], ?_⟩
    have wrote := write_frames_wrote ram allocator (fun _ => [])
    unfold serializeSnapshot
    dsimp only
    by_cases isHeader : lba = snapshotBaseLba
    · subst isHeader
      rw [Function.update_self]
      intro empty
      have length := congrArg length empty
      rw [length_append, bytes_front, length_append, length_front] at length
      simp at length
    · rw [Function.update_of_ne isHeader]
      have place : lba = snapshotBaseLba + 1 + (lba - snapshotBaseLba - 1) / 8 * 8 +
          (lba - snapshotBaseLba - 1) % 8 := by omega
      have inside : (lba - snapshotBaseLba - 1) / 8 < (storedFrames allocator).length := by
        omega
      have contents := wrote.disk _ inside _ (Nat.mod_lt (lba - snapshotBaseLba - 1) (by decide))
      rw [← place] at contents
      rw [contents]
      exact read_ram_ne_nil ram _

/-- A snapshot stays inside its partition, and clear of the partition that
follows, exactly if at most 29999 frames are stored. -/
theorem snapshot_in_partition_iff (kernelHash : Nat) (allocator : FrameAllocator) (ram : Ram) :
    (∀ lba, Writes kernelHash allocator ram lba →
      partSnapshot.Contains lba ∧ ¬ partLfs.Contains lba) ↔
    (storedFrames allocator).length ≤ 29999 := by
  have base : snapshotBaseLba = 560000 := rfl
  constructor
  · intro inside
    by_contra many
    have written : Writes kernelHash allocator ram 800000 := by
      rw [writes_iff, base]
      omega
    have bounds : 560000 ≤ 800000 ∧ 800000 + 1 ≤ 560000 + 240000 := (inside 800000 written).1
    omega
  · intro few lba written
    rw [writes_iff, base] at written
    constructor
    · change 560000 ≤ lba ∧ lba + 1 ≤ 560000 + 240000
      omega
    · intro contained
      have bounds : 800000 ≤ lba ∧ lba + 1 ≤ 800000 + 131072 := contained
      omega

theorem le_stored_length {allocator : FrameAllocator} {count : Nat}
    (counted : count ≤ allocator.totalFrames)
    (used : ∀ idx, idx < count → allocator.isFrameAllocated idx = true ∧
      ramBase ≤ allocator.frameIndexToAddr idx) :
    count ≤ (storedFrames allocator).length := by
  have sublist : (range count).Sublist (range allocator.totalFrames) := range_sublist.mpr counted
  have stored := (sublist.filter (fun idx => allocator.isFrameAllocated idx &&
    decide (ramBase ≤ allocator.frameIndexToAddr idx))).length_le
  have all : (range count).filter (fun idx => allocator.isFrameAllocated idx &&
      decide (ramBase ≤ allocator.frameIndexToAddr idx)) = range count := by
    apply filter_eq_self.mpr
    intro idx mem
    obtain ⟨taken, inRam⟩ := used idx (mem_range.mp mem)
    rw [taken, decide_eq_true inRam, Bool.and_self]
  rw [all, length_range] at stored
  exact stored

/-- The allocator that the built-in memory map gives, before anything is taken. -/
def freshAllocator : FrameAllocator := newFromMap fallbackMemoryMap

theorem fresh_bits (idx : Nat) : bit freshAllocator.bitmap idx = decide (idx < 2) := by
  have bitmap : freshAllocator.bitmap = setRange (replicate 760 (0 : BitVec 64)) 0 2 := by
    decide +kernel
  rw [bitmap, bit_set_range (by decide) _ 0 2 (by rw [length_replicate]; decide)]
  rw [bit_replicate_zero]
  simp

theorem fresh_total : freshAllocator.totalFrames = 48640 := by decide +kernel

theorem fresh_length : freshAllocator.bitmap.length = 760 := by decide +kernel

/-- The same allocator after one request for 30000 contiguous frames. -/
def crowdedAllocator : FrameAllocator :=
  { freshAllocator with bitmap := setRange freshAllocator.bitmap 2 30000 }

theorem crowded_of_fresh : freshAllocator.allocateContiguous 30000 =
    some (crowdedAllocator, some (freshAllocator.frameIndexToAddr 2)) := by
  have taken : ∀ idx, idx < 48640 → freshAllocator.isFrameAllocated idx = decide (idx < 2) := by
    intro idx inside
    unfold isFrameAllocated
    rw [fresh_total, if_neg (by omega), fresh_bits]
  have found : (range (freshAllocator.totalFrames - 30000 + 1)).find?
      (freshAllocator.runFree 30000) = some 2 := by
    rw [find?_range_eq_some]
    refine ⟨?_, ?_, ?_⟩
    · refine all_eq_true.mpr ?_
      intro offset mem
      have bounded := mem_range.mp mem
      rw [taken _ (by omega), decide_eq_false (by omega), Bool.not_false]
    · rw [fresh_total]
      exact mem_range.mpr (by decide)
    · intro first early
      have busy : freshAllocator.runFree 30000 first = false := by
        refine all_eq_false.mpr ⟨0, mem_range.mpr (by decide), ?_⟩
        rw [taken _ (by omega), decide_eq_true (by omega)]
        decide
      rw [busy, Bool.not_false]
  have marked : freshAllocator.markRangeUsed 2 30000 = some crowdedAllocator := by
    refine if_pos (all_eq_true.mpr ?_)
    intro offset mem
    have bounded := mem_range.mp mem
    rw [fresh_length]
    exact decide_eq_true (by omega)
  unfold allocateContiguous
  rw [if_neg (by decide), found]
  dsimp only
  rw [marked]
  rfl

theorem crowded_stored : 30000 ≤ (storedFrames crowdedAllocator).length := by
  apply le_stored_length
  · change 30000 ≤ freshAllocator.totalFrames
    rw [fresh_total]
    decide
  · intro idx inside
    constructor
    · unfold isFrameAllocated crowdedAllocator
      dsimp only
      rw [fresh_total, if_neg (by omega), bit_set_range (by decide) _ 2 30000
        (by rw [fresh_length]; decide), fresh_bits, ← Bool.decide_or]
      exact decide_eq_true (by omega)
    · have start : crowdedAllocator.memoryStart = 0x84200000 := by decide +kernel
      unfold frameIndexToAddr usize pageSize ramBase
      omega

/-- With the built-in memory map, one request for 30000 frames suffices. -/
theorem large_snapshot_leaves_partition :
    ∃ allocator base, freshAllocator.allocateContiguous 30000 = some (allocator, some base) ∧
      ∀ kernelHash ram, Writes kernelHash allocator ram 800000 ∧ partLfs.Contains 800000 := by
  refine ⟨crowdedAllocator, freshAllocator.frameIndexToAddr 2, crowded_of_fresh, ?_⟩
  intro kernelHash ram
  refine ⟨?_, by decide⟩
  rw [writes_iff]
  have many := crowded_stored
  have base : snapshotBaseLba = 560000 := rfl
  rw [base]
  omega

end ViCell.Snapshot

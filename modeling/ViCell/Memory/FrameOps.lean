import ViCell.Memory.FrameAllocator

/-!
# What the frame operations do

Every operation of the allocator is described by what it does to the set of
allocated frames. `Placed` is the geometry of an allocator whose region did
not wrap; it is set up by `newFromMap` and every operation keeps it.
-/

namespace ViCell.Memory

open Lib List WordBitmap

/-- The chosen region ends below `2 ^ 64` and its start, rounded up to a page,
does not pass its end rounded down. -/
def SpansPages (entries : List MemoryMapEntry) : Prop :=
  let best := largestUsable entries
  best.start + best.length < 2 ^ 64 ∧
    pageFloor (best.start + pageSize - 1) ≤ pageFloor (best.start + best.length)

instance (entries : List MemoryMapEntry) : Decidable (SpansPages entries) :=
  inferInstanceAs (Decidable (_ ∧ _))

theorem fold_largest_finish (entries : List MemoryMapEntry) {best : BestRegion}
    (summed : best.finish = usize (best.start + best.length)) :
    (entries.foldl BestRegion.keepLargest best).finish =
      usize ((entries.foldl BestRegion.keepLargest best).start +
        (entries.foldl BestRegion.keepLargest best).length) := by
  induction entries generalizing best with
  | nil => exact summed
  | cons entry entries ih =>
    apply ih
    unfold BestRegion.keepLargest
    split
    · split
      · rfl
      · exact summed
    · exact summed

theorem largest_usable_finish (entries : List MemoryMapEntry) :
    (largestUsable entries).finish =
      usize ((largestUsable entries).start + (largestUsable entries).length) :=
  fold_largest_finish entries rfl

theorem keep_largest_member {best : BestRegion} {entry : MemoryMapEntry}
    (grown : best.keepLargest entry ≠ best) :
    entry.ty = .usable ∧ (best.keepLargest entry).start = entry.base ∧
      (best.keepLargest entry).length = entry.length := by
  unfold BestRegion.keepLargest at grown ⊢
  split at grown
  next usable =>
    split at grown
    next longer =>
      rw [if_pos usable, if_pos longer]
      exact ⟨usable, rfl, rfl⟩
    next => exact absurd rfl grown
  next => exact absurd rfl grown

theorem fold_largest_member (entries : List MemoryMapEntry) {best : BestRegion}
    (grown : entries.foldl BestRegion.keepLargest best ≠ best) :
    ∃ entry ∈ entries, entry.ty = .usable ∧
      (entries.foldl BestRegion.keepLargest best).start = entry.base ∧
      (entries.foldl BestRegion.keepLargest best).length = entry.length := by
  induction entries generalizing best with
  | nil => exact absurd rfl grown
  | cons entry rest ih =>
    rw [foldl_cons] at grown ⊢
    by_cases later : rest.foldl BestRegion.keepLargest (best.keepLargest entry) =
        best.keepLargest entry
    · rw [later] at grown ⊢
      exact ⟨entry, by simp, keep_largest_member grown⟩
    · obtain ⟨found, mem, facts⟩ := ih later
      exact ⟨found, mem_cons_of_mem _ mem, facts⟩

theorem keep_largest_length (best : BestRegion) (entry : MemoryMapEntry) :
    best.length ≤ (best.keepLargest entry).length ∧
      (entry.ty = .usable → entry.length ≤ (best.keepLargest entry).length) := by
  unfold BestRegion.keepLargest
  split_ifs with usable longer
  · exact ⟨longer.le, fun _ => le_rfl⟩
  · exact ⟨le_rfl, fun _ => by omega⟩
  · exact ⟨le_rfl, fun other => absurd other usable⟩

theorem fold_largest_length (entries : List MemoryMapEntry) (best : BestRegion) :
    best.length ≤ (entries.foldl BestRegion.keepLargest best).length ∧
      ∀ entry ∈ entries, entry.ty = .usable →
        entry.length ≤ (entries.foldl BestRegion.keepLargest best).length := by
  induction entries generalizing best with
  | nil => exact ⟨le_rfl, nofun⟩
  | cons entry rest ih =>
    obtain ⟨grows, covers⟩ := ih (best.keepLargest entry)
    obtain ⟨first, here⟩ := keep_largest_length best entry
    refine ⟨first.trans grows, forall_mem_cons.mpr ⟨fun usable => (here usable).trans grows, covers⟩⟩

/-- One usable page is enough, wherever it begins, on a machine whose memory ends below
`2 ^ 64`. -/
theorem spans_of_usable_page {entries : List MemoryMapEntry} {page : MemoryMapEntry}
    (mem : page ∈ entries) (usable : page.ty = .usable) (whole : pageSize ≤ page.length)
    (low : ∀ entry ∈ entries, entry.base + entry.length < 2 ^ 64) : SpansPages entries := by
  have long : page.length ≤ (largestUsable entries).length :=
    (fold_largest_length entries _).2 page mem usable
  have grown : largestUsable entries ≠ { start := 0, finish := 0, length := 0 } := by
    intro empty
    rw [empty] at long
    exact absurd (whole.trans long) (by decide)
  obtain ⟨entry, listed, _, starts, lengths⟩ := fold_largest_member entries grown
  have bound := low entry listed
  change (largestUsable entries).start = entry.base at starts
  change (largestUsable entries).length = entry.length at lengths
  simp only [SpansPages, starts, lengths]
  refine ⟨bound, ?_⟩
  unfold pageFloor pageSize at *
  omega

namespace FrameAllocator

/-- The region did not wrap, the bitmap covers it and its own pages are taken. -/
structure Placed (allocator : FrameAllocator) : Prop where
  aligned : pageSize ∣ allocator.memoryStart
  extent : allocator.memoryEnd = allocator.memoryStart + allocator.totalFrames * pageSize
  addressable : allocator.memoryEnd < 2 ^ 64
  words : allocator.bitmap.length = (allocator.totalFrames + 63) / 64
  hint : allocator.lastAllocIndex ≤ allocator.totalFrames
  reserved : ∀ idx, idx < allocator.bitmapPages → allocator.isFrameAllocated idx = true

structure SameRegion (before after : FrameAllocator) : Prop where
  start : after.memoryStart = before.memoryStart
  finish : after.memoryEnd = before.memoryEnd
  frames : after.totalFrames = before.totalFrames
  words : after.bitmap.length = before.bitmap.length

theorem SameRegion.trans {first second third : FrameAllocator} (left : SameRegion first second)
    (right : SameRegion second third) : SameRegion first third :=
  ⟨right.start.trans left.start, right.finish.trans left.finish, right.frames.trans left.frames,
    right.words.trans left.words⟩

theorem free_before {before after : FrameAllocator} {idx : Nat}
    (keeps : ∀ idx, before.isFrameAllocated idx = true → after.isFrameAllocated idx = true)
    (free : after.isFrameAllocated idx = false) : before.isFrameAllocated idx = false := by
  by_contra taken
  rw [Bool.not_eq_false] at taken
  rw [keeps idx taken] at free
  cases free

section Region

variable {allocator : FrameAllocator}

theorem Placed.stored (placed : Placed allocator) :
    allocator.totalFrames ≤ allocator.bitmap.length * 64 := by
  have words := placed.words
  omega

theorem is_frame_allocated_eq (allocator : FrameAllocator) (idx : Nat) :
    allocator.isFrameAllocated idx =
      (decide (idx < allocator.totalFrames) && bit allocator.bitmap idx) := by
  unfold isFrameAllocated
  by_cases inside : idx < allocator.totalFrames
  · simp [inside]
  · simp [inside]

variable {idx : Nat}

theorem allocated_inside (taken : allocator.isFrameAllocated idx = true) :
    idx < allocator.totalFrames := by
  rw [is_frame_allocated_eq, Bool.and_eq_true, decide_eq_true_eq] at taken
  exact taken.1

theorem Placed.frame_addr (placed : Placed allocator) (inside : idx < allocator.totalFrames) :
    allocator.frameIndexToAddr idx = allocator.memoryStart + idx * pageSize := by
  have extent := placed.extent
  have addressable := placed.addressable
  apply Nat.mod_eq_of_lt
  unfold pageSize at extent ⊢
  omega

theorem Placed.frame_index (placed : Placed allocator) (inside : idx < allocator.totalFrames) :
    allocator.addrToFrameIndex (allocator.memoryStart + idx * pageSize) = some idx := by
  have extent := placed.extent
  have within : ¬ (allocator.memoryStart + idx * pageSize < allocator.memoryStart ∨
      allocator.memoryEnd ≤ allocator.memoryStart + idx * pageSize) := by
    unfold pageSize at extent ⊢
    omega
  have offset : allocator.memoryStart + idx * pageSize - allocator.memoryStart =
      idx * pageSize := by omega
  unfold addrToFrameIndex
  rw [if_neg within, offset, Nat.mul_div_cancel _ (by decide)]

end Region

theorem new_from_map_region {entries : List MemoryMapEntry} (spans : SpansPages entries) :
    (newFromMap entries).memoryEnd =
        (newFromMap entries).memoryStart + (newFromMap entries).totalFrames * pageSize ∧
      (newFromMap entries).memoryEnd < 2 ^ 64 := by
  have ends : (largestUsable entries).start + (largestUsable entries).length < 2 ^ 64 := spans.1
  have ordered := spans.2
  have finish : (largestUsable entries).finish =
      (largestUsable entries).start + (largestUsable entries).length := by
    rw [largest_usable_finish]
    exact Nat.mod_eq_of_lt ends
  simp only [newFromMap]
  simp only [pageFloor, usize, wrappingSub, pageSize] at ordered ⊢
  omega

theorem new_from_map_words (entries : List MemoryMapEntry) :
    (newFromMap entries).bitmap.length = ((newFromMap entries).totalFrames + 63) / 64 := by
  simp [newFromMap]

theorem new_from_map_allocated (entries : List MemoryMapEntry) (idx : Nat) :
    (newFromMap entries).isFrameAllocated idx =
      decide (idx < (newFromMap entries).bitmapPages) := by
  have words := new_from_map_words entries
  have pages : (newFromMap entries).bitmapPages ≤ (newFromMap entries).totalFrames := by
    unfold bitmapPages pageSize
    omega
  have bits : bit (newFromMap entries).bitmap idx =
      decide (idx < (newFromMap entries).bitmapPages) := by
    have marked := bit_set_range (by decide : 0 < 64)
      (replicate (((newFromMap entries).totalFrames + 63) / 64) 0) 0
      (newFromMap entries).bitmapPages
      (by rw [length_replicate]; omega) idx
    rw [bit_replicate_zero] at marked
    have same : (newFromMap entries).bitmap =
        setRange (replicate (((newFromMap entries).totalFrames + 63) / 64) 0) 0
          (newFromMap entries).bitmapPages := by
      unfold bitmapPages
      rw [words]
      rfl
    rw [← same] at marked
    rw [marked]
    simp
  rw [is_frame_allocated_eq, bits]
  by_cases reserved : idx < (newFromMap entries).bitmapPages
  · have inside : idx < (newFromMap entries).totalFrames := by omega
    simp [inside]
  · simp [reserved]

theorem new_from_map_placed {entries : List MemoryMapEntry} (spans : SpansPages entries) :
    Placed (newFromMap entries) where
  aligned := ⟨_, Nat.mul_comm _ _⟩
  extent := (new_from_map_region spans).1
  addressable := (new_from_map_region spans).2
  words := new_from_map_words entries
  hint := Nat.zero_le _
  reserved := by
    intro idx inside
    rw [new_from_map_allocated]
    exact decide_eq_true inside

/-- `after` is `before` with the free frames `start, …, start + count - 1` taken. -/
structure TakesRun (before after : FrameAllocator) (start count : Nat) : Prop where
  region : SameRegion before after
  inside : start + count ≤ before.totalFrames
  free : ∀ idx, start ≤ idx → idx < start + count → before.isFrameAllocated idx = false
  taken : ∀ idx, after.isFrameAllocated idx =
    (before.isFrameAllocated idx || decide (start ≤ idx ∧ idx < start + count))
  hint : after.lastAllocIndex ≤ after.totalFrames

/-- `after` is `before` with frame `freed` given back. -/
structure GivesBack (before after : FrameAllocator) (freed : Nat) : Prop where
  region : SameRegion before after
  taken : ∀ idx, after.isFrameAllocated idx = (before.isFrameAllocated idx && decide (idx ≠ freed))
  hint : after.lastAllocIndex = before.lastAllocIndex

theorem SameRegion.pages {was after : FrameAllocator} (same : SameRegion was after) :
    after.bitmapPages = was.bitmapPages := by
  unfold bitmapPages
  rw [same.words]

theorem Placed.of_same {was after : FrameAllocator} (placed : Placed was)
    (same : SameRegion was after) (hint : after.lastAllocIndex ≤ after.totalFrames)
    (reserved : ∀ idx, idx < was.bitmapPages → after.isFrameAllocated idx = true) :
    Placed after where
  aligned := same.start ▸ placed.aligned
  extent := by
    rw [same.finish, same.start, same.frames]
    exact placed.extent
  addressable := same.finish ▸ placed.addressable
  words := by
    rw [same.words, same.frames]
    exact placed.words
  hint := hint
  reserved := by
    intro idx inside
    rw [same.pages] at inside
    exact reserved idx inside

variable {start : Nat}

theorem TakesRun.placed {was after : FrameAllocator} {count : Nat}
    (takes : TakesRun was after start count) (placed : Placed was) : Placed after := by
  apply placed.of_same takes.region takes.hint
  intro idx inside
  rw [takes.taken, placed.reserved idx inside, Bool.true_or]

theorem GivesBack.placed {was after : FrameAllocator} {freed : Nat}
    (gives : GivesBack was after freed) (placed : Placed was)
    (outside : was.bitmapPages ≤ freed) : Placed after := by
  apply placed.of_same gives.region
  · rw [gives.hint, gives.region.frames]
    exact placed.hint
  · intro idx inside
    have other : idx ≠ freed := by omega
    rw [gives.taken, placed.reserved idx inside]
    simp [other]

theorem mark_range_takes {was marked : FrameAllocator} {count : Nat} (placed : Placed was)
    (inside : start + count ≤ was.totalFrames)
    (free : ∀ idx, start ≤ idx → idx < start + count → was.isFrameAllocated idx = false)
    (run : was.markRangeUsed start count = some marked) :
    TakesRun was marked start count := by
  unfold markRangeUsed at run
  split at run
  next =>
    have marks := Option.some.inj run
    subst marks
    refine ⟨⟨rfl, rfl, rfl, length_set_range _ _ _⟩, inside, free, ?_, placed.hint⟩
    intro idx
    have stored := placed.stored
    have bits := bit_set_range (by decide) was.bitmap start count (by omega) idx
    rw [is_frame_allocated_eq, is_frame_allocated_eq, bits]
    by_cases below : idx < was.totalFrames
    · simp [below]
    · have beyond : ¬ (start ≤ idx ∧ idx < start + count) := by omega
      simp [beyond]
  next => cases run

variable {idx : Nat}

theorem hand_out_takes {was : FrameAllocator} (placed : Placed was)
    (inside : idx < was.totalFrames) (free : was.isFrameAllocated idx = false) :
    TakesRun was (was.handOut idx) idx 1 := by
  refine ⟨⟨rfl, rfl, rfl, length_set_bit _ _⟩, inside, ?_, ?_, inside⟩
  · intro tested above below
    have same : tested = idx := by omega
    rw [same]
    exact free
  · intro tested
    have stored := placed.stored
    have word : idx / 64 < was.bitmap.length := by omega
    have bits := bit_set_bit (by decide) was.bitmap word tested
    have single : (idx ≤ tested ∧ tested < idx + 1) ↔ tested = idx := by omega
    have reads : (was.handOut idx).isFrameAllocated tested = (decide (tested < was.totalFrames) &&
          bit (setBit was.bitmap idx) tested) :=
      is_frame_allocated_eq _ _
    rw [reads, bits, is_frame_allocated_eq]
    simp only [single]
    by_cases same : tested = idx
    · simp [same, inside]
    · simp [same]

theorem find_free_spec (allocator : FrameAllocator) (start finish : Nat) :
    WordBitmap.Scanned allocator.bitmap finish start (allocator.findFree start finish) :=
  first_clear_spec (by decide) _ _ _ _ (by omega)

theorem find_free_some {allocator : FrameAllocator} {finish : Nat}
    (bounded : finish ≤ allocator.totalFrames) (found : allocator.findFree start finish = some idx) :
    idx < allocator.totalFrames ∧ allocator.isFrameAllocated idx = false := by
  have first := (find_free_spec allocator start finish).1 idx found
  refine ⟨by omega, ?_⟩
  rw [is_frame_allocated_eq, first.2.2, Bool.and_false]

theorem find_free_passed {allocator : FrameAllocator} {finish : Nat}
    (bounded : finish ≤ allocator.totalFrames) (above : start ≤ idx) (below : idx < finish)
    (passed : idx < (allocator.findFree start finish).getD finish) :
    allocator.isFrameAllocated idx = true := by
  rw [is_frame_allocated_eq, (find_free_spec allocator start finish).2 idx above passed,
    Bool.and_true]
  exact decide_eq_true (by omega)

theorem find_free_none {allocator : FrameAllocator} {finish : Nat}
    (bounded : finish ≤ allocator.totalFrames) (missed : allocator.findFree start finish = none)
    (above : start ≤ idx) (below : idx < finish) : allocator.isFrameAllocated idx = true := by
  apply find_free_passed bounded above below
  rw [missed]
  exact below

theorem run_free_iff (allocator : FrameAllocator) (n start : Nat) :
    allocator.runFree n start = true ↔
      ∀ idx, start ≤ idx → idx < start + n → allocator.isFrameAllocated idx = false := by
  unfold runFree
  rw [all_eq_true]
  constructor
  · intro free idx above below
    have read := free (idx - start) (mem_range.mpr (by omega))
    rw [Nat.add_sub_cancel' above] at read
    simpa using read
  · intro free i inside
    have below := mem_range.mp inside
    have read := free (start + i) (by omega) (by omega)
    rw [read]
    rfl

variable {allocator after : FrameAllocator} {out : Option Nat} {n : Nat} (placed : Placed allocator)
include placed

theorem allocate_frame_spec (run : allocator.allocateFrame = (after, out)) :
    (∃ idx, TakesRun allocator after idx 1 ∧ out = some (allocator.frameIndexToAddr idx)) ∨
      (after = allocator ∧ out = none ∧
        ∀ idx, idx < allocator.totalFrames → allocator.isFrameAllocated idx = true) := by
  unfold allocateFrame at run
  split at run
  next idx found =>
    have free := find_free_some (Nat.le_refl _) found
    cases run
    exact .inl ⟨idx, hand_out_takes placed free.1 free.2, rfl⟩
  next missedAbove =>
    split at run
    next idx found =>
      have free := find_free_some placed.hint found
      cases run
      exact .inl ⟨idx, hand_out_takes placed free.1 free.2, rfl⟩
    next missedBelow =>
      cases run
      refine .inr ⟨rfl, rfl, ?_⟩
      intro idx inside
      by_cases above : allocator.lastAllocIndex ≤ idx
      · exact find_free_none (Nat.le_refl _) missedAbove above inside
      · exact find_free_none placed.hint missedBelow (Nat.zero_le _) (by omega)

/-- Marking a run beyond the region panics before it returns: the frames of
the bitmap itself are never free, so a run cannot start at the first frame. -/
theorem run_inside {marked : FrameAllocator} (searched : start < allocator.totalFrames - n + 1)
    (free : ∀ idx, start ≤ idx → idx < start + n → allocator.isFrameAllocated idx = false)
    (run : allocator.markRangeUsed start n = some marked) : start + n ≤ allocator.totalFrames := by
  have words := placed.words
  by_cases fits : n ≤ allocator.totalFrames
  · omega
  · have first : start = 0 := by omega
    subst first
    by_cases empty : allocator.totalFrames = 0
    · unfold markRangeUsed at run
      split at run
      next bounded =>
        rw [all_eq_true] at bounded
        have indexed := bounded 0 (mem_range.mpr (by omega))
        rw [words, decide_eq_true_eq] at indexed
        omega
      next => cases run
    · have pages : 0 < allocator.bitmapPages := by
        unfold bitmapPages pageSize
        omega
      have taken := placed.reserved 0 pages
      rw [free 0 (Nat.le_refl _) (by omega)] at taken
      cases taken

theorem allocate_run_spec (several : n ≠ 1) (run : allocator.allocateContiguous n = some (after, out)) :
    (∃ start, TakesRun allocator after start n ∧ out = some (allocator.frameIndexToAddr start) ∧
        ∀ earlier < start, allocator.runFree n earlier = false) ∨
      (after = allocator ∧ out = none) := by
  unfold allocateContiguous at run
  rw [if_neg several] at run
  split at run
  next start found =>
    obtain ⟨isFree, searched, first⟩ := find?_range_eq_some.mp found
    have free := (run_free_iff allocator n start).mp isFree
    rw [Option.map_eq_some_iff] at run
    obtain ⟨_, marks, pair⟩ := run
    cases pair
    have inside := run_inside placed (mem_range.mp searched) free marks
    refine .inl ⟨start, mark_range_takes placed inside free marks, rfl, ?_⟩
    intro earlier was
    simpa using first earlier was
  next =>
    cases run
    exact .inr ⟨rfl, rfl⟩

theorem allocate_contiguous_spec (run : allocator.allocateContiguous n = some (after, out)) :
    (∃ start, TakesRun allocator after start n ∧ out = some (allocator.frameIndexToAddr start)) ∨
      (after = allocator ∧ out = none) := by
  by_cases single : n = 1
  · unfold allocateContiguous at run
    subst single
    have taken := allocate_frame_spec placed (Option.some.inj run)
    exact taken.imp_right fun none => ⟨none.1, none.2.1⟩
  · rcases allocate_run_spec placed single run with ⟨start, takes, handed, -⟩ | failed
    · exact .inl ⟨start, takes, handed⟩
    · exact .inr failed

theorem allocate_contiguous_some {addr : Nat}
    (run : allocator.allocateContiguous n = some (after, some addr)) :
    ∃ start, TakesRun allocator after start n ∧ addr = allocator.frameIndexToAddr start := by
  rcases allocate_contiguous_spec placed run with ⟨start, takes, handed⟩ | ⟨-, failed⟩
  · exact ⟨start, takes, Option.some.inj handed⟩
  · cases failed

theorem allocate_contiguous_none
    (run : allocator.allocateContiguous n = some (after, none)) : after = allocator := by
  rcases allocate_contiguous_spec placed run with ⟨_, -, handed⟩ | ⟨same, -⟩
  · cases handed
  · exact same

theorem deallocate_frame_spec (inside : idx < allocator.totalFrames) :
    GivesBack allocator
      (allocator.deallocateFrame (allocator.memoryStart + idx * pageSize)) idx := by
  unfold deallocateFrame
  rw [placed.frame_index inside]
  refine ⟨⟨rfl, rfl, rfl, length_clear_bit _ _⟩, ?_, rfl⟩
  intro tested
  have reads : (allocator.markFree idx).isFrameAllocated tested =
      (decide (tested < allocator.totalFrames) &&
        bit (clearBit allocator.bitmap idx) tested) :=
    is_frame_allocated_eq _ _
  rw [reads, bit_clear_bit (by decide), is_frame_allocated_eq, Bool.and_assoc]

end FrameAllocator

end ViCell.Memory

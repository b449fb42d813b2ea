import ViCell.Memory.FramePool
import ViCell.Snapshot.Image

/-!
# A snapshot read back

What the writer leaves on the disk, what the reader makes of it, and the exact
condition under which reading back what was written restores every allocated
frame: the two sides must compute the same checksum although only one of them
hashes the header, and the `i`-th stored frame must carry the bytes of frame
`i`, because the reader puts it there.
-/

namespace ViCell.Snapshot

open Lib Memory Function List FrameAllocator Bytes Crc

def storedFrames (allocator : FrameAllocator) : List Nat :=
  (range allocator.totalFrames).filter
    (fun idx => allocator.isFrameAllocated idx && decide (ramBase ≤ allocator.frameIndexToAddr idx))

def frameBytes (ram : Ram) (pa : Nat) : List Byte :=
  (range 8).flatMap (fun offset => readRam ram (pa + offset * sectorSize))

def framesBytes (ram : Ram) (allocator : FrameAllocator) (frames : List Nat) : List Byte :=
  frames.flatMap (fun idx => frameBytes ram (allocator.frameIndexToAddr idx))

structure Wrote (ram : Ram) (allocator : FrameAllocator) (frames : List Nat)
    (writer : Writer) : Prop where
  lba : writer.lba = snapshotBaseLba + 1 + frames.length * 8
  disk : ∀ position, position < frames.length → ∀ offset, offset < 8 →
    writer.disk (snapshotBaseLba + 1 + position * 8 + offset) =
      readRam ram (allocator.frameIndexToAddr (frames.getD position 0) + offset * sectorSize)
  hasher : writer.hasher = feed poly32 start32 (framesBytes ram allocator frames)
  count : writer.frameCount = frames.length % 2 ^ 32

structure SectorsWritten (ram : Ram) (pa sectors : Nat) (before after : Writer) : Prop where
  lba : after.lba = before.lba + sectors
  disk : ∀ lba, after.disk lba =
    if before.lba ≤ lba ∧ lba < before.lba + sectors then
      readRam ram (pa + (lba - before.lba) * sectorSize)
    else before.disk lba
  hasher : after.hasher = feed poly32 before.hasher
    ((range sectors).flatMap (fun offset => readRam ram (pa + offset * sectorSize)))
  count : after.frameCount = before.frameCount

theorem write_sectors_spec (ram : Ram) (pa sectors : Nat) (writer : Writer) :
    SectorsWritten ram pa sectors writer (writer.writeSectors ram pa sectors) := by
  induction sectors with
  | zero =>
    refine ⟨rfl, ?_, rfl, rfl⟩
    intro lba
    rw [if_neg (by omega)]
    rfl
  | succ sectors ih =>
    have last : writer.writeSectors ram pa (sectors + 1) =
        (writer.writeSectors ram pa sectors).writeSector
          (readRam ram (pa + sectors * sectorSize)) := by
      unfold Writer.writeSectors
      rw [range_succ, foldl_append]
      rfl
    have lba := ih.lba
    rw [last]
    refine ⟨?_, ?_, ?_, ih.count⟩
    · simp only [Writer.writeSector]
      omega
    · intro place
      simp only [Writer.writeSector]
      by_cases newest : place = writer.lba + sectors
      · subst newest
        rw [lba, update_self, if_pos (by omega), Nat.add_sub_cancel_left]
      · rw [lba, update_of_ne newest, ih.disk]
        by_cases earlier : writer.lba ≤ place ∧ place < writer.lba + sectors
        · rw [if_pos earlier, if_pos (by omega)]
        · rw [if_neg earlier, if_neg (by omega)]
    · simp only [Writer.writeSector]
      rw [ih.hasher, range_succ, flatMap_append, feed_append, flatMap_singleton]

variable {ram : Ram} {allocator : FrameAllocator} {frames : List Nat} {writer : Writer}

theorem write_frame_wrote (wrote : Wrote ram allocator frames writer) (idx : Nat) :
    Wrote ram allocator (frames ++ [idx])
      (writer.writeFrame ram (allocator.frameIndexToAddr idx)) := by
  have written := write_sectors_spec ram (allocator.frameIndexToAddr idx) 8 writer
  have was := wrote.lba
  have length : (frames ++ [idx]).length = frames.length + 1 := by simp
  refine ⟨?_, ?_, ?_, ?_⟩
  · have after := written.lba
    simp only [Writer.writeFrame, after]
    omega
  · intro pos inside offset within
    simp only [Writer.writeFrame, written.disk]
    by_cases last : pos = frames.length
    · subst last
      have place : snapshotBaseLba + 1 + frames.length * 8 + offset - writer.lba = offset := by
        omega
      rw [if_pos (by omega), getD_append_right _ _ _ _ (Nat.le_refl _), Nat.sub_self, place]
      rfl
    · rw [if_neg (by omega), getD_append _ _ _ _ (by omega)]
      exact wrote.disk pos (by omega) offset within
  · simp only [Writer.writeFrame, written.hasher, wrote.hasher, framesBytes,
      flatMap_append, flatMap_singleton, feed_append]
    rfl
  · simp only [Writer.writeFrame, written.count, wrote.count]
    omega

theorem visit_wrote (wrote : Wrote ram allocator frames writer) (visited : List Nat) :
    Wrote ram allocator
      (frames ++ visited.filter (fun idx => allocator.isFrameAllocated idx &&
        decide (ramBase ≤ allocator.frameIndexToAddr idx)))
      (visited.foldl (Writer.visit ram allocator) writer) := by
  induction visited generalizing frames writer with
  | nil => simpa using wrote
  | cons idx visited ih =>
    rw [foldl_cons, filter_cons]
    by_cases stored : (allocator.isFrameAllocated idx &&
        decide (ramBase ≤ allocator.frameIndexToAddr idx)) = true
    · have parts := stored
      rw [Bool.and_eq_true, decide_eq_true_eq] at parts
      have written : writer.visit ram allocator idx =
          writer.writeFrame ram (allocator.frameIndexToAddr idx) := by
        unfold Writer.visit
        rw [if_neg (by simp [parts.1]), if_neg (by omega)]
      rw [written, if_pos stored, append_cons]
      exact ih (write_frame_wrote wrote idx)
    · have skipped : writer.visit ram allocator idx = writer := by
        unfold Writer.visit
        split
        next => rfl
        next taken =>
          rw [if_pos]
          by_contra above
          apply stored
          simp [taken, Nat.not_lt.mp above]
      rw [skipped, if_neg stored]
      exact ih wrote

theorem write_frames_wrote (ram : Ram) (allocator : FrameAllocator) (disk : Disk) :
    Wrote ram allocator (storedFrames allocator) (writeFrames ram allocator disk) := by
  have start : Wrote ram allocator []
      { disk := disk, lba := snapshotBaseLba + 1, hasher := start32, frameCount := 0 } := by
    refine ⟨rfl, ?_, rfl, rfl⟩
    intro pos inside
    cases inside
  exact visit_wrote start (range allocator.totalFrames)

/-- Every field is in the range of its type. -/
structure SnapshotHeader.Fits (header : SnapshotHeader) : Prop where
  magic : header.magic < 256 ^ 4
  version : header.version < 256 ^ 2
  flags : header.flags < 256 ^ 2
  kernelHash : header.kernelHash < 256 ^ 8
  paBase : header.paBase < 256 ^ 8
  paEnd : header.paEnd < 256 ^ 8
  frameCount : header.frameCount < 256 ^ 4
  crc32 : header.crc32 < 256 ^ 4

theorem of_bytes_bytes {header : SnapshotHeader} (fits : header.Fits) (padding : List Byte) :
    SnapshotHeader.ofBytes (header.bytes ++ padding) = header := by
  -- The offset of a field is the sum of the widths before it.
  simp (disch := decide) only [SnapshotHeader.ofBytes, SnapshotHeader.bytes, append_assoc,
    drop_field, Nat.reduceSub, drop_zero]
  rw [decode_field 4 _ _ fits.magic, decode_field 2 _ _ fits.version,
    decode_field 2 _ _ fits.flags, decode_field 8 _ _ fits.kernelHash,
    decode_field 8 _ _ fits.paBase, decode_field 8 _ _ fits.paEnd,
    decode_field 4 _ _ fits.frameCount, decode_field 4 _ _ fits.crc32]

def SnapshotHeader.front (header : SnapshotHeader) : List Byte :=
  encodeLE 4 header.magic ++ (encodeLE 2 header.version ++
    (encodeLE 2 header.flags ++ (encodeLE 8 header.kernelHash ++
      (encodeLE 8 header.paBase ++ (encodeLE 8 header.paEnd ++ encodeLE 4 header.frameCount)))))

theorem bytes_front (header : SnapshotHeader) :
    header.bytes = header.front ++ encodeLE 4 header.crc32 := by
  simp only [SnapshotHeader.bytes, SnapshotHeader.front, append_assoc]

theorem length_front (header : SnapshotHeader) : header.front.length = 36 := by
  simp only [SnapshotHeader.front, length_append, length_encode]

theorem hashed_header_eq (header : SnapshotHeader) (padding : List Byte) :
    hashedHeader (header.bytes ++ padding) = { header with crc32 := 0 }.bytes := by
  have kept : (header.bytes ++ padding).take 36 = header.front := by
    exact take_left' (length_front header)
  have zeros : ({ header with crc32 := 0 } : SnapshotHeader).bytes =
      header.front ++ replicate 4 0 := by
    have zeroField : encodeLE 4 0 = replicate 4 0 := by decide
    rw [← zeroField]
    exact bytes_front { header with crc32 := 0 }
  unfold hashedHeader
  rw [kept, zeros, ← append_assoc]
  apply take_left'
  rw [length_append, length_front, length_replicate]

theorem read_ram_get (ram : Ram) (addr : Nat) {offset : Nat} (inside : offset < sectorSize) :
    (readRam ram addr).getD offset 0 = ram (addr + offset) := by
  unfold readRam
  rw [getD_eq_getElem?_getD, getElem?_map, getElem?_range inside]
  rfl

theorem read_sectors_wrote (wrote : Wrote ram allocator frames writer) (header : Sector)
    {count : Nat} (stored : count ≤ frames.length) :
    readSectors (update writer.disk snapshotBaseLba header) (snapshotBaseLba + 1)
      (count * 8) = framesBytes ram allocator (frames.take count) := by
  induction count with
  | zero => simp [readSectors, framesBytes]
  | succ count ih =>
    have earlier := ih (by omega)
    have frame : (range 8).flatMap (fun offset =>
          update writer.disk snapshotBaseLba header
            (snapshotBaseLba + 1 + (count * 8 + offset))) =
        frameBytes ram (allocator.frameIndexToAddr (frames.getD count 0)) := by
      apply flatMap_congr
      intro offset inside
      have within := mem_range.mp inside
      have behind : snapshotBaseLba + 1 + (count * 8 + offset) ≠ snapshotBaseLba := by omega
      rw [update_of_ne behind, ← Nat.add_assoc]
      exact wrote.disk count (by omega) offset within
    have next : frames.take (count + 1) = frames.take count ++ [frames.getD count 0] := by
      rw [take_add_one, getD_eq_getElem?_getD,
        getElem?_eq_getElem (by omega : count < frames.length)]
      rfl
    unfold readSectors at earlier ⊢
    rw [Nat.succ_mul, range_add, flatMap_append, flatMap_map, earlier, frame, next]
    unfold framesBytes
    rw [flatMap_append, flatMap_singleton]

theorem restore_sectors_apply (disk : Disk) (pa lba sectors : Nat) (ram : Ram) (place : Nat) :
    ((range sectors).foldl
        (fun ram offset => writeRam ram (pa + offset * sectorSize) (disk (lba + offset))) ram)
      place =
      if pa ≤ place ∧ place < pa + sectors * sectorSize then
        (disk (lba + (place - pa) / sectorSize)).getD ((place - pa) % sectorSize) 0
      else ram place := by
  induction sectors with
  | zero =>
    have empty : ¬ (pa ≤ place ∧ place < pa + 0 * sectorSize) := by omega
    rw [if_neg empty]
    rfl
  | succ sectors ih =>
    rw [range_succ, foldl_append, foldl_cons, foldl_nil]
    unfold writeRam at ih ⊢
    by_cases last : pa + sectors * sectorSize ≤ place ∧
        place < pa + sectors * sectorSize + sectorSize
    · have inside : pa ≤ place ∧ place < pa + (sectors + 1) * sectorSize := by
        unfold sectorSize at last ⊢
        omega
      have sector : (place - pa) / sectorSize = sectors := by
        unfold sectorSize at last ⊢
        omega
      have offset : place - (pa + sectors * sectorSize) = (place - pa) % sectorSize := by
        unfold sectorSize at last ⊢
        omega
      rw [if_pos last, if_pos inside, sector, offset]
    · have same : (pa ≤ place ∧ place < pa + (sectors + 1) * sectorSize) ↔
          (pa ≤ place ∧ place < pa + sectors * sectorSize) := by
        unfold sectorSize at last ⊢
        omega
      rw [if_neg last]
      simp only [same]
      exact ih

theorem restore_frames_succ (disk : Disk) (paBase count : Nat) (ram : Ram) :
    restoreFrames disk paBase (count + 1) ram =
      restoreFrame disk paBase (restoreFrames disk paBase count ram) count := by
  unfold restoreFrames
  rw [range_succ, foldl_append, foldl_cons, foldl_nil]

theorem restore_frames_apply (disk : Disk) (paBase count : Nat) (ram : Ram) (place : Nat)
    (fits : paBase + count * pageSize ≤ 2 ^ 64) :
    restoreFrames disk paBase count ram place =
      if paBase ≤ place ∧ place < paBase + count * pageSize then
        (disk (snapshotBaseLba + 1 + (place - paBase) / sectorSize)).getD
          ((place - paBase) % sectorSize) 0
      else ram place := by
  induction count with
  | zero =>
    have empty : ¬ (paBase ≤ place ∧ place < paBase + 0 * pageSize) := by omega
    rw [if_neg empty]
    rfl
  | succ count ih =>
    have below : paBase + count * pageSize < 2 ^ 64 := by
      unfold pageSize at fits ⊢
      omega
    have earlier := ih (Nat.le_of_lt below)
    have unwrapped : usize (paBase + count * pageSize) = paBase + count * pageSize :=
      Nat.mod_eq_of_lt below
    rw [restore_frames_succ]
    unfold restoreFrame
    rw [unwrapped, restore_sectors_apply, earlier]
    by_cases last : paBase + count * pageSize ≤ place ∧
        place < paBase + count * pageSize + 8 * sectorSize
    · have inside : paBase ≤ place ∧ place < paBase + (count + 1) * pageSize := by
        unfold pageSize sectorSize at last
        unfold pageSize
        omega
      have sector : count * 8 + (place - (paBase + count * pageSize)) / sectorSize =
          (place - paBase) / sectorSize := by
        unfold pageSize sectorSize at last ⊢
        omega
      have offset : (place - (paBase + count * pageSize)) % sectorSize =
          (place - paBase) % sectorSize := by
        unfold pageSize sectorSize at last ⊢
        omega
      rw [if_pos last, if_pos inside, Nat.add_assoc (snapshotBaseLba + 1), sector, offset]
    · have same : (paBase ≤ place ∧ place < paBase + (count + 1) * pageSize) ↔
          (paBase ≤ place ∧ place < paBase + count * pageSize) := by
        unfold pageSize sectorSize at last
        unfold pageSize
        omega
      rw [if_neg last]
      simp only [same]

structure Addressable (allocator : FrameAllocator) : Prop where
  region : allocator.memoryStart + allocator.totalFrames * pageSize < 2 ^ 64
  finish : allocator.memoryEnd < 2 ^ 64

/-- Frames the header announces: the counter is a `u32`. -/
def announcedFrames (allocator : FrameAllocator) : Nat :=
  (storedFrames allocator).length % 2 ^ 32

def blankHeader (kernelHash : Nat) (allocator : FrameAllocator) : SnapshotHeader where
  magic := snapshotMagic
  version := snapshotFormatVersion
  flags := 0
  kernelHash := kernelHash
  paBase := allocator.memoryStart
  paEnd := allocator.memoryEnd
  frameCount := announcedFrames allocator
  crc32 := 0

/-- The checksum over header and announced frames is the one over all stored frames. -/
def ChecksumsAgree (kernelHash : Nat) (allocator : FrameAllocator) (ram : Ram) : Prop :=
  crc32 ((blankHeader kernelHash allocator).bytes ++
      framesBytes ram allocator ((storedFrames allocator).take (announcedFrames allocator))) =
    crc32 (framesBytes ram allocator (storedFrames allocator))

/-- Stored frame number `idx` has the bytes of frame `idx`; an allocated frame
beyond the stored ones still has its bytes when the restore begins. -/
def FramesInPlace (allocator : FrameAllocator) (ram present : Ram) : Prop :=
  ∀ idx, allocator.isFrameAllocated idx = true → ∀ offset, offset < pageSize →
    (if idx < announcedFrames allocator then
        ram (allocator.frameIndexToAddr ((storedFrames allocator).getD idx 0) + offset)
      else present (allocator.frameIndexToAddr idx + offset)) =
      ram (allocator.frameIndexToAddr idx + offset)

/-- Serialising with memory `ram` and restoring over memory `present` passes
validation and gives every allocated frame the bytes it was serialised with. -/
def SurvivesRestore (kernelHash : Nat) (allocator : FrameAllocator) (disk : Disk)
    (ram present : Ram) : Prop :=
  ∃ restored,
    (tryRestore kernelHash (serializeSnapshot kernelHash allocator ram disk).1 present).1 =
        .warmBoot restored ∧
      ∀ idx, allocator.isFrameAllocated idx = true → ∀ offset, offset < pageSize →
        restored (allocator.frameIndexToAddr idx + offset) =
          ram (allocator.frameIndexToAddr idx + offset)

section Restore

variable {kernelHash : Nat} {allocator : FrameAllocator} (disk : Disk) (ram present : Ram)

/-- Without wrapping of the frame counter, the checksums agree exactly when
the header on its own has the checksum of no input. -/
theorem checksums_agree_iff (few : (storedFrames allocator).length < 2 ^ 32) :
    ChecksumsAgree kernelHash allocator ram ↔
      crc32 (blankHeader kernelHash allocator).bytes = 0 := by
  have all : (storedFrames allocator).take (announcedFrames allocator) =
      storedFrames allocator := by
    unfold announcedFrames
    rw [Nat.mod_eq_of_lt few, take_length]
  unfold ChecksumsAgree
  rw [all]
  exact crc32_block_iff _ _

theorem stored_length_le (allocator : FrameAllocator) :
    (storedFrames allocator).length ≤ allocator.totalFrames := by
  have shorter := length_filter_le
    (fun idx => allocator.isFrameAllocated idx &&
      decide (ramBase ≤ allocator.frameIndexToAddr idx))
    (range allocator.totalFrames)
  rw [length_range] at shorter
  exact shorter

theorem announced_le (allocator : FrameAllocator) :
    announcedFrames allocator ≤ (storedFrames allocator).length :=
  Nat.mod_le _ _

def writtenHeader (kernelHash : Nat) (allocator : FrameAllocator) (ram : Ram) :
    SnapshotHeader :=
  { blankHeader kernelHash allocator with
    crc32 := (crc32 (framesBytes ram allocator (storedFrames allocator))).toNat }

theorem serialize_eq (kernelHash : Nat) (allocator : FrameAllocator) :
    (serializeSnapshot kernelHash allocator ram disk).1 =
      update (writeFrames ram allocator disk).disk snapshotBaseLba
        ((writtenHeader kernelHash allocator ram).bytes ++ zeroSector.drop 40) := by
  have wrote := write_frames_wrote ram allocator disk
  unfold serializeSnapshot
  simp only [wrote.hasher, wrote.count]
  rfl

theorem written_header_fits (addressable : Addressable allocator)
    (hash : kernelHash < 2 ^ 64) : (writtenHeader kernelHash allocator ram).Fits where
  magic := (by decide : snapshotMagic < 256 ^ 4)
  version := (by decide : snapshotFormatVersion < 256 ^ 2)
  flags := (by decide : 0 < 256 ^ 2)
  kernelHash := hash
  paBase := by
    have region := addressable.region
    change allocator.memoryStart < 256 ^ 8
    omega
  paEnd := addressable.finish
  frameCount := Nat.mod_lt _ (by decide)
  crc32 := (crc32 (framesBytes ram allocator (storedFrames allocator))).isLt

theorem try_restore_serialized (addressable : Addressable allocator)
    (hash : kernelHash < 2 ^ 64) (outcome : Ram) :
    (tryRestore kernelHash (serializeSnapshot kernelHash allocator ram disk).1 present).1 =
        .warmBoot outcome ↔
      ChecksumsAgree kernelHash allocator ram ∧
        outcome = restoreFrames (serializeSnapshot kernelHash allocator ram disk).1
          allocator.memoryStart (announcedFrames allocator) present := by
  have wrote := write_frames_wrote ram allocator disk
  have sector : (serializeSnapshot kernelHash allocator ram disk).1 snapshotBaseLba =
      (writtenHeader kernelHash allocator ram).bytes ++ zeroSector.drop 40 := by
    rw [serialize_eq, update_self]
  have decoded := of_bytes_bytes (written_header_fits ram addressable hash) (zeroSector.drop 40)
  have hashed : hashedHeader
      ((writtenHeader kernelHash allocator ram).bytes ++ zeroSector.drop 40) =
        (blankHeader kernelHash allocator).bytes := hashed_header_eq _ _
  have data : readSectors (serializeSnapshot kernelHash allocator ram disk).1
      (snapshotBaseLba + 1) (announcedFrames allocator * 8) =
      framesBytes ram allocator
        ((storedFrames allocator).take (announcedFrames allocator)) := by
    exact read_sectors_wrote wrote _ (announced_le allocator)
  have magic : ¬ (writtenHeader kernelHash allocator ram).magic ≠ snapshotMagic :=
    fun differs => differs rfl
  have version : ¬ (writtenHeader kernelHash allocator ram).version ≠ snapshotFormatVersion :=
    fun differs => differs rfl
  have kernel : ¬ (writtenHeader kernelHash allocator ram).kernelHash ≠ kernelHash :=
    fun differs => differs rfl
  have frames : (writtenHeader kernelHash allocator ram).frameCount =
      announcedFrames allocator := rfl
  have base : (writtenHeader kernelHash allocator ram).paBase = allocator.memoryStart := rfl
  have checksum : (~~~ feed poly32 start32
        ((blankHeader kernelHash allocator).bytes ++ framesBytes ram allocator
            ((storedFrames allocator).take (announcedFrames allocator)))).toNat ≠
        (writtenHeader kernelHash allocator ram).crc32 ↔
      ¬ ChecksumsAgree kernelHash allocator ram :=
    not_congr BitVec.toNat_inj
  unfold tryRestore
  dsimp only
  rw [sector, decoded, hashed, if_neg magic, if_neg version, if_neg kernel, frames, data]
  by_cases agree : ChecksumsAgree kernelHash allocator ram
  · rw [if_neg (fun differs => checksum.mp differs agree), RestoreOutcome.warmBoot.injEq]
    constructor
    · intro same
      exact ⟨agree, same.symm⟩
    · intro same
      exact same.2.symm
  · rw [if_pos (checksum.mpr agree)]
    constructor
    · intro accepted
      cases accepted
    · intro accepted
      exact absurd accepted.1 agree

theorem restored_frame (addressable : Addressable allocator) {idx offset : Nat}
    (inside : idx < allocator.totalFrames) (within : offset < pageSize) :
    restoreFrames (serializeSnapshot kernelHash allocator ram disk).1
        allocator.memoryStart (announcedFrames allocator) present
        (allocator.frameIndexToAddr idx + offset) =
      if idx < announcedFrames allocator then
        ram (allocator.frameIndexToAddr ((storedFrames allocator).getD idx 0) + offset)
      else present (allocator.frameIndexToAddr idx + offset) := by
  have wrote := write_frames_wrote ram allocator disk
  have region := addressable.region
  have announced := announced_le allocator
  have stored := stored_length_le allocator
  have earlier := Nat.mul_le_mul_right pageSize (Nat.le_of_lt inside)
  have low : allocator.memoryStart + idx * pageSize < 2 ^ 64 := by omega
  have addr : allocator.frameIndexToAddr idx = allocator.memoryStart + idx * pageSize :=
    Nat.mod_eq_of_lt low
  have shorter := Nat.mul_le_mul_right pageSize (announced.trans stored)
  have fits : allocator.memoryStart + announcedFrames allocator * pageSize ≤ 2 ^ 64 := by omega
  have covered : (allocator.memoryStart ≤ allocator.memoryStart + idx * pageSize + offset ∧
      allocator.memoryStart + idx * pageSize + offset <
        allocator.memoryStart + announcedFrames allocator * pageSize) ↔
      idx < announcedFrames allocator := by
    unfold pageSize at within ⊢
    omega
  rw [addr, restore_frames_apply _ _ _ _ _ fits]
  simp only [covered]
  by_cases below : idx < announcedFrames allocator
  · have sector : snapshotBaseLba + 1 + (allocator.memoryStart + idx * pageSize + offset -
        allocator.memoryStart) / sectorSize =
        snapshotBaseLba + 1 + idx * 8 + offset / sectorSize := by
      unfold pageSize sectorSize
      omega
    have place : (allocator.memoryStart + idx * pageSize + offset -
        allocator.memoryStart) % sectorSize = offset % sectorSize := by
      unfold pageSize sectorSize
      omega
    have eighth : offset / sectorSize < 8 := by
      unfold pageSize at within
      unfold sectorSize
      omega
    have behind : snapshotBaseLba + 1 + idx * 8 + offset / sectorSize ≠ snapshotBaseLba := by
      generalize offset / sectorSize = part
      omega
    rw [if_pos below, if_pos below, sector, place, serialize_eq, update_of_ne behind,
      wrote.disk idx (by omega) _ eighth, read_ram_get _ _ (Nat.mod_lt _ (by decide)),
      Nat.add_assoc, Nat.mul_comm, Nat.div_add_mod]
  · rw [if_neg below, if_neg below]

end Restore

/-- Restoring what was just serialised passes validation and gives every
allocated frame its bytes back exactly when the two checksums agree and every
stored frame lands on a frame with the same bytes. -/
theorem snapshot_survives_iff (kernelHash : Nat) (allocator : FrameAllocator) (disk : Disk)
    (ram present : Ram) (addressable : Addressable allocator) (hash : kernelHash < 2 ^ 64) :
    SurvivesRestore kernelHash allocator disk ram present ↔
      ChecksumsAgree kernelHash allocator ram ∧ FramesInPlace allocator ram present := by
  have accepted := try_restore_serialized disk ram present addressable hash
  constructor
  · rintro ⟨restored, outcome, same⟩
    obtain ⟨agree, written⟩ := (accepted restored).mp outcome
    refine ⟨agree, ?_⟩
    intro idx allocated offset within
    have inside := allocated_inside allocated
    rw [← restored_frame disk ram present addressable inside within, ← written]
    exact same idx allocated offset within
  · rintro ⟨agree, inPlace⟩
    refine ⟨_, (accepted _).mpr ⟨agree, rfl⟩, ?_⟩
    intro idx allocated offset within
    have inside := allocated_inside allocated
    rw [restored_frame disk ram present addressable inside within]
    exact inPlace idx allocated offset within

def bootAllocator : FrameAllocator := .newFromMap smallMap

theorem boot_addressable : Addressable bootAllocator :=
  ⟨by decide +kernel, by decide +kernel⟩

theorem boot_stored : storedFrames bootAllocator = [0] := by decide +kernel

theorem boot_few : (storedFrames bootAllocator).length < 2 ^ 32 := by
  decide

/-- With this one kernel hash the header happens to have checksum zero. -/
theorem lucky_snapshot_survives :
    SurvivesRestore 0xc9799b48 bootAllocator (fun _ => []) (fun place => BitVec.ofNat 8 place)
      (fun _ => 0) := by
  have header : crc32 (blankHeader 0xc9799b48 bootAllocator).bytes = 0 := by decide +kernel
  have frames : ∀ idx, bootAllocator.isFrameAllocated idx = true → idx = 0 := by
    intro idx allocated
    have inside := allocated_inside allocated
    have total : bootAllocator.totalFrames = 4 := by decide +kernel
    rw [total] at inside
    have checked : ∀ tested < 4, bootAllocator.isFrameAllocated tested = true → tested = 0 := by
      decide +kernel
    exact checked idx inside allocated
  apply (snapshot_survives_iff _ _ _ _ _ boot_addressable (by decide)).mpr
  refine ⟨(checksums_agree_iff _ boot_few).mpr header, ?_⟩
  intro idx allocated offset _
  have first := frames idx allocated
  subst first
  have announced : 0 < announcedFrames bootAllocator := by
    unfold announcedFrames
    rw [boot_stored]
    decide
  rw [if_pos announced, boot_stored]
  rfl

theorem snapshot_fails_validation :
    ¬ SurvivesRestore 0 bootAllocator (fun _ => []) (fun _ => 0) (fun _ => 0) := by
  have header : crc32 (blankHeader 0 bootAllocator).bytes ≠ 0 := by decide +kernel
  rintro ⟨restored, accepted, -⟩
  have agree := ((try_restore_serialized _ _ _ boot_addressable (by decide) restored).mp
    accepted).1
  exact header ((checksums_agree_iff _ boot_few).mp agree)

end ViCell.Snapshot

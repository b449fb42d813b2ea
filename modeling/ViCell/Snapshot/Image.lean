import ViCell.Lib.Bytes
import ViCell.Lib.Crc
import ViCell.Memory.FrameAllocator

/-!
# Writing and restoring a memory snapshot

`serialize_snapshot` and `try_restore` of `snapshot.rs`, with memory and disk
as functions of the address and of the sector number. Reads and writes of the
block device succeed. What restarts the hardware after a successful restore
(interrupt controller, drivers, timer, scheduler) is not part of the model: a
restore that passed validation ends with the memory it leaves behind.
-/

namespace ViCell.Snapshot

open Lib Memory List Bytes Crc

abbrev Sector := List Byte
abbrev Disk := Nat → Sector
abbrev Ram := Nat → Byte

def sectorSize : Nat := 512

def snapshotBaseLba : Nat := 560000

def snapshotFormatVersion : Nat := 1

def snapshotMagic : Nat := 0x55434956

/-- Frames below the RAM base are taken for MMIO and skipped. -/
def ramBase : Nat := 0x80000000

structure SnapshotHeader where
  magic : Nat
  version : Nat
  flags : Nat
  kernelHash : Nat
  paBase : Nat
  paEnd : Nat
  frameCount : Nat
  crc32 : Nat
  deriving DecidableEq, Repr

/-- The `repr(C)` layout: 40 bytes without padding. -/
def SnapshotHeader.bytes (header : SnapshotHeader) : List Byte :=
  encodeLE 4 header.magic ++ (encodeLE 2 header.version ++
    (encodeLE 2 header.flags ++ (encodeLE 8 header.kernelHash ++
      (encodeLE 8 header.paBase ++ (encodeLE 8 header.paEnd ++
        (encodeLE 4 header.frameCount ++ encodeLE 4 header.crc32))))))

/-- The first bytes of a sector read as a header. -/
def SnapshotHeader.ofBytes (bytes : List Byte) : SnapshotHeader where
  magic := decodeLE (bytes.take 4)
  version := decodeLE ((bytes.drop 4).take 2)
  flags := decodeLE ((bytes.drop 6).take 2)
  kernelHash := decodeLE ((bytes.drop 8).take 8)
  paBase := decodeLE ((bytes.drop 16).take 8)
  paEnd := decodeLE ((bytes.drop 24).take 8)
  frameCount := decodeLE ((bytes.drop 32).take 4)
  crc32 := decodeLE ((bytes.drop 36).take 4)

def zeroSector : Sector := replicate sectorSize 0

def readRam (ram : Ram) (address : Nat) : Sector :=
  (range sectorSize).map (fun i => ram (address + i))

def writeRam (ram : Ram) (address : Nat) (bytes : Sector) : Ram := fun place =>
  if address ≤ place ∧ place < address + sectorSize then bytes.getD (place - address) 0
  else ram place

/-- The locals of the writing loop, with the disk it writes to. -/
structure Writer where
  disk : Disk
  lba : Nat
  hasher : BitVec 32
  frameCount : Nat

def Writer.writeSector (writer : Writer) (buf : Sector) : Writer :=
  { writer with
    disk := Function.update writer.disk writer.lba buf
    lba := writer.lba + 1
    hasher := feed poly32 writer.hasher buf }

def Writer.writeSectors (ram : Ram) (pa : Nat) (writer : Writer) (count : Nat) : Writer :=
  (range count).foldl
    (fun writer offset => writer.writeSector (readRam ram (pa + offset * sectorSize))) writer

def Writer.writeFrame (ram : Ram) (writer : Writer) (pa : Nat) : Writer :=
  let written := writer.writeSectors ram pa 8
  { written with frameCount := (written.frameCount + 1) % 2 ^ 32 }

def Writer.visit (ram : Ram) (allocator : FrameAllocator) (writer : Writer) (idx : Nat) :
    Writer :=
  if allocator.isFrameAllocated idx = false then writer
  else if allocator.frameIndexToAddr idx < ramBase then writer
  else writer.writeFrame ram (allocator.frameIndexToAddr idx)

def writeFrames (ram : Ram) (allocator : FrameAllocator) (disk : Disk) : Writer :=
  (range allocator.totalFrames).foldl (Writer.visit ram allocator)
    { disk := disk, lba := snapshotBaseLba + 1, hasher := start32, frameCount := 0 }

def serializeSnapshot (kernelHash : Nat) (allocator : FrameAllocator) (ram : Ram)
    (disk : Disk) : Disk × Nat :=
  let writer := writeFrames ram allocator disk
  let header : SnapshotHeader :=
    { magic := snapshotMagic
      version := snapshotFormatVersion
      flags := 0
      kernelHash := kernelHash
      paBase := allocator.memoryStart
      paEnd := allocator.memoryEnd
      frameCount := writer.frameCount
      crc32 := (~~~ writer.hasher).toNat }
  (Function.update writer.disk snapshotBaseLba (header.bytes ++ zeroSector.drop 40),
    writer.frameCount)

inductive RestoreOutcome where
  | coldBoot
  | warmBoot (ram : Ram)

def invalidateSnapshot (disk : Disk) : Disk :=
  Function.update disk snapshotBaseLba zeroSector

def hashedHeader (sector : Sector) : List Byte :=
  (sector.take 36 ++ (replicate 4 0 ++ sector.drop 40)).take 40

def readSectors (disk : Disk) (lba count : Nat) : List Byte :=
  (range count).flatMap (fun i => disk (lba + i))

def restoreFrame (disk : Disk) (paBase : Nat) (ram : Ram) (frame : Nat) : Ram :=
  (range 8).foldl
    (fun ram offset =>
      writeRam ram (usize (paBase + frame * pageSize) + offset * sectorSize)
        (disk (snapshotBaseLba + 1 + frame * 8 + offset)))
    ram

def restoreFrames (disk : Disk) (paBase count : Nat) (ram : Ram) : Ram :=
  (range count).foldl (restoreFrame disk paBase) ram

def tryRestore (kernelHash : Nat) (disk : Disk) (ram : Ram) : RestoreOutcome × Disk :=
  let sector := disk snapshotBaseLba
  let header := SnapshotHeader.ofBytes sector
  if header.magic ≠ snapshotMagic then (.coldBoot, disk)
  else if header.version ≠ snapshotFormatVersion then (.coldBoot, disk)
  else if header.kernelHash ≠ kernelHash then (.coldBoot, invalidateSnapshot disk)
  else
    let hasher := feed poly32 start32
      (hashedHeader sector ++ readSectors disk (snapshotBaseLba + 1) (header.frameCount * 8))
    if (~~~ hasher).toNat ≠ header.crc32 then (.coldBoot, invalidateSnapshot disk)
    else (.warmBoot (restoreFrames disk header.paBase header.frameCount ram), disk)

end ViCell.Snapshot

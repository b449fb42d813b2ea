import ViCell.Api
import ViCell.Lib.WordBitmap

/-!
# The physical frame allocator

`FrameAllocator` of `memory/frame.rs`: one bitmap over the largest usable
region of the boot memory map, a next-fit single-frame allocation, a first-fit
contiguous allocation, and the guest-RAM allocation that searches in several
short lock holds. Addresses are `usize`: in the release profile their
arithmetic wraps at `2 ^ 64`, and so it does here. `none` in the outer option
of an allocation is the panic of an index beyond the bitmap slice.
-/

namespace ViCell.Memory

open Lib List WordBitmap

def pageSize : Nat := 4096

def usize (value : Nat) : Nat := value % 2 ^ 64

def pageFloor (value : Nat) : Nat := value / pageSize * pageSize

inductive MemoryType where
  | usable
  | reserved
  | acpiReclaimable
  | acpiNvs
  | badMemory
  | bootloader
  | kernel
  | framebuffer
  | mmio
  deriving DecidableEq, Repr

structure MemoryMapEntry where
  base : Nat
  length : Nat
  ty : MemoryType
  deriving DecidableEq, Repr

/-- The accumulators of the search for the largest usable region. -/
structure BestRegion where
  start : Nat
  finish : Nat
  length : Nat
  deriving DecidableEq, Repr

def BestRegion.keepLargest (best : BestRegion) (entry : MemoryMapEntry) : BestRegion :=
  if entry.ty = .usable then
    if best.length < entry.length then
      { start := entry.base
        finish := usize (entry.base + entry.length)
        length := entry.length }
    else best
  else best

def largestUsable (entries : List MemoryMapEntry) : BestRegion :=
  entries.foldl BestRegion.keepLargest { start := 0, finish := 0, length := 0 }

structure FrameAllocator where
  memoryStart : Nat
  memoryEnd : Nat
  totalFrames : Nat
  bitmap : List (BitVec 64)
  lastAllocIndex : Nat
  deriving DecidableEq, Repr

namespace FrameAllocator

/-- The bitmap is placed at the start of the region and zeroed there word by word; the
model keeps it beside the memory, as zeros. -/
def newFromMap (entries : List MemoryMapEntry) : FrameAllocator :=
  let best := largestUsable entries
  let alignedStart := pageFloor (usize (best.start + pageSize - 1))
  let alignedEnd := pageFloor best.finish
  let totalFrames := wrappingSub alignedEnd alignedStart / pageSize
  let bitmapCount := (totalFrames + 63) / 64
  let bitmapPages := (bitmapCount * 8 + pageSize - 1) / pageSize
  { memoryStart := alignedStart
    memoryEnd := alignedEnd
    totalFrames := totalFrames
    bitmap := setRange (replicate bitmapCount 0) 0 bitmapPages
    lastAllocIndex := 0 }

/-- The pages at the start of the region that hold the bitmap itself. -/
def bitmapPages (allocator : FrameAllocator) : Nat :=
  (allocator.bitmap.length * 8 + pageSize - 1) / pageSize

def findFree (allocator : FrameAllocator) (start finish : Nat) : Option Nat :=
  firstClear allocator.bitmap finish (finish - start) start

def markUsed (allocator : FrameAllocator) (idx : Nat) : FrameAllocator :=
  { allocator with bitmap := setBit allocator.bitmap idx }

def markFree (allocator : FrameAllocator) (idx : Nat) : FrameAllocator :=
  { allocator with bitmap := clearBit allocator.bitmap idx }

def frameIndexToAddr (allocator : FrameAllocator) (idx : Nat) : Nat :=
  usize (allocator.memoryStart + idx * pageSize)

def addrToFrameIndex (allocator : FrameAllocator) (addr : Nat) : Option Nat :=
  if addr < allocator.memoryStart ∨ allocator.memoryEnd ≤ addr then none
  else some ((addr - allocator.memoryStart) / pageSize)

/-- The end of both passes of `allocate_frame`: frame `idx` is handed out. -/
def handOut (allocator : FrameAllocator) (idx : Nat) : FrameAllocator :=
  { allocator.markUsed idx with lastAllocIndex := idx + 1 }

def allocateFrame (allocator : FrameAllocator) : FrameAllocator × Option Nat :=
  match allocator.findFree allocator.lastAllocIndex allocator.totalFrames with
  | some idx => (allocator.handOut idx, some (allocator.frameIndexToAddr idx))
  | none =>
    match allocator.findFree 0 allocator.lastAllocIndex with
    | some idx => (allocator.handOut idx, some (allocator.frameIndexToAddr idx))
    | none => (allocator, none)

def deallocateFrame (allocator : FrameAllocator) (frame : Nat) : FrameAllocator :=
  match allocator.addrToFrameIndex frame with
  | some idx => allocator.markFree idx
  | none => allocator

def isFrameAllocated (allocator : FrameAllocator) (idx : Nat) : Bool :=
  if allocator.totalFrames ≤ idx then false else bit allocator.bitmap idx

/-- `n` frames from `start` marked one after the other; `none` is the panic
of the first index whose word is not in the slice. -/
def markRangeUsed (allocator : FrameAllocator) (start n : Nat) : Option FrameAllocator :=
  if (range n).all (fun i => decide ((start + i) / 64 < allocator.bitmap.length)) then
    some { allocator with bitmap := setRange allocator.bitmap start n }
  else none

def runFree (allocator : FrameAllocator) (n start : Nat) : Bool :=
  (range n).all (fun i => !allocator.isFrameAllocated (start + i))

def allocateContiguous (allocator : FrameAllocator) (n : Nat) :
    Option (FrameAllocator × Option Nat) :=
  if n = 1 then some allocator.allocateFrame
  else
    match (range (allocator.totalFrames - n + 1)).find? (allocator.runFree n) with
    | some start =>
      (allocator.markRangeUsed start n).map
        (fun marked => (marked, some (allocator.frameIndexToAddr start)))
    | none => some (allocator, none)

end FrameAllocator

def probeChunk : Nat := 256

/-- The locals of `allocate_guest_ram` between two lock holds. -/
structure GuestScan where
  pages : Nat
  total : Nat
  candidate : Nat
  runLen : Nat
  deriving DecidableEq, Repr

inductive GuestPhase where
  | reading (pages : Nat)
  | probing (scan : GuestScan)
  | claiming (scan : GuestScan)
  | finished (pages : Nat) (result : Option Nat)
  deriving DecidableEq, Repr

def GuestScan.continue (scan : GuestScan) : GuestPhase :=
  if scan.candidate ≤ scan.total - scan.pages ∧ scan.candidate + scan.runLen < scan.total then
    .probing scan
  else .finished scan.pages none

/-- Free frames seen from `start` on, and the first used one before `finish`. -/
def FrameAllocator.probe (allocator : FrameAllocator) (start finish : Nat) : Nat × Option Nat :=
  match (range' start (finish - start)).find? allocator.isFrameAllocated with
  | some used => (used - start, some used)
  | none => (finish - start, none)

/-- One lock hold of `allocate_guest_ram`, with the code up to the next one. -/
def FrameAllocator.guestSection (allocator : FrameAllocator) :
    GuestPhase → Option (FrameAllocator × GuestPhase)
  | .reading pages =>
    some (allocator, GuestScan.continue
        { pages := pages, total := allocator.totalFrames, candidate := 0, runLen := 0 })
  | .probing scan =>
    let start := scan.candidate + scan.runLen
    let seen := allocator.probe start (min (start + probeChunk) scan.total)
    let longer := { scan with runLen := scan.runLen + seen.1 }
    if scan.pages ≤ longer.runLen then some (allocator, .claiming longer)
    else
      match seen.2 with
      | some used =>
        some (allocator, GuestScan.continue { scan with candidate := used + 1, runLen := 0 })
      | none => some (allocator, longer.continue)
  | .claiming scan =>
    if allocator.runFree scan.pages scan.candidate then
      (allocator.markRangeUsed scan.candidate scan.pages).map
        (fun marked =>
          (marked, .finished scan.pages (some (allocator.frameIndexToAddr scan.candidate))))
    else
      some (allocator,
        GuestScan.continue { scan with candidate := scan.candidate + 1, runLen := 0 })
  | .finished pages result => some (allocator, .finished pages result)

end ViCell.Memory

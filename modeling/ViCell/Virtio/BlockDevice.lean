import ViCell.Api
import ViCell.Lib.ByteMemory

/-!
# The virtio-mmio block device of the VMM

Register block, split virtqueue and block device of one slot, over the guest's
memory.  The VMM is on the device side: on a notification it drains the available
ring, walks each descriptor chain, serves the request and reports it in the used
ring.  The counters of both rings belong to the device model, not to the registers.
-/

namespace ViCell.Virtio

open Lib Bytes

structure QueueCfg where
  num : Nat
  ready : Bool
  descGpa : Nat
  availGpa : Nat
  usedGpa : Nat
  deriving DecidableEq, Repr

def QueueCfg.default : QueueCfg := ⟨0, false, 0, 0, 0⟩

structure DescBuf where
  gpa : Nat
  len : Nat
  writable : Bool
  deriving DecidableEq, Repr

structure VirtqDesc where
  addr : Nat
  len : Nat
  flags : Nat
  next : Nat
  deriving DecidableEq, Repr

def flagsNext : Nat := 1

def flagsWrite : Nat := 2

def maxChain : Nat := 64

def field (raw : List Byte) (offset width : Nat) : Nat :=
  decodeLE ((raw.drop offset).take width)

def descAt (memory : Memory) (cfg : QueueCfg) (cur : Nat) : Option VirtqDesc :=
  (memory.read (cfg.descGpa + cur * 16) 16).map fun raw =>
    ⟨field raw 0 8, field raw 8 4, field raw 12 2, field raw 14 2⟩

/-- The buffers of a chain, at most `maxChain` of them. -/
def walkChain (memory : Memory) (cfg : QueueCfg) : Nat → Nat → List DescBuf
  | 0, _ => []
  | count + 1, cur =>
    match descAt memory cfg cur with
    | none => []
    | some desc =>
      ⟨desc.addr, desc.len, decide (desc.flags &&& flagsWrite ≠ 0)⟩ ::
        if desc.flags &&& flagsNext = 0 then [] else walkChain memory cfg count desc.next

def diskSize : Nat := 16 * 1024 * 1024

def sectorSize : Nat := 512

def sectorOffset (lba : Nat) : Nat := min (lba * sectorSize) (2 ^ 64 - 1)

def sectorsOf (count : Nat) : Nat := (count + sectorSize - 1) / sectorSize

/-- READ: disk sectors into guest buffers. -/
def blkRead (data : Nat → Byte) : Nat → List DescBuf → Memory → Memory
  | _, [], memory => memory
  | lba, buf :: bufs, memory =>
    let off := sectorOffset lba
    if off ≥ diskSize then memory
    else
      let count := min buf.len (diskSize - off)
      blkRead data (lba + sectorsOf count) bufs
        (memory.write buf.gpa ((List.range count).map fun index => data (off + index)))

/-- WRITE: guest buffers into disk sectors. -/
def blkWrite (memory : Memory) : Nat → List DescBuf → (Nat → Byte) → (Nat → Byte)
  | _, [], data => data
  | lba, buf :: bufs, data =>
    let off := sectorOffset lba
    if off ≥ diskSize then data
    else
      let count := min buf.len (diskSize - off)
      match memory.read buf.gpa count with
      | none => data
      | some bytes =>
        if count = 0 then data
        else blkWrite memory (lba + sectorsOf count) bufs fun place =>
          if off ≤ place ∧ place < off + count then bytes.getD (place - off) 0 else data place

def blkIn : Nat := 0

def blkOut : Nat := 1

def blkFlush : Nat := 4

/-- The disk and the memory after a request, and the number of bytes reported. -/
def handleBlkRequest (data : Nat → Byte) (memory : Memory) (bufs : List DescBuf) :
    (Nat → Byte) × Memory × Nat :=
  if bufs.length < 3 then (data, memory, 0)
  else
    let status := (bufs.getLastD ⟨0, 0, false⟩).gpa
    match memory.read (bufs.headD ⟨0, 0, false⟩).gpa 16 with
    | none => (data, memory.write status [1], 1)
    | some header =>
      let kind := field header 0 4
      let sector := field header 8 8
      let dataBufs := bufs.tail.dropLast
      if kind = blkIn then (data, (blkRead data sector dataBufs memory).write status [0], 1)
      else if kind = blkOut then (blkWrite memory sector dataBufs data, memory.write status [0], 1)
      else if kind = blkFlush then (data, memory.write status [0], 1)
      else (data, memory.write status [2], 1)

structure BlkDisk where
  data : Nat → Byte
  lastAvail : Nat
  usedIdx : Nat

def BlkDisk.new : BlkDisk := ⟨fun _ => 0, 0, 0⟩

/-- The device and the memory while a queue is drained, with the heads of the chains
handed to the device so far. -/
structure Draining where
  disk : BlkDisk
  memory : Memory
  heads : List Nat

def indexModulus : Nat := 2 ^ 16

/-- Serving one chain: the request, then the used-ring entry, then `used.idx`. -/
def serveHead (cfg : QueueCfg) (state : Draining) (head : Nat) : Draining :=
  let bufs := walkChain state.memory cfg maxChain head
  let (data, memory, written) := handleBlkRequest state.disk.data state.memory bufs
  let usedIdx := (state.disk.usedIdx + 1) % indexModulus
  let reported := memory.write (cfg.usedGpa + (4 + state.disk.usedIdx % cfg.num * 8))
    (encodeLE 4 head ++ encodeLE 4 written)
  { disk := ⟨data, (state.disk.lastAvail + 1) % indexModulus, usedIdx⟩
    memory := reported.write (cfg.usedGpa + 2) (encodeLE 2 usedIdx)
    heads := state.heads ++ [head] }

/-- The loop of `process_notify`; it ends when the counter has caught up or the ring
cannot be read. -/
def drain (cfg : QueueCfg) (availIdx : Nat) : Nat → Draining → Option Draining
  | 0, _ => none
  | fuel + 1, state =>
    if state.disk.lastAvail = availIdx then some state
    else
      match state.memory.read (cfg.availGpa + (4 + state.disk.lastAvail % cfg.num * 2)) 2 with
      | none => some state
      | some entry => drain cfg availIdx fuel (serveHead cfg state (decodeLE entry))

def processNotify (cfg : QueueCfg) (disk : BlkDisk) (memory : Memory) : Option Draining :=
  if cfg.num = 0 then some ⟨disk, memory, []⟩
  else
    match memory.read (cfg.availGpa + 2) 2 with
    | none => some ⟨disk, memory, []⟩
    | some entry => drain cfg (decodeLE entry) indexModulus ⟨disk, memory, []⟩

def maxQueues : Nat := 2

def queueSizeMax : Nat := 256

structure VirtioMmio where
  status : BitVec 32
  featSel : BitVec 32
  drvFeatSel : BitVec 32
  drvFeatLo : BitVec 32
  drvFeatHi : BitVec 32
  queueSel : Nat
  queues : Nat → QueueCfg
  intrStatus : BitVec 32

def VirtioMmio.default : VirtioMmio := ⟨0, 0, 0, 0, 0, 0, fun _ => .default, 0⟩

inductive Register where
  | deviceFeaturesSel
  | driverFeatures
  | driverFeaturesSel
  | queueSel
  | queueNum
  | queueReady
  | queueNotify
  | interruptAck
  | status
  | queueDesc (high : Bool)
  | queueAvail (high : Bool)
  | queueUsed (high : Bool)
  | other
  deriving DecidableEq, Repr

def Register.ofOffset : Nat → Register
  | 0x014 => .deviceFeaturesSel
  | 0x020 => .driverFeatures
  | 0x024 => .driverFeaturesSel
  | 0x030 => .queueSel
  | 0x038 => .queueNum
  | 0x044 => .queueReady
  | 0x050 => .queueNotify
  | 0x064 => .interruptAck
  | 0x070 => .status
  | 0x080 => .queueDesc false
  | 0x084 => .queueDesc true
  | 0x090 => .queueAvail false
  | 0x094 => .queueAvail true
  | 0x0a0 => .queueUsed false
  | 0x0a4 => .queueUsed true
  | _ => .other

def setHalf (address : Nat) (high : Bool) (val : BitVec 32) : Nat :=
  if high then address % 2 ^ 32 + val.toNat * 2 ^ 32
  else address / 2 ^ 32 * 2 ^ 32 + val.toNat

/-- The slot of the block device with the guest's memory. -/
structure BlkSlot where
  regs : VirtioMmio
  disk : BlkDisk
  memory : Memory

namespace BlkSlot

def setQueue (slot : BlkSlot) (change : QueueCfg → QueueCfg) : BlkSlot :=
  if slot.regs.queueSel < maxQueues then
    { slot with regs := { slot.regs with
        queues := Function.update slot.regs.queues slot.regs.queueSel
          (change (slot.regs.queues slot.regs.queueSel)) } }
  else slot

def raiseInterrupt (slot : BlkSlot) : BlkSlot :=
  { slot with regs := { slot.regs with intrStatus := slot.regs.intrStatus ||| 1 } }

def notify (slot : BlkSlot) (queue : Nat) : Option (BlkSlot × List Nat) :=
  if queue = 0 then
    (processNotify (slot.regs.queues queue) slot.disk slot.memory).map fun drained =>
      ({ slot with disk := drained.disk, memory := drained.memory }, drained.heads)
  else some (slot, [])

def writeStatus (slot : BlkSlot) (val : BitVec 32) : BlkSlot :=
  if val = 0 then { slot with regs := .default }
  else if val &&& 8 ≠ 0 ∧ slot.regs.drvFeatHi &&& 1 = 0 then
    { slot with regs := { slot.regs with status := slot.regs.status ||| 0x40 } }
  else
    { slot with regs := { slot.regs with
        status := if val &&& 0x80 ≠ 0 then val ||| 0x40 else val } }

/-- A register write and the heads of the chains it made the device handle. -/
def mmioWrite (slot : BlkSlot) (register : Register) (val : BitVec 32) :
    Option (BlkSlot × List Nat) :=
  match register with
  | .deviceFeaturesSel => some ({ slot with regs := { slot.regs with featSel := val } }, [])
  | .driverFeatures =>
    some (if slot.regs.drvFeatSel = 0 then
        { slot with regs := { slot.regs with drvFeatLo := val } }
      else { slot with regs := { slot.regs with drvFeatHi := val } }, [])
  | .driverFeaturesSel => some ({ slot with regs := { slot.regs with drvFeatSel := val } }, [])
  | .queueSel =>
    some (if val.toNat < maxQueues then
        { slot with regs := { slot.regs with queueSel := val.toNat } }
      else slot, [])
  | .queueNum => some (slot.setQueue (fun cfg => { cfg with num := min val.toNat queueSizeMax }), [])
  | .queueReady => some (slot.setQueue (fun cfg => { cfg with ready := decide (val = 1) }), [])
  | .queueNotify =>
    if val.toNat < maxQueues ∧ (slot.regs.queues val.toNat).ready = true ∧
        (slot.regs.queues val.toNat).num > 0 then
      (slot.notify val.toNat).map fun (slot, heads) => (slot.raiseInterrupt, heads)
    else some (slot, [])
  | .interruptAck =>
    some ({ slot with regs := { slot.regs with intrStatus := slot.regs.intrStatus &&& ~~~val } },
      [])
  | .status => some (slot.writeStatus val, [])
  | .queueDesc high =>
    some (slot.setQueue (fun cfg => { cfg with descGpa := setHalf cfg.descGpa high val }), [])
  | .queueAvail high =>
    some (slot.setQueue (fun cfg => { cfg with availGpa := setHalf cfg.availGpa high val }), [])
  | .queueUsed high =>
    some (slot.setQueue (fun cfg => { cfg with usedGpa := setHalf cfg.usedGpa high val }), [])
  | .other => some (slot, [])

end BlkSlot

end ViCell.Virtio

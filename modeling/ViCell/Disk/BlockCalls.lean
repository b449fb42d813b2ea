import ViCell.Core.Machine
import ViCell.Disk.Layout
import ViCell.Grants.Tables

/-!
# Raw block syscalls

`BlkRead`, `BlkWrite` and `BlkReadAsync` over the kernel's own runs. A handler
takes the scheduler lock once for the capability and once for the region mask,
and reaches the device after both: between the three sections everything else
the kernel does (spawns, revocations, exits, other calls) may happen. A call
remembers the kernel as it was in its two checks; no handler reads these copies.
-/

namespace ViCell.Disk

open Lib Core.Tcb Core.Ready Core.State Core.Machine Function

abbrev Sectors := Nat → List Byte

inductive BlockCall where
  | read (sector buf : BitVec 64)
  | write (sector buf : BitVec 64)
  | readAsync (sector grant : BitVec 64)
  deriving DecidableEq, Repr

def BlockCall.sector : BlockCall → Nat
  | .read sector _ => sector.toNat
  | .write sector _ => sector.toNat
  | .readAsync sector _ => sector.toNat

def callerHasBlockIo (kernel : Kernel) (caller : TaskId) : Bool :=
  (kernel.tasks.get caller).any Task.blockIoCap

def regionsOf (kernel : Kernel) (caller : TaskId) : BitVec 8 :=
  ((kernel.tasks.get caller).map Task.blockRegions).getD 0

def checkBlockAccess (kernel : Kernel) (caller : TaskId) (sector count : Nat) : Bool :=
  checkRegions (regionsOf kernel caller) sector count

/-- What a handler finds outside the scheduler when it reaches the device. -/
structure Surroundings where
  memory : Nat → Byte
  grants : Option Grants.GrantTable
  served : Bool

def Surroundings.bytesAt (around : Surroundings) (address : Nat) : List Byte :=
  (List.range 512).map (fun offset => around.memory (address + offset))

/-- The buffer of the transfer, or the reply of a call that has none. -/
def bufferOf (around : Surroundings) (caller : TaskId) :
    BlockCall → Except (Except SyscallError Nat) Nat
  | .read _ buf | .write _ buf =>
    if validateUserBuf buf.toNat 512 maxUserBuf then .ok buf.toNat
    else .error (.error .invalidInput)
  | .readAsync _ grant =>
    match (Grants.ownEntry caller grant.toNat around.grants).filter
        (fun entry => decide (512 ≤ entry.size)) with
    | some entry => .ok entry.base
    | none => .error (.ok 0)

structure Access where
  task : TaskId
  call : BlockCall
  buffer : Nat
  bytes : List Byte
  capSeen : Kernel
  regionsSeen : Kernel

inductive Stage where
  | entered
  | capable (capSeen : Kernel)
  | admitted (capSeen regionsSeen : Kernel)

structure BlockSystem where
  system : System
  disk : Sectors
  calls : TaskId → Option (BlockCall × Stage)
  accesses : List Access
  replies : List (TaskId × Except SyscallError Nat)

namespace BlockSystem

def initial (disk : Sectors) : BlockSystem where
  system := Core.Machine.initial
  disk := disk
  calls := fun _ => none
  accesses := []
  replies := []

def kernel (state : BlockSystem) : Kernel := state.system.kernel

def moveTo (state : BlockSystem) (caller : TaskId) (call : BlockCall) (stage : Stage) :
    BlockSystem :=
  { state with calls := update state.calls caller (some (call, stage)) }

def reply (state : BlockSystem) (caller : TaskId) (result : Except SyscallError Nat) :
    BlockSystem :=
  { state with
    calls := update state.calls caller none
    replies := (caller, result) :: state.replies }

@[simp]
theorem calls_move_to (state : BlockSystem) (caller : TaskId) (call : BlockCall) (stage : Stage)
    (other : TaskId) : (state.moveTo caller call stage).calls other =
      if other = caller then some (call, stage) else state.calls other := by
  simp only [moveTo, update_apply]

@[simp]
theorem calls_reply (state : BlockSystem) (caller : TaskId) (out : Except SyscallError Nat)
    (other : TaskId) : (state.reply caller out).calls other =
      if other = caller then none else state.calls other := by
  simp only [reply, update_apply]

/-- The bytes that move, and the disk afterwards. A device that fails keeps the
disk as it was. -/
def deviceTransfer (disk : Sectors) (around : Surroundings) (buffer : Nat) :
    BlockCall → List Byte × Sectors
  | .read sector _ | .readAsync sector _ => (disk sector.toNat, disk)
  | .write sector _ =>
    (around.bytesAt buffer,
      if around.served then update disk sector.toNat (around.bytesAt buffer)
      else disk)

def transfer (state : BlockSystem) (caller : TaskId) (around : Surroundings)
    (call : BlockCall) (capSeen regionsSeen : Kernel) : BlockSystem :=
  match bufferOf around caller call with
  | .error result => state.reply caller result
  | .ok buffer =>
    let moved := deviceTransfer state.disk around buffer call
    let access : Access :=
      { task := caller, call := call, buffer := buffer, bytes := moved.1,
        capSeen := capSeen, regionsSeen := regionsSeen }
    { state with disk := moved.2, accesses := access :: state.accesses }.reply caller
      (.ok (if around.served then 1 else 0))

def advance (state : BlockSystem) (caller : TaskId) (around : Surroundings) :
    BlockCall × Stage → BlockSystem
  | (call, .entered) =>
    if callerHasBlockIo state.kernel caller then
      state.moveTo caller call (.capable state.kernel)
    else state.reply caller (.error .permissionDenied)
  | (call, .capable capSeen) =>
    if checkBlockAccess state.kernel caller call.sector 1 then
      state.moveTo caller call (.admitted capSeen state.kernel)
    else state.reply caller (.ok 0)
  | (call, .admitted capSeen regionsSeen) =>
    state.transfer caller around call capSeen regionsSeen

inductive BlockEvent where
  | kernel (event : Event)
  | issue (hart : HartId) (call : BlockCall)
  | proceed (caller : TaskId) (around : Surroundings)

def step (state : BlockSystem) : BlockEvent → Option BlockSystem
  | .kernel event =>
    (Core.Machine.step state.system event).map (fun system => { state with system := system })
  | .issue hart call =>
    match executing state.system hart with
    | none => none
    | some caller =>
      match state.calls caller with
      | some _ => none
      | none => some (state.moveTo caller call .entered)
  | .proceed caller around => (state.calls caller).map (state.advance caller around)

end BlockSystem

end ViCell.Disk

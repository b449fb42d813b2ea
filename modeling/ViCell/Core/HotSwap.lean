import ViCell.Core.Ipc
import ViCell.Core.Handler

/-!
# Hot-swap helpers, service registry and state stash

The pieces of `cell/hotswap.rs`, `cell/service_registry.rs` and
`cell/state_stash.rs` that the handlers call.
-/

namespace ViCell.Core.HotSwap

open Lib Core.Tcb Core.Ready Core.State Core.Scheduler Core.Ipc Core.Handler

def hotswapTimeoutTicks : Nat := 500

def hotswapExitReason : Nat := 0xAAAAAAAA

def maxServices : Nat := 32

def maxStashEntries : Nat := 64

def maxStashLen : Nat := 1024 * 1024

def register (registry : List (Nat × TaskId)) (serviceId : Nat) (tid : TaskId) :
    Option (List (Nat × TaskId)) :=
  if tid = 0 then none
  else if maxServices ≤ registry.length ∧ ¬ registry.any (fun entry => entry.1 = serviceId) then
    none
  else some ((serviceId, tid) :: registry.filter (fun entry => entry.1 ≠ serviceId))

def lookup (registry : List (Nat × TaskId)) (serviceId : Nat) : Option TaskId :=
  (registry.find? (fun entry => entry.1 = serviceId)).map Prod.snd

def stashState (stash : List (Nat × List Byte)) (key : Nat) (bytes : List Byte) :
    List (Nat × List Byte) :=
  if maxStashEntries ≤ stash.length ∧ ¬ stash.any (fun entry => entry.1 = key) then stash
  else (key, bytes.take maxStashLen) :: stash.filter (fun entry => entry.1 ≠ key)

/-- The one-byte probe of `wait_for_stash_key`: an empty entry does not count. -/
def stashHolds (stash : List (Nat × List Byte)) (key : Nat) : Bool :=
  stash.any (fun entry => entry.1 = key && !entry.2.isEmpty)

def stashKeyFor (swapId : Nat) : Nat :=
  0xA3000000000000 ||| (swapId &&& 0xFFFFFFFFFFFF)

def findTidForCell (tasks : IdTable Task) (cellId : CellId) : Option TaskId :=
  tasks.ids.find? (fun id => (tasks.get id).any (fun task => task.cellId = cellId))

def setTaskFrozen (kernel : Kernel) (tid : TaskId) (swapId : Nat) : Kernel :=
  match kernel.tasks.get tid with
  | none => kernel
  | some _ =>
    { setState kernel tid (.frozen swapId) with ready := removeFromAll kernel.ready tid }

def unfreezeTask (kernel : Kernel) (hart : HartId) (tid : TaskId) : Kernel :=
  match kernel.tasks.get tid with
  | none => kernel
  | some task =>
    if task.state.isFrozen then pushReady (setState kernel tid .ready) hart tid else kernel

/-- `AppEvent::Snapshot`: magic, discriminant and the swap id. -/
def snapshotEnvelope (swapId : Nat) : List Byte :=
  [0xAC, 0xF0] ++ toLeBytes swapId

/-- `AppEvent::Restore`: the decimal swap id, padded with zeros to 64 bytes. -/
def restoreEnvelope (swapId : Nat) : List Byte :=
  let key : List Byte := ((Nat.toDigits 10 swapId).map (fun digit => .ofNat 8 digit.toNat)).take 63
  [0xAC, 0xF1] ++ key ++ List.replicate (64 - key.length) 0

def takePending (kernel : Kernel) (tid : TaskId) : Kernel × List PendingMsg :=
  (modifyTask kernel tid (fun task => { task with pendingMsgs := [] }),
    ((kernel.tasks.get tid).map Task.pendingMsgs).getD [])

end ViCell.Core.HotSwap

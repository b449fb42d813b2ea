import ViCell.Api
import ViCell.Lib.Bytes
import ViCell.Lib.RingWindow
import ViCell.Lib.Runs

/-!
# The audit ring

`kernel/src/audit.rs`: a byte ring with free-running counters. `log_event` and
`drain` take no lock, so a call is cut into its accesses to the shared words and
bytes, and calls of different contexts (the two harts, and the timer interrupt
where it is not masked) interleave between them.

`accepted` and `drained` are ghosts: the records whose call stored the new head,
and all bytes that drains have returned.
-/

namespace ViCell.Audit

open Lib Lib.RingWindow

def bufSize : Nat := 256 * 1024

def mask : Nat := bufSize - 1

def wrappingAdd (left right : Nat) : Nat := (left + right) % 2 ^ 64

inductive AuditEvent where
  | ipcSend
  | ipcRecv
  | fileOpen
  | fileWrite
  | netTx
  | netRx
  | cellSpawn
  | cellFault
  | cellExit
  | cellSpawnDenied
  | rtDeadlineMiss
  | rtCpuOverrun
  | cellHung
  | syscallDenied
  | cellMeasure
  | policyLoaded
  | policyInvalid
  | policyAbsent
  | capNarrowedByPolicy
  | capRevoked
  | cellSignatureVerified
  | cellSignatureFailed
  deriving DecidableEq, Repr

def AuditEvent.code (event : AuditEvent) : Byte := BitVec.ofNat 8 (event.ctorIdx + 1)

def payloadLen (payload : List Byte) : Nat := min payload.length 255

def recordLen (payload : List Byte) : Nat := 10 + payloadLen payload

structure Record where
  mtime : Nat
  event : AuditEvent
  payload : List Byte
  deriving DecidableEq, Repr

/-- The bytes of a record in the order in which `log_event` writes them. -/
def Record.bytes (record : Record) : List Byte :=
  Bytes.encodeLE 8 record.mtime ++ record.event.code ::
    BitVec.ofNat 8 (payloadLen record.payload) ::
      record.payload.take (payloadLen record.payload)

/-- Where a context is inside `log_event` or `drain`, with its local variables. -/
inductive Activity where
  | idle
  | logging (event : AuditEvent) (payload : List Byte) (head : Nat)
  | writing (record : Record) (head written : Nat)
  | draining (room head : Nat)
  | copying (tail toCopy : Nat) (out : List Byte)
  deriving DecidableEq, Repr

namespace Activity

def isLog : Activity → Bool
  | logging _ _ _ => true
  | writing _ _ _ => true
  | _ => false

def isDrain : Activity → Bool
  | draining _ _ => true
  | copying _ _ _ => true
  | _ => false

end Activity

/-- The ring as `count` contexts share it. -/
structure AuditRing (count : Nat) where
  buf : Nat → Byte
  head : Nat
  tail : Nat
  dropped : Nat
  contexts : Fin count → Activity
  accepted : List Record
  drained : List Byte

namespace AuditRing

variable {count : Nat}

/-- An empty ring whose counters stand at `origin`; at boot they stand at 0. -/
def empty (origin : Nat) : AuditRing count where
  buf := fun _ => 0
  head := origin % 2 ^ 64
  tail := origin % 2 ^ 64
  dropped := 0
  contexts := fun _ => .idle
  accepted := []
  drained := []

def enter (ring : AuditRing count) (context : Fin count) (activity : Activity) : AuditRing count :=
  { ring with contexts := Function.update ring.contexts context activity }

def logLoadHead (ring : AuditRing count) (context : Fin count) (event : AuditEvent) (payload : List Byte) :
    Option (AuditRing count) :=
  match ring.contexts context with
  | .idle => some (ring.enter context (.logging event payload ring.head))
  | _ => none

/-- The load of the tail and the test for room; `mtime` is read behind it. -/
def logLoadTail (ring : AuditRing count) (context : Fin count) (mtime : Nat) : Option (AuditRing count) :=
  match ring.contexts context with
  | .logging event payload head =>
    if bufSize < (wrappingSub head ring.tail + recordLen payload) % 2 ^ 64 then
      some { ring.enter context .idle with dropped := wrappingAdd ring.dropped 1 }
    else
      some (ring.enter context
        (.writing { mtime := mtime, event := event, payload := payload } head 0))
  | _ => none

def logWriteByte (ring : AuditRing count) (context : Fin count) : Option (AuditRing count) :=
  match ring.contexts context with
  | .writing record head written =>
    (record.bytes[written]?).map (fun byte =>
      { ring.enter context (.writing record head (written + 1)) with
        buf := Function.update ring.buf (wrappingAdd head written &&& mask) byte })
  | _ => none

def logPublish (ring : AuditRing count) (context : Fin count) : Option (AuditRing count) :=
  match ring.contexts context with
  | .writing record head written =>
    if written = record.bytes.length then
      some { ring.enter context .idle with
        head := wrappingAdd head (recordLen record.payload)
        accepted := ring.accepted ++ [record] }
    else none
  | _ => none

def drainLoadHead (ring : AuditRing count) (context : Fin count) (room : Nat) : Option (AuditRing count) :=
  match ring.contexts context with
  | .idle => some (ring.enter context (.draining room ring.head))
  | _ => none

def drainLoadTail (ring : AuditRing count) (context : Fin count) : Option (AuditRing count) :=
  match ring.contexts context with
  | .draining room head =>
    let available := wrappingSub head ring.tail
    if available = 0 then some (ring.enter context .idle)
    else some (ring.enter context (.copying ring.tail (min available room) []))
  | _ => none

def drainCopyByte (ring : AuditRing count) (context : Fin count) : Option (AuditRing count) :=
  match ring.contexts context with
  | .copying tail toCopy out =>
    if out.length < toCopy then
      some (ring.enter context (.copying tail toCopy
        (out ++ [ring.buf (wrappingAdd tail out.length &&& mask)])))
    else none
  | _ => none

def drainStoreTail (ring : AuditRing count) (context : Fin count) : Option (AuditRing count) :=
  match ring.contexts context with
  | .copying tail toCopy out =>
    if out.length = toCopy then
      some { ring.enter context .idle with
        tail := wrappingAdd tail toCopy
        drained := ring.drained ++ out }
    else none
  | _ => none

end AuditRing

inductive RingStep (count : Nat) where
  | logLoadHead (context : Fin count) (event : AuditEvent) (payload : List Byte)
  | logLoadTail (context : Fin count) (mtime : Nat)
  | logWriteByte (context : Fin count)
  | logPublish (context : Fin count)
  | drainLoadHead (context : Fin count) (room : Nat)
  | drainLoadTail (context : Fin count)
  | drainCopyByte (context : Fin count)
  | drainStoreTail (context : Fin count)
  deriving DecidableEq, Repr

namespace AuditRing

variable {count : Nat}

def step (ring : AuditRing count) : RingStep count → Option (AuditRing count)
  | .logLoadHead context event payload => ring.logLoadHead context event payload
  | .logLoadTail context mtime => ring.logLoadTail context mtime
  | .logWriteByte context => ring.logWriteByte context
  | .logPublish context => ring.logPublish context
  | .drainLoadHead context room => ring.drainLoadHead context room
  | .drainLoadTail context => ring.drainLoadTail context
  | .drainCopyByte context => ring.drainCopyByte context
  | .drainStoreTail context => ring.drainStoreTail context

/-- A call does not start while another context is inside the same function. -/
def Alone (ring : AuditRing count) : RingStep count → Prop
  | .logLoadHead _ _ _ => ∀ context, (ring.contexts context).isLog = false
  | .drainLoadHead _ _ => ∀ context, (ring.contexts context).isDrain = false
  | _ => True

instance (ring : AuditRing count) (event : RingStep count) : Decidable (ring.Alone event) := by
  unfold Alone
  split <;> infer_instance

def stream (ring : AuditRing count) : List Byte := ring.accepted.flatMap Record.bytes

def stored (ring : AuditRing count) : List Byte :=
  window ring.buf bufSize ring.tail (wrappingSub ring.head ring.tail)

end AuditRing

end ViCell.Audit

import ViCell.Api
import ViCell.Lib.Bytes
import ViCell.Lib.ReceiveLoop
import ViCell.Lib.Runs

/-!
# Events of an `AppContext`

The context reads every message into one buffer and decides from the bytes alone
what kind of event it is.  Lifecycle events are meant to come from the kernel, which
builds their envelopes in the hot-swap sequence and sends them in the name of the
task that started it; input events from the input service.
-/

namespace ViCell.Ostd

open Lib List Bytes

def readField (bytes : List Byte) (offset width : Nat) : Nat :=
  decodeLE ((bytes.drop offset).take width)

def readInt32 (bytes : List Byte) (offset : Nat) : Int :=
  (BitVec.ofNat 32 (readField bytes offset 4)).toInt

inductive KeyState where
  | released
  | pressed
  | repeated
  deriving DecidableEq, Repr

inductive KeySym where
  | unknown
  | escape
  | returnKey
  | backspace
  | tab
  | delete
  | insert
  | up
  | down
  | left
  | right
  | home
  | endKey
  | pageUp
  | pageDown
  | function (number : Nat)
  | printable
  deriving DecidableEq, Repr

def keysymFromU32 : Nat → KeySym
  | 0x0001 => .escape
  | 0x0002 => .returnKey
  | 0x0003 => .backspace
  | 0x0004 => .tab
  | 0x0005 => .delete
  | 0x0006 => .insert
  | 0x0010 => .up
  | 0x0011 => .down
  | 0x0012 => .left
  | 0x0013 => .right
  | 0x0020 => .home
  | 0x0021 => .endKey
  | 0x0022 => .pageUp
  | 0x0023 => .pageDown
  | 0x0101 => .function 1
  | 0x0102 => .function 2
  | 0x0103 => .function 3
  | 0x0104 => .function 4
  | 0x0105 => .function 5
  | 0x0106 => .function 6
  | 0x0107 => .function 7
  | 0x0108 => .function 8
  | 0x0109 => .function 9
  | 0x010A => .function 10
  | 0x010B => .function 11
  | 0x010C => .function 12
  | 0x8000 => .printable
  | _ => .unknown

structure KeyEvent where
  timestampTicks : Nat
  scancode : Nat
  keysym : KeySym
  character : Nat
  modifiers : Byte
  state : KeyState
  deriving DecidableEq, Repr

inductive MouseButton where
  | left
  | right
  | middle
  | back
  | forward
  deriving DecidableEq, Repr

inductive InputEvent where
  | key (event : KeyEvent)
  | mouseMove (x y dx dy : Int)
  | mouseButton (button : MouseButton) (state : KeyState)
  | mouseScroll (dx dy : Int)
  deriving DecidableEq, Repr

def inputEventOpcode : Byte := 0x10

def keyState? (byte : Byte) : Option KeyState :=
  match byte.toNat with
  | 0 => some .released
  | 1 => some .pressed
  | 2 => some .repeated
  | _ => none

def mouseButton? (byte : Byte) : Option MouseButton :=
  match byte.toNat with
  | 0 => some .left
  | 1 => some .right
  | 2 => some .middle
  | 3 => some .back
  | 4 => some .forward
  | _ => none

/-- A button has no repeat. -/
def buttonState? (byte : Byte) : Option KeyState :=
  match byte.toNat with
  | 0 => some .released
  | 1 => some .pressed
  | _ => none

def decodeKey (payload : List Byte) : Option InputEvent :=
  if payload.length < 22 then none
  else (keyState? (payload.getD 21 0)).map fun state =>
    .key {
      timestampTicks := readField payload 0 8
      scancode := readField payload 8 4
      keysym := keysymFromU32 (readField payload 12 4)
      character := readField payload 16 4
      modifiers := payload.getD 20 0
      state }

def decodeMouseMove (payload : List Byte) : Option InputEvent :=
  if payload.length < 16 then none
  else some (.mouseMove (readInt32 payload 0) (readInt32 payload 4) (readInt32 payload 8)
    (readInt32 payload 12))

def decodeMouseButton (payload : List Byte) : Option InputEvent :=
  if payload.length < 2 then none
  else (mouseButton? (payload.getD 0 0)).bind fun button =>
    (buttonState? (payload.getD 1 0)).map fun state => .mouseButton button state

def decodeMouseScroll (payload : List Byte) : Option InputEvent :=
  if payload.length < 8 then none
  else some (.mouseScroll (readInt32 payload 0) (readInt32 payload 4))

def decodeEvent : List Byte → Option InputEvent
  | [] => none
  | kind :: payload =>
    match kind.toNat with
    | 0 => decodeKey payload
    | 1 => decodeMouseMove payload
    | 2 => decodeMouseButton payload
    | 3 => decodeMouseScroll payload
    | _ => none

def parseFrame (buf : List Byte) : Option InputEvent :=
  if buf.length < 2 ∨ buf.getD 0 0 ≠ inputEventOpcode then none else decodeEvent (buf.drop 1)

inductive ShutdownReason where
  | requested
  | watchdog
  | parentDied
  deriving DecidableEq, Repr

inductive AppEvent where
  | init
  | message (senderTid : Nat) (data : List Byte)
  | rawMessage (senderTid : Nat) (data : List Byte)
  | input (event : InputEvent)
  | timeout
  | shutdown
  | shutdownWith (reason : ShutdownReason)
  | snapshot (swapId : Nat)
  | restore (key : List Byte)
  deriving DecidableEq, Repr

namespace AppEvent

def isLifecycle : AppEvent → Bool
  | .shutdown | .shutdownWith _ | .snapshot _ | .restore _ => true
  | _ => false

def isInput : AppEvent → Bool
  | .input _ => true
  | _ => false

end AppEvent

def appMsgMagic : Byte := 0xAC

def discShutdown : Byte := 0xFF

def discSnapshot : Byte := 0xF0

def discRestore : Byte := 0xF1

def recvBufSize : Nat := 4096

def parseShutdownReason (buf : List Byte) : ShutdownReason :=
  match (buf.getD 2 0).toNat with
  | 1 => .watchdog
  | 2 => .parentDied
  | _ => .requested

def parseEventOwned (senderTid : Nat) (buf : List Byte) : AppEvent :=
  if buf.length ≥ 2 ∧ buf.getD 0 0 = appMsgMagic then
    if buf.getD 1 0 = discShutdown then
      if buf.length ≥ 3 then .shutdownWith (parseShutdownReason buf) else .shutdown
    else if buf.getD 1 0 = discSnapshot ∧ buf.length ≥ 10 then .snapshot (readField buf 2 8)
    else if buf.getD 1 0 = discRestore ∧ buf.length ≥ 66 then .restore ((buf.drop 2).take 64)
    else .message senderTid (buf.drop 2)
  else if buf.length ≥ 2 ∧ buf.getD 0 0 = inputEventOpcode then
    match parseFrame buf with
    | some event => .input event
    | none => .rawMessage senderTid buf
  else .rawMessage senderTid buf

/-- The digits written from the end of a buffer of `room` bytes. -/
def decimalDigits : Nat → Nat → List Byte → List Byte
  | 0, _, written => written
  | room + 1, val, written =>
    if val > 0 then decimalDigits room (val / 10) (BitVec.ofNat 8 (0x30 + val % 10) :: written)
    else written

def fmtU64Decimal (val : Nat) : List Byte := if val = 0 then [0x30] else decimalDigits 20 val []

def snapshotEnvelope (swapId : Nat) : List Byte :=
  appMsgMagic :: discSnapshot :: encodeLE 8 swapId

def restoreKey (swapId : Nat) : List Byte :=
  let digits := (fmtU64Decimal swapId).take 63
  digits ++ replicate (64 - digits.length) 0

def restoreEnvelope (swapId : Nat) : List Byte :=
  appMsgMagic :: discRestore :: restoreKey swapId

/-- A message with its origin. The kernel's own messages carry the task in whose
system call they were made. -/
inductive Delivery where
  | fromCell (sender : Nat) (bytes : List Byte)
  | snapshotSignal (caller swapId : Nat)
  | restoreSignal (caller swapId : Nat)
  deriving DecidableEq, Repr

namespace Delivery

def sender : Delivery → Nat
  | .fromCell sender _ => sender
  | .snapshotSignal caller _ => caller
  | .restoreSignal caller _ => caller

def bytes : Delivery → List Byte
  | .fromCell _ bytes => bytes
  | .snapshotSignal _ swapId => snapshotEnvelope swapId
  | .restoreSignal _ swapId => restoreEnvelope swapId

def fromKernel : Delivery → Bool
  | .fromCell _ _ => false
  | _ => true

end Delivery

structure AppContext where
  recvBuf : List Byte
  handled : List (Delivery × AppEvent)
  deriving DecidableEq, Repr

namespace AppContext

def new : AppContext := ⟨replicate recvBufSize 0, []⟩

def step (context : AppContext) (delivery : Delivery) : AppContext :=
  let recvBuf := overwrite context.recvBuf delivery.bytes
  ⟨recvBuf, context.handled ++ [(delivery, parseEventOwned delivery.sender recvBuf)]⟩

/-- Lifecycle events came from the kernel and input events from the input service. -/
def entryProper (inputTid : Nat) (entry : Delivery × AppEvent) : Prop :=
  (entry.2.isLifecycle = true → entry.1.fromKernel = true) ∧
    (entry.2.isInput = true → entry.1.fromKernel = false ∧ entry.1.sender = inputTid)

def Proper (inputTid : Nat) (context : AppContext) : Prop :=
  ∀ entry ∈ context.handled, entryProper inputTid entry

/-- The bytes are the start of a lifecycle envelope. -/
def lifecycleStart (received : List Byte) : Prop :=
  received.getD 0 0 = appMsgMagic ∧ (received.getD 1 0 = discShutdown ∨
    received.getD 1 0 = discSnapshot ∨ received.getD 1 0 = discRestore)

/-- What a cell's message leaves in the buffer is no lifecycle envelope, and no input
frame unless the input service sent it. -/
def Unforged (inputTid : Nat) (context : AppContext) : Delivery → Prop
  | .fromCell sender bytes =>
    ¬ lifecycleStart (overwrite context.recvBuf bytes) ∧
      (sender = inputTid ∨ parseFrame (overwrite context.recvBuf bytes) = none)
  | _ => True

end AppContext

section Parse

variable {sender : Nat} {buf : List Byte}

theorem length_restore_key (swapId : Nat) : (restoreKey swapId).length = 64 := by
  have short : ((fmtU64Decimal swapId).take 63).length ≤ 63 := length_take_le _ _
  unfold restoreKey
  rw [length_append, length_replicate]
  omega

theorem parse_shutdown (reason : Byte) (rest : List Byte) :
    parseEventOwned sender (appMsgMagic :: discShutdown :: reason :: rest) =
      .shutdownWith (parseShutdownReason [appMsgMagic, discShutdown, reason]) := by
  unfold parseEventOwned
  rfl

theorem parse_snapshot {rest : List Byte} (long : 8 ≤ rest.length) :
    parseEventOwned sender (appMsgMagic :: discSnapshot :: rest) =
      .snapshot (decodeLE (rest.take 8)) := by
  have second : (appMsgMagic :: discSnapshot :: rest).getD 1 0 = discSnapshot := rfl
  unfold parseEventOwned
  rw [if_pos ⟨Nat.le_add_left 2 _, rfl⟩, second, if_neg (by decide),
    if_pos ⟨rfl, Nat.add_le_add_right long 2⟩]
  rfl

theorem parse_restore {rest : List Byte} (long : 64 ≤ rest.length) :
    parseEventOwned sender (appMsgMagic :: discRestore :: rest) = .restore (rest.take 64) := by
  have other : ¬ discRestore = discSnapshot := by decide
  have second : (appMsgMagic :: discRestore :: rest).getD 1 0 = discRestore := rfl
  unfold parseEventOwned
  rw [if_pos ⟨Nat.le_add_left 2 _, rfl⟩, second, if_neg (by decide),
    if_neg (fun both => other both.1), if_pos ⟨rfl, Nat.add_le_add_right long 2⟩]
  rfl

section

variable (size : buf.length = recvBufSize)
include size

theorem lifecycle_iff :
    (parseEventOwned sender buf).isLifecycle = true ↔ AppContext.lifecycleStart buf := by
  have two : buf.length ≥ 2 := by rw [size]; decide
  have three : buf.length ≥ 3 := by rw [size]; decide
  have ten : buf.length ≥ 10 := by rw [size]; decide
  have sixtySix : buf.length ≥ 66 := by rw [size]; decide
  unfold parseEventOwned
  by_cases magic : buf.getD 0 0 = appMsgMagic
  · rw [if_pos ⟨two, magic⟩]
    by_cases shutdown : buf.getD 1 0 = discShutdown
    · rw [if_pos shutdown, if_pos three]
      exact ⟨fun _ => ⟨magic, .inl shutdown⟩, fun _ => rfl⟩
    · rw [if_neg shutdown]
      by_cases snapshot : buf.getD 1 0 = discSnapshot
      · rw [if_pos ⟨snapshot, ten⟩]
        exact ⟨fun _ => ⟨magic, .inr (.inl snapshot)⟩, fun _ => rfl⟩
      · rw [if_neg (fun both => snapshot both.1)]
        by_cases restore : buf.getD 1 0 = discRestore
        · rw [if_pos ⟨restore, sixtySix⟩]
          exact ⟨fun _ => ⟨magic, .inr (.inr restore)⟩, fun _ => rfl⟩
        · rw [if_neg (fun both => restore both.1)]
          constructor
          · intro wrong
            cases wrong
          · rintro ⟨_, one | two | three⟩
            · exact absurd one shutdown
            · exact absurd two snapshot
            · exact absurd three restore
  · rw [if_neg (fun both => magic both.2)]
    constructor
    · intro lifecycle
      split at lifecycle
      · split at lifecycle <;> cases lifecycle
      · cases lifecycle
    · exact fun start => absurd start.1 magic

theorem input_iff :
    (parseEventOwned sender buf).isInput = true ↔ (parseFrame buf).isSome = true := by
  have two : buf.length ≥ 2 := by rw [size]; decide
  unfold parseEventOwned
  by_cases magic : buf.getD 0 0 = appMsgMagic
  · have other : buf.getD 0 0 ≠ inputEventOpcode := by rw [magic]; decide
    have noFrame : parseFrame buf = none := if_pos (.inr other)
    rw [if_pos ⟨two, magic⟩, noFrame]
    constructor
    · intro input
      split at input
      · split at input <;> cases input
      · split at input
        · cases input
        · split at input <;> cases input
    · intro wrong
      cases wrong
  · rw [if_neg (fun both => magic both.2)]
    by_cases opcode : buf.getD 0 0 = inputEventOpcode
    · rw [if_pos ⟨two, opcode⟩]
      cases parseFrame buf with
      | none => exact Iff.rfl
      | some => exact Iff.rfl
    · have noFrame : parseFrame buf = none := if_pos (.inr opcode)
      rw [if_neg (fun both => opcode both.2), noFrame]
      exact Iff.rfl

theorem snapshot_parsed (swapId : Nat) :
    parseEventOwned sender (overwrite buf (snapshotEnvelope swapId)) =
      .snapshot (swapId % 256 ^ 8) := by
  have length : (snapshotEnvelope swapId).length = 10 := by
    rw [snapshotEnvelope, length_cons, length_cons, length_encode]
  have fits : (snapshotEnvelope swapId).length ≤ buf.length := by rw [length, size]; decide
  have long : 8 ≤ (encodeLE 8 swapId ++ buf.drop 10).length := by
    rw [length_append]
    exact Nat.le_add_right 8 _
  rw [overwrite_short fits, length, snapshotEnvelope, cons_append, cons_append,
    parse_snapshot long, take_left' (length_encode 8 swapId), decode_encode]

theorem restore_parsed (swapId : Nat) :
    parseEventOwned sender (overwrite buf (restoreEnvelope swapId)) =
      .restore (restoreKey swapId) := by
  have length : (restoreEnvelope swapId).length = 66 := by
    rw [restoreEnvelope, length_cons, length_cons, length_restore_key]
  have fits : (restoreEnvelope swapId).length ≤ buf.length := by rw [length, size]; decide
  have long : 64 ≤ (restoreKey swapId ++ buf.drop 66).length := by
    rw [length_append, length_restore_key]
    exact Nat.le_add_right 64 _
  rw [overwrite_short fits, length, restoreEnvelope, cons_append, cons_append,
    parse_restore long, take_left' (length_restore_key swapId)]

end

end Parse

namespace AppContext

variable {context : AppContext} {inputTid : Nat}

theorem entry_proper_iff (size : context.recvBuf.length = recvBufSize) (delivery : Delivery) :
    entryProper inputTid (delivery,
        parseEventOwned delivery.sender (overwrite context.recvBuf delivery.bytes)) ↔
      Unforged inputTid context delivery := by
  have whole : (overwrite context.recvBuf delivery.bytes).length = recvBufSize := by
    rw [length_overwrite, size]
  cases delivery with
  | fromCell sender bytes =>
    unfold entryProper
    dsimp only [Delivery.bytes] at whole ⊢
    rw [lifecycle_iff whole, input_iff whole]
    constructor
    · rintro ⟨noLifecycle, input⟩
      refine ⟨fun start => absurd (noLifecycle start) Bool.false_ne_true, ?_⟩
      cases frame : parseFrame (overwrite context.recvBuf bytes) with
      | none => exact .inr rfl
      | some =>
        rw [frame] at input
        exact .inl (input rfl).2
    · rintro ⟨noLifecycle, source⟩
      refine ⟨fun start => absurd start noLifecycle, fun isFrame => ⟨rfl, ?_⟩⟩
      rcases source with isInput | noFrame
      · exact isInput
      · rw [noFrame] at isFrame
        cases isFrame
  | snapshotSignal =>
    dsimp only [Delivery.bytes]
    rw [snapshot_parsed size]
    exact ⟨fun _ => trivial, fun _ => ⟨fun _ => rfl, fun wrong => by cases wrong⟩⟩
  | restoreSignal =>
    dsimp only [Delivery.bytes]
    rw [restore_parsed size]
    exact ⟨fun _ => trivial, fun _ => ⟨fun _ => rfl, fun wrong => by cases wrong⟩⟩

/-- At every point of a run lifecycle events have come from the kernel and input events
from the input service, exactly if no cell's message was forged. -/
theorem events_proper_iff_unforged (inputTid : Nat) (deliveries : List Delivery) :
    (∀ executed, executed <+: deliveries → Proper inputTid (executed.foldl step new)) ↔
      ∀ executed delivery, executed ++ [delivery] <+: deliveries →
        Unforged inputTid (executed.foldl step new) delivery := by
  refine prefix_invariant_iff step new (Proper inputTid)
    (fun context => context.recvBuf.length = recvBufSize) (Unforged inputTid) ?_ ?_ ?_ ?_ deliveries
  · intro entry isHandled
    cases isHandled
  · exact length_replicate
  · intro context delivery _ size
    exact (length_overwrite _ _).trans size
  · intro context delivery proper size
    rw [← entry_proper_iff size]
    constructor
    · intro later
      exact later _ (mem_append_right _ (mem_singleton.mpr rfl))
    · intro last entry isHandled
      rcases mem_append.mp isHandled with earlier | isLast
      · exact proper entry earlier
      · rw [mem_singleton.mp isLast]
        exact last

/-- Cell 7 ends another cell, asks it for a snapshot, and types into it; the input
service is task 3. In the last message the forged byte is one left by the first. -/
theorem lifecycle_and_input_forged :
    ([.fromCell 7 [0xAC, 0xFF, 1], .fromCell 7 [0xAC, 0xF0, 9, 0, 0, 0, 0, 0, 0, 0],
        .fromCell 7 [0x10, 2, 0, 1], .fromCell 7 [0xAC, 0xFF], .fromCell 8 [0xAC]].foldl step
      new).handled.map (fun entry => entry.2) =
      [.shutdownWith .watchdog, .snapshot 9, .input (.mouseButton .left .pressed),
        .shutdownWith .requested, .shutdownWith .requested] := by
  decide +kernel

end AppContext

end ViCell.Ostd

import Mathlib

/-!
# The NVMe block driver and its controller

The driver holds a lock over a whole call: it puts one command into the submission
queue, rings the doorbell and polls one entry of the completion queue for its phase
bit.  The controller fetches commands in order, executes them at any later time and
posts their completions in any order, as far as the completion queue has room.
Commands carry their number beside the 16-bit identifier, for the statements only.
-/

namespace ViCell.Nvme

open Function

def ioQueueDepth : Nat := 64

def pollWarnIters : Nat := 1000000

inductive Opcode where
  | read
  | write
  | flush
  deriving DecidableEq, Repr

structure SqEntry where
  opcode : Opcode
  cid : Nat
  lba : Nat
  prp1 : Nat
  command : Nat
  deriving DecidableEq, Repr

structure CqEntry where
  cid : Nat
  status : Nat
  phase : Bool
  command : Nat
  deriving DecidableEq, Repr

structure Queue where
  sqTail : Nat
  cqHead : Nat
  cqPhase : Bool
  cid : Nat
  deriving DecidableEq, Repr

def Queue.new : Queue := ⟨0, 0, true, 0⟩

/-- `inFlight` holds the fetched commands, with their status once they are executed. -/
structure Controller (Data : Type) where
  sqHead : Nat
  sqDoorbell : Nat
  cqTail : Nat
  cqDoorbell : Nat
  phase : Bool
  inFlight : List (SqEntry × Option Nat)
  disk : Nat → Data

inductive Operation (Data : Type) where
  | read (sector : Nat)
  | write (sector : Nat) (data : Data)
  | flush
  deriving DecidableEq, Repr

inductive DriverPhase (Data : Type) where
  | idle
  | polling (operation : Operation Data) (page command iters : Nat)
  deriving DecidableEq, Repr

/-- A finished call: its command, the command whose completion it took (none after a
timeout), what it returned, and the content of the sector on the device at that time. -/
structure Outcome (Data : Type) where
  operation : Operation Data
  command : Nat
  decidedBy : Option Nat
  ok : Bool
  returned : Option Data
  current : Option Data
  deriving DecidableEq, Repr

structure NvmeBlk (Data : Type) where
  vwc : Bool
  queue : Queue
  sq : Nat → SqEntry
  cq : Nat → CqEntry
  pages : Nat → Data
  allocated : Nat → Bool
  controller : Controller Data
  driver : DriverPhase Data
  commands : Nat
  outcomes : List (Outcome Data)

inductive Event (Data : Type) where
  /-- A call with the length of its buffer and the page the allocator gives it. -/
  | call (operation : Operation Data) (bufLen page : Nat)
  | poll
  | fetch
  /-- A command that fails leaves anything in its page or its sector. -/
  | execute (index status : Nat) (garbage : Data)
  | complete (index : Nat)

namespace Operation

variable {Data : Type}

def opcode : Operation Data → Opcode
  | .read _ => .read
  | .write _ _ => .write
  | .flush => .flush

def lba : Operation Data → Nat
  | .read sector => sector
  | .write sector _ => sector
  | .flush => 0

/-- The address given to the command; a flush has no buffer. -/
def prp1 (operation : Operation Data) (page : Nat) : Nat :=
  match operation with
  | .flush => 0
  | _ => page

def hasBuffer : Operation Data → Bool
  | .flush => false
  | _ => true

end Operation

namespace NvmeBlk

variable {Data : Type}

def start [Zero Data] (vwc : Bool) (disk : Nat → Data) : NvmeBlk Data where
  vwc
  queue := .new
  sq _ := ⟨.read, 0, 0, 0, 0⟩
  cq _ := ⟨0, 0, false, 0⟩
  pages _ := 0
  allocated _ := false
  controller := ⟨0, 0, 0, 0, true, [], disk⟩
  driver := .idle
  commands := 0
  outcomes := []

def allocate [Zero Data] (nvme : NvmeBlk Data) (operation : Operation Data) (page : Nat) :
    NvmeBlk Data :=
  match operation with
  | .flush => nvme
  | .read _ =>
    { nvme with
      allocated := update nvme.allocated page true
      pages := update nvme.pages page 0 }
  | .write _ data =>
    { nvme with
      allocated := update nvme.allocated page true
      pages := update nvme.pages page data }

def free (nvme : NvmeBlk Data) (operation : Operation Data) (page : Nat) : NvmeBlk Data :=
  if operation.hasBuffer then
    { nvme with allocated := update nvme.allocated page false }
  else nvme

def submit (nvme : NvmeBlk Data) (operation : Operation Data) (page : Nat) : NvmeBlk Data :=
  let cid := (nvme.queue.cid + 1) % 2 ^ 16
  let tail := (nvme.queue.sqTail + 1) % ioQueueDepth
  { nvme with
    queue := { nvme.queue with cid, sqTail := tail }
    sq := update nvme.sq nvme.queue.sqTail
      ⟨operation.opcode, cid, operation.lba, operation.prp1 page, nvme.commands + 1⟩
    controller := { nvme.controller with sqDoorbell := tail }
    driver := .polling operation page (nvme.commands + 1) 0
    commands := nvme.commands + 1 }

def finish (nvme : NvmeBlk Data) (operation : Operation Data) (page command : Nat)
    (decidedBy : Option Nat) (ok : Bool) : NvmeBlk Data :=
  let sector : Option Data :=
    match operation with
    | .read sector => some (nvme.controller.disk sector)
    | _ => none
  let returned : Option Data :=
    match operation with
    | .read _ => if ok then some (nvme.pages page) else none
    | _ => none
  let freed := nvme.free operation page
  { freed with
    driver := .idle
    outcomes := nvme.outcomes ++ [⟨operation, command, decidedBy, ok, returned, sector⟩] }

/-- The entry at the head is taken, whatever command it belongs to. -/
def consume (nvme : NvmeBlk Data) : NvmeBlk Data :=
  let head := (nvme.queue.cqHead + 1) % ioQueueDepth
  { nvme with
    queue := { nvme.queue with
      cqHead := head
      cqPhase := if head = 0 then !nvme.queue.cqPhase else nvme.queue.cqPhase }
    controller := { nvme.controller with cqDoorbell := head } }

def polled (nvme : NvmeBlk Data) : CqEntry := nvme.cq nvme.queue.cqHead

def poll (nvme : NvmeBlk Data) : Option (NvmeBlk Data) :=
  match nvme.driver with
  | .idle => none
  | .polling operation page command iters =>
    if nvme.polled.phase = nvme.queue.cqPhase then
      some (nvme.consume.finish operation page command (some nvme.polled.command)
        (decide (nvme.polled.status = 0)))
    else if iters + 1 = pollWarnIters then
      some (nvme.finish operation page command none false)
    else some { nvme with driver := .polling operation page command (iters + 1) }

def fetch (nvme : NvmeBlk Data) : Option (NvmeBlk Data) :=
  if nvme.controller.sqHead = nvme.controller.sqDoorbell then none
  else
    some { nvme with controller := { nvme.controller with
      sqHead := (nvme.controller.sqHead + 1) % ioQueueDepth
      inFlight := nvme.controller.inFlight ++ [(nvme.sq nvme.controller.sqHead, none)] } }

def perform (nvme : NvmeBlk Data) (entry : SqEntry) (status : Nat) (garbage : Data) :
    NvmeBlk Data :=
  match entry.opcode with
  | .read =>
    { nvme with
      pages := update nvme.pages entry.prp1
        (if status = 0 then nvme.controller.disk entry.lba else garbage) }
  | .write =>
    { nvme with controller := { nvme.controller with
        disk := update nvme.controller.disk entry.lba
          (if status = 0 then nvme.pages entry.prp1 else garbage) } }
  | .flush => nvme

def setInFlight (nvme : NvmeBlk Data) (inFlight : List (SqEntry × Option Nat)) : NvmeBlk Data :=
  { nvme with controller := { nvme.controller with inFlight } }

def execute (nvme : NvmeBlk Data) (index status : Nat) (garbage : Data) :
    Option (NvmeBlk Data) :=
  match nvme.controller.inFlight[index]? with
  | some (entry, none) =>
    some ((nvme.perform entry status garbage).setInFlight
      (nvme.controller.inFlight.set index (entry, some status)))
  | _ => none

def complete (nvme : NvmeBlk Data) (index : Nat) : Option (NvmeBlk Data) :=
  let tail := (nvme.controller.cqTail + 1) % ioQueueDepth
  match nvme.controller.inFlight[index]? with
  | some (entry, some status) =>
    if tail = nvme.controller.cqDoorbell then none
    else
      some { nvme with
        cq := update nvme.cq nvme.controller.cqTail
          ⟨entry.cid, status, nvme.controller.phase, entry.command⟩
        controller := { nvme.controller with
          cqTail := tail
          phase := if tail = 0 then !nvme.controller.phase else nvme.controller.phase
          inFlight := nvme.controller.inFlight.eraseIdx index } }
  | _ => none

def step [Zero Data] (nvme : NvmeBlk Data) : Event Data → Option (NvmeBlk Data)
  | .call operation bufLen page =>
    match nvme.driver with
    | .polling .. => none
    | .idle =>
      if operation.hasBuffer = true ∧ bufLen < 512 then some nvme
      else if operation.hasBuffer = false ∧ nvme.vwc = false then some nvme
      else if operation.hasBuffer = true ∧ nvme.allocated page = true then none
      else some ((nvme.allocate operation page).submit operation page)
  | .poll => nvme.poll
  | .fetch => nvme.fetch
  | .execute index status garbage => nvme.execute index status garbage
  | .complete index => nvme.complete index

def outstanding (nvme : NvmeBlk Data) : List SqEntry :=
  (List.range ((nvme.controller.sqDoorbell + ioQueueDepth - nvme.controller.sqHead) %
      ioQueueDepth)).map
    (fun offset => nvme.sq ((nvme.controller.sqHead + offset) % ioQueueDepth)) ++
  nvme.controller.inFlight.map (fun held => held.1)

end NvmeBlk

end ViCell.Nvme

import ViCell.Core.Transitions

/-!
# Calls to a service

`ServiceRef::call` sends a request to the service's task and takes the next message
that the kernel hands to `sys_recv(0, ..)`, from whichever task it comes.  The client's
own steps are the send and the lock sections of the receive; everything else is any
action of the kernel.  A message's ticket says what it means: a request of the client
and an answer to it carry the request's number, every other message carries 0.
-/

namespace ViCell.Ostd.ServiceRef

open Lib Core.Tcb Core.Ready Core.State Core.Scheduler Core.Ipc Core.HotSwap Core.Effects Function

structure Letter where
  sender : TaskId
  message : Message
  deriving DecidableEq, Repr

/-- The lock sections of the client's `Recv`; `parked` is the time until it resumes. -/
inductive RecvSection
  | deaths
  | messages
  | block
  | parked
  deriving DecidableEq, Repr

/-- A blocked send returns when the client runs again. -/
inductive Phase
  | idle
  | sent (serviceId : Nat) (service : TaskId) (request : Nat) (blocked : Bool)
  | receiving (service : TaskId) (request : Nat) (part : RecvSection)
  deriving DecidableEq, Repr

/-- What a call decodes its response from: the sender that `Recv` reported and the
message in the buffer, nothing if no message was copied there. -/
structure Response where
  service : TaskId
  request : Nat
  reported : TaskId
  letter : Option Letter
  deriving DecidableEq, Repr

structure Calls where
  kernel : Kernel
  cachedTid : Nat → Option TaskId
  phase : Phase
  requests : Nat
  /-- The requests of the client that a task has received and not answered. -/
  owes : TaskId → List Nat
  /-- The message last copied into the client's buffer. -/
  arrived : Option Letter
  responses : List Response

inductive Event
  | call (hart : HartId) (serviceId : Nat) (bytes : List Byte)
  | recv (hart : HartId)
  | other (hart : HartId) (action : Action)

/-- The receiver and the message of an action that copies one. -/
def delivery (kernel : Kernel) : Action → Option (TaskId × Letter)
  | .send caller target message =>
    if (kernel.tasks.get target).any (fun task => task.state.isRecv) then
      some (target, ⟨caller, message⟩)
    else none
  | .recv caller _ _ =>
    (findSender kernel.tasks caller).map (fun found => (caller, ⟨found.1, found.2⟩))
  | .tryRecv caller _ =>
    (findSender kernel.tasks caller).map (fun found => (caller, ⟨found.1, found.2⟩))
  | .acceptPending caller _ =>
    ((kernel.tasks.get caller).bind (fun task => task.pendingMsgs.head?)).map
      (fun pending => (caller, ⟨pending.senderTid, pending.message⟩))
  | _ => none

namespace Calls

def start : Calls where
  kernel := Core.Machine.initial.kernel
  cachedTid _ := none
  phase := .idle
  requests := 0
  owes _ := []
  arrived := none
  responses := []

def release (client : TaskId) (owes : TaskId → List Nat) : Action → TaskId → List Nat
  | .send caller target message =>
    if target = client then update owes caller ((owes caller).erase message.ticket)
    else owes
  | .exit tid _ _ _ => update owes tid []
  | _ => owes

def charge (owes : TaskId → List Nat) (receiver : TaskId) (message : Message) :
    TaskId → List Nat :=
  if message.ticket = 0 then owes
  else update owes receiver (owes receiver ++ [message.ticket])

def perform (client : TaskId) (calls : Calls) (hart : HartId) (action : Action) : Calls :=
  let released := release client calls.owes action
  match delivery calls.kernel action with
  | none => { calls with kernel := act calls.kernel hart action, owes := released }
  | some (receiver, letter) =>
    if receiver = client then
      { calls with
        kernel := act calls.kernel hart action, owes := released, arrived := some letter }
    else
      { calls with
        kernel := act calls.kernel hart action
        owes := charge released receiver letter.message }

/-- The end of a call: sender 0 is an error. -/
def respond (calls : Calls) (service : TaskId) (request : Nat) (reported : TaskId)
    (letter : Option Letter) : Calls :=
  { calls with
    phase := .idle
    responses :=
      if 0 < reported then calls.responses ++ [⟨service, request, reported, letter⟩]
      else calls.responses }

def isRunning (calls : Calls) (client : TaskId) : Bool :=
  (calls.kernel.tasks.get client).any (fun task => task.state = .running)

def resolve (calls : Calls) (serviceId : Nat) : Option TaskId :=
  (calls.cachedTid serviceId).or (lookup calls.kernel.registry serviceId)

/-- `ServiceRef::call` up to the end of `ipc_send`. -/
def call (client : TaskId) (calls : Calls) (hart : HartId) (serviceId : Nat)
    (bytes : List Byte) : Calls :=
  match calls.resolve serviceId with
  | none => calls
  | some service =>
    let request := calls.requests + 1
    let message : Message := ⟨request, .user, bytes⟩
    match (ipcSend calls.kernel hart client service message).2 with
    | none => { calls with cachedTid := update calls.cachedTid serviceId none }
    | some outcome =>
      { calls.perform client hart (.send client service message) with
        cachedTid := update calls.cachedTid serviceId (some service)
        phase := .sent serviceId service request (outcome = 1)
        requests := request }

def clientTask (calls : Calls) (client : TaskId) : Option Task :=
  calls.kernel.tasks.get client

/-- A send that blocked returns the `reply_value` of the task, whoever set it last: one
that is negative as a signed word is an error to `sys_send`. -/
def sendFails (client : TaskId) (calls : Calls) : Bool :=
  match calls.phase with
  | .sent _ _ _ blocked =>
    blocked && (calls.clientTask client).any (fun task => 2 ^ 63 ≤ task.replyValue.getD 0)
  | _ => false

def respBuf : Buffer := ⟨.user, ipcBufSize⟩

/-- One lock section of `sys_recv(0, resp_buf)` and what follows it. -/
def recv (client : TaskId) (calls : Calls) (hart : HartId) (service : TaskId) (request : Nat) :
    RecvSection → Calls
  | .deaths =>
    match (calls.clientTask client).bind (fun task => task.pendingDeaths.head?) with
    | some notice =>
      (calls.perform client hart (.edit client .popDeath)).respond service request notice.1
        none
    | none => { calls with phase := .receiving service request .messages }
  | .messages =>
    match (calls.clientTask client).bind (fun task => task.pendingMsgs.head?) with
    | some pending =>
      let accepted := calls.perform client hart (.acceptPending client pending.senderTid)
      accepted.respond service request pending.senderTid accepted.arrived
    | none => { calls with phase := .receiving service request .block }
  | .block =>
    let entered := calls.perform client hart (.recv client 0 respBuf)
    match findSender calls.kernel.tasks client with
    | some (sender, _) => entered.respond service request sender entered.arrived
    | none =>
      { entered with phase := .receiving service request .parked, arrived := none }
  | .parked =>
    let reported := ((calls.clientTask client).bind Task.currentCaller).getD 0
    match (calls.clientTask client).bind Task.pendingExitReason with
    | some _ =>
      (calls.perform client hart (.edit client .takeExitReason)).respond service request
        reported none
    | none => calls.respond service request reported calls.arrived

/-- The number on a message is what it means: an answer is sent to the client by a task
that owes it.  Messages in the client's own name are its requests, or what a hot-swap
hands on.  A task that receives exists. -/
def admits (client : TaskId) (calls : Calls) : Action → Bool
  | .send caller target message =>
    message.ticket = 0 || caller = client ||
      (target = client && (calls.owes caller).contains message.ticket)
  | .recv caller _ _ => (calls.kernel.tasks.get caller).isSome
  | .tryRecv caller _ => (calls.kernel.tasks.get caller).isSome
  | _ => true

def step (client : TaskId) (calls : Calls) : Event → Option Calls
  | .call hart serviceId bytes =>
    if calls.phase = .idle ∧ calls.isRunning client then
      some (calls.call client hart serviceId bytes)
    else none
  | .recv hart =>
    if calls.isRunning client then
      match calls.phase with
      | .idle => none
      | .sent serviceId service request _ =>
        if calls.sendFails client then
          some { calls with phase := .idle, cachedTid := update calls.cachedTid serviceId none }
        else some { calls with phase := .receiving service request .deaths }
      | .receiving service request part => some (calls.recv client hart service request part)
    else none
  | .other hart action =>
    if calls.admits client action then some (calls.perform client hart action) else none

end Calls

end ViCell.Ostd.ServiceRef

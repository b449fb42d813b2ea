import ViCell.Core.Scheduler

/-!
# Rendezvous IPC and futexes

The kernel halves of the IPC syscalls in `task.rs`.  `none` is the source's
`Err(())`.  A receiver's buffer is its entry of `receiveMemory`; copying a
message replaces the head of that entry.
-/

namespace ViCell.Core.Ipc

open Lib Core.Tcb Core.Ready Core.State Core.Scheduler

/-- Write a message into the receiver's buffer, of length `bufferLen`. -/
def copyMessage (kernel : Kernel) (sender receiver : TaskId) (message : Message)
    (bufferLen : Nat) : Kernel :=
  { kernel with
    receiveMemory := Function.update kernel.receiveMemory receiver
      (copyInto (message.bytes.take bufferLen) (kernel.receiveMemory receiver))
    log := .copied message.ticket sender receiver (message.bytes.take bufferLen) bufferLen ::
      kernel.log }

/-- Hot-swap interception: an owned copy waits in the frozen target's queue. -/
def queueMessage (kernel : Kernel) (caller target : TaskId) (message : Message) : Kernel :=
  observe
    (modifyTask kernel target (fun task =>
      { task with pendingMsgs := task.pendingMsgs ++ [⟨caller, message, kernel.ticks⟩] }))
    (.queued message.ticket caller target message.bytes)

def deliverMessage (kernel : Kernel) (hart : HartId) (caller target : TaskId)
    (message : Message) (bufferLen : Nat) : Kernel :=
  pushReady
    (modifyTask (copyMessage kernel caller target message bufferLen) target
      (fun task => { task with state := .ready, currentCaller := some caller }))
    hart target

def ipcSend (kernel : Kernel) (hart : HartId) (caller target : TaskId)
    (message : Message) : Kernel × Option Nat :=
  match kernel.tasks.get target with
  | none => (kernel, none)
  | some receiver =>
    match receiver.state with
    | .frozen _ =>
      if hotswapMsgQueueDepth ≤ receiver.pendingMsgs.length then (kernel, none)
      else (queueMessage kernel caller target message, some 0)
    | .recv _ buffer _ =>
      (deliverMessage kernel hart caller target message buffer.len, some 0)
    | _ => (setState kernel caller (.sending target message), some 1)

/-- A send to this target would leave its caller in state `Sending`. -/
def SendBlocks (kernel : Kernel) (target : TaskId) : Prop :=
  ∃ receiver, kernel.tasks.get target = some receiver ∧
    receiver.state.isRecv = false ∧ receiver.state.isFrozen = false

instance (kernel : Kernel) (target : TaskId) : Decidable (SendBlocks kernel target) :=
  decidable_of_iff
    ((kernel.tasks.get target).any (fun receiver =>
      !receiver.state.isRecv && !receiver.state.isFrozen) = true)
    (by simp [SendBlocks, Option.any_eq_true])

theorem ipc_send_cases (kernel : Kernel) (hart : HartId) (caller target : TaskId) (msg : Message) :
    (ipcSend kernel hart caller target msg = (kernel, none)) ∨
    (∃ receiver swapId, kernel.tasks.get target = some receiver ∧
      receiver.state = .frozen swapId ∧ receiver.pendingMsgs.length < hotswapMsgQueueDepth ∧
      ipcSend kernel hart caller target msg = (queueMessage kernel caller target msg, some 0)) ∨
    (∃ receiver mask buf deadline, kernel.tasks.get target = some receiver ∧
      receiver.state = .recv mask buf deadline ∧
      ipcSend kernel hart caller target msg =
        (deliverMessage kernel hart caller target msg buf.len, some 0)) ∨
    (SendBlocks kernel target ∧
      ipcSend kernel hart caller target msg =
        (setState kernel caller (.sending target msg), some 1)) := by
  unfold ipcSend
  cases found : kernel.tasks.get target with
  | none => exact Or.inl rfl
  | some receiver =>
    cases state : receiver.state with
    | frozen swapId =>
      by_cases full : hotswapMsgQueueDepth ≤ receiver.pendingMsgs.length
      · exact Or.inl (by simp [state, full])
      · exact Or.inr (Or.inl ⟨receiver, swapId, rfl, state, by omega, by simp [state, full]⟩)
    | recv mask buf deadline =>
      exact Or.inr (Or.inr (Or.inl ⟨receiver, mask, buf, deadline, rfl, state,
        by simp [state]⟩))
    | _ =>
      exact Or.inr (Or.inr (Or.inr ⟨⟨receiver, found, by simp [state, TaskState.isRecv],
        by simp [state, TaskState.isFrozen]⟩, by simp [state]⟩))

/-- A blocking send does block: the last case of `ipc_send_cases` is decided by
`SendBlocks` alone. -/
theorem ipc_send_of_blocks {kernel : Kernel} {target : TaskId}
    (blocks : SendBlocks kernel target) (hart : HartId) (caller : TaskId)
    (msg : Message) :
    ipcSend kernel hart caller target msg =
      (setState kernel caller (.sending target msg), some 1) := by
  obtain ⟨receiver, _, _, _⟩ := blocks
  unfold ipcSend
  cases state : receiver.state <;>
    simp_all [TaskState.isRecv, TaskState.isFrozen]

def findSender (tasks : IdTable Task) (receiver : TaskId) : Option (TaskId × Message) :=
  tasks.ids.findSome? (fun id =>
    (tasks.get id).bind (fun task =>
      match task.state with
      | .sending target message => if target = receiver then some (id, message) else none
      | _ => none))

theorem find_sender_some {tasks : IdTable Task} {receiver sender : TaskId}
    {message : Message} (found : findSender tasks receiver = some (sender, message)) :
    ∃ task, tasks.get sender = some task ∧ task.state = .sending receiver message := by
  obtain ⟨_, -, here⟩ := List.exists_of_findSome?_eq_some found
  obtain ⟨task, has, matched⟩ := Option.bind_eq_some_iff.mp here
  split at matched
  · rename_i target sent state
    split at matched
    · rename_i same
      cases matched
      subst same
      exact ⟨task, has, state⟩
    · cases matched
  · cases matched

/-- The half of `ipc_recv` and `ipc_try_recv` that runs when a sender waits. -/
def acceptSender (kernel : Kernel) (hart : HartId) (caller sender : TaskId)
    (message : Message) (bufferLen : Nat) : Kernel :=
  modifyTask
    (pushReady (setState (copyMessage kernel sender caller message bufferLen) sender .ready)
      hart sender)
    caller (fun task => { task with currentCaller := some sender })

def ipcRecv (kernel : Kernel) (hart : HartId) (caller : TaskId) (mask : Nat)
    (buffer : Buffer) : Kernel × Nat :=
  match findSender kernel.tasks caller with
  | some (sender, message) =>
    (acceptSender kernel hart caller sender message buffer.len, sender)
  | none => (setState kernel caller (.recv mask buffer none), 0)

def ipcTryRecv (kernel : Kernel) (hart : HartId) (caller : TaskId) (buffer : Buffer) :
    Kernel × Nat :=
  match findSender kernel.tasks caller with
  | some (sender, message) =>
    (acceptSender kernel hart caller sender message buffer.len, sender)
  | none => (kernel, 0)

/-- The reply goes to whoever `current_caller` names: neither that task's
existence nor its state is looked at before it is queued. -/
def ipcReply (kernel : Kernel) (hart : HartId) (caller : TaskId) (result : Nat) :
    Kernel × Option Nat :=
  match (kernel.tasks.get caller).bind Task.currentCaller with
  | none => (kernel, none)
  | some target =>
    (modifyTask
      (pushReady
        (modifyTask kernel target
          (fun task => { task with state := .ready, replyValue := some result }))
        hart target)
      caller (fun task => { task with currentCaller := none }), some 0)

/-- `observed` is the word read from the futex address before the lock is taken. -/
def futexWait (kernel : Kernel) (caller : TaskId) (addr value observed : Nat) :
    Kernel × Option Nat :=
  if observed ≠ value then (kernel, none)
  else if (kernel.tasks.get caller).isSome then
    (setState kernel caller (.futexWait addr), some 0)
  else (kernel, none)

/-- Waiters on `addr` in id order.  The scan stops after the push that reaches
`count`, so a count of zero still takes one waiter. -/
def futexWaiters (tasks : IdTable Task) (addr count : Nat) : List TaskId :=
  (tasks.ids.filter (fun id =>
    (tasks.get id).any (fun task => task.state = .futexWait addr))).take (max count 1)

def futexWake (kernel : Kernel) (hart : HartId) (addr count : Nat) : Kernel × Nat :=
  let woken := futexWaiters kernel.tasks addr count
  (pushAllReady
    { kernel with
      tasks := kernel.tasks.mapEach (fun id task =>
        if id ∈ woken then { task with state := .ready } else task) }
    hart woken, woken.length)

end ViCell.Core.Ipc

import ViCell.Core.FieldChanges
import ViCell.Ostd.ServiceCalls

/-!
# Whose message a call returns

A request is one token: it is in the client's `Sending` state, in a queue, owed by the
service, or on its way back as the answer.  As long as tasks send to the client only
what they owe it, the token is never copied, so the message that ends a call is the
answer of the called service.
-/

namespace ViCell.Ostd.ServiceRef

open Lib Core.Tcb Core.Ready Core.State Core.Scheduler Core.Ipc Core.HotSwap Core.Effects
open Function List Option IdTable
open Core.Transitions Core.FieldChanges

/-- The response is decoded from a message of the called task in answer to the request. -/
def Response.Proper (response : Response) : Prop :=
  ∃ message : Message, response.letter = some ⟨response.service, message⟩ ∧
    message.ticket = response.request

def actor : Action → Option TaskId
  | .send caller _ _ => some caller
  | .recv caller _ _ => some caller
  | .tryRecv caller _ => some caller
  | .acceptPending caller _ => some caller
  | .arm caller _ => some caller
  | .reply caller _ => some caller
  | .futexWait caller _ _ _ => some caller
  | .wait caller _ => some caller
  | .sleep caller _ => some caller
  | .awaitEvent caller _ _ => some caller
  | _ => none

theorem parks_own {kernel : Kernel} {id : TaskId} {task : Task} {state : TaskState}
    {action : Action} (parks : Parks kernel id task state action) :
    actor action = some id ∧ state.isFrozen = false ∧
      ∀ target message, state = .sending target message → action = .send id target message := by
  cases action with
  | send =>
    obtain ⟨rfl, -, rfl⟩ := parks
    refine ⟨rfl, rfl, ?_⟩
    rintro _ _ ⟨⟩
    rfl
  | recv _ _ _ | futexWait _ _ _ _ | wait _ _ =>
    obtain ⟨rfl, -, rfl⟩ := parks
    exact ⟨rfl, rfl, fun _ _ => TaskState.noConfusion⟩
  | arm _ _ =>
    obtain ⟨rfl, _, _, _, -, rfl⟩ := parks
    exact ⟨rfl, rfl, fun _ _ => TaskState.noConfusion⟩
  | sleep _ _ | awaitEvent _ _ _ =>
    obtain ⟨rfl, rfl⟩ := parks
    exact ⟨rfl, rfl, fun _ _ => TaskState.noConfusion⟩
  | _ => exact parks.elim

namespace Calls

def isParked (client : TaskId) (calls : Calls) : Bool :=
  match calls.phase with
  | .receiving _ _ .parked => (calls.clientTask client).any (fun task => task.state.isRecv)
  | _ => false

def wakesEmpty (client : TaskId) (calls : Calls) : Action → Bool
  | .reply caller _ =>
    (calls.kernel.tasks.get caller).bind Task.currentCaller = some client
  | .exit tid _ _ _ =>
    (waitersOf calls.kernel tid).contains client ||
      (calls.kernel.deathSubscribers tid).contains client
  | .requeue tid => tid = client
  | .dispatch => (queued calls.kernel).contains client
  | _ => false

/-- Nobody but a task that answers sends to the client, and while it is in a call nothing
acts in its name. -/
def addresses (client : TaskId) : Action → Bool
  | .send caller target message =>
    (target ≠ client || message.ticket ≠ 0) && (caller ≠ client || message.ticket = 0)
  | .freeze tid _ => tid ≠ client
  | _ => true

def undisturbed (client : TaskId) (calls : Calls) : Event → Bool
  | .call _ _ _ => true
  | .recv _ =>
    !calls.sendFails client && (calls.clientTask client).all (fun task =>
      task.pendingDeaths.isEmpty && task.pendingExitReason.isNone)
  | .other _ action =>
    (actor action ≠ some client || calls.phase = .idle) && addresses client action &&
      (!calls.isParked client || !calls.wakesEmpty client action)

def Undisturbed (client : TaskId) (calls : Calls) (event : Event) : Prop :=
  calls.undisturbed client event = true

instance (client : TaskId) (calls : Calls) (event : Event) :
    Decidable (calls.Undisturbed client event) :=
  inferInstanceAs (Decidable (_ = true))

def stateTickets : TaskState → List Nat
  | .sending _ message => [message.ticket]
  | _ => []

def ticketsOf (messages : List PendingMsg) : List Nat :=
  messages.map (fun pending => pending.message.ticket)

def letters (task : Task) : List Nat := stateTickets task.state ++ ticketsOf task.pendingMsgs

def numbers (tickets : List Nat) : List Nat := tickets.filter (fun ticket => ticket ≠ 0)

def tokens (calls : Calls) (id : TaskId) (task : Task) : List Nat :=
  numbers (letters task ++ calls.owes id)

def Clear (calls : Calls) : Prop :=
  ∀ id task, calls.kernel.tasks.get id = some task → calls.tokens id task = []

def Confined (calls : Calls) (holder : TaskId) (request : Nat) : Prop :=
  ∀ id task, calls.kernel.tasks.get id = some task →
    calls.tokens id task = [] ∨ (id = holder ∧ calls.tokens id task = [request])

def Answered (calls : Calls) (service : TaskId) (request : Nat) : Prop :=
  calls.Clear ∧ ∃ message : Message,
    calls.arrived = some ⟨service, message⟩ ∧ message.ticket = request

def Parked (client : TaskId) (calls : Calls) (service : TaskId) (request : Nat) : Prop :=
  ∀ task, calls.kernel.tasks.get client = some task →
    (∃ mask buffer, task.state = .recv mask buffer none) ∨ calls.Answered service request

def InStep (client : TaskId) (calls : Calls) : Phase → Prop
  | .idle => calls.Clear
  | .sent _ service request _ =>
    request ≠ 0 ∧ (∃ holder, (holder = client ∨ holder = service) ∧ calls.Confined holder request) ∧
    ∀ task target message, calls.kernel.tasks.get client = some task →
      task.state = .sending target message → message.ticket ≠ 0 → target = service
  | .receiving service request part =>
    request ≠ 0 ∧ client < calls.kernel.tasks.next ∧ calls.Confined service request ∧
    (∀ task, calls.kernel.tasks.get client = some task → task.state.sendTarget = none) ∧
    (part = .parked → calls.Parked client service request)

/-- What holds of the messages in the kernel in every phase. -/
structure Wired (client : TaskId) (calls : Calls) : Prop where
  unqueued : ∀ task, calls.kernel.tasks.get client = some task →
    task.pendingMsgs = [] ∧ task.state.isFrozen = false
  answers : ∀ id task message, calls.kernel.tasks.get id = some task →
    task.state = .sending client message → message.ticket ≠ 0
  aimed : ∀ id task target message, calls.kernel.tasks.get id = some task →
    task.state = .sending target message → message.ticket ≠ 0 → id = client ∨ target = client
  owed : ∀ id, calls.owes id ≠ [] → ∃ task, calls.kernel.tasks.get id = some task
  unowed : calls.owes client = []

structure Settled (client : TaskId) (calls : Calls) : Prop where
  wired : calls.Wired client
  inStep : calls.InStep client calls.phase
  proper : ∀ response ∈ calls.responses, response.Proper

/-- The messages that an action may add: what the client is sent is an answer, and numbers
stand on its requests and on answers to it only. -/
structure Addressed (client : TaskId) (calls : Calls) (action : Action) : Prop where
  answers : ∀ caller message, action = .send caller client message → message.ticket ≠ 0
  aimed : ∀ caller target message, action = .send caller target message →
    message.ticket ≠ 0 → caller = client ∨ target = client
  thawed : ∀ swapId, action ≠ .freeze client swapId
  received : ∀ receiver letter, delivery calls.kernel action = some (receiver, letter) →
    ∃ task, calls.kernel.tasks.get receiver = some task

def Taking (caller : TaskId) (action : Action) : Prop :=
  (∃ mask buffer, action = .recv caller mask buffer) ∨ ∃ buffer, action = .tryRecv caller buffer

section Perform

variable {client : TaskId} {calls : Calls} {hart : HartId} {action : Action}

theorem perform_fields : (calls.perform client hart action).kernel = act calls.kernel hart action ∧
      (calls.perform client hart action).phase = calls.phase ∧
      (calls.perform client hart action).responses = calls.responses := by
  unfold perform
  split
  · exact ⟨rfl, rfl, rfl⟩
  · split <;> exact ⟨rfl, rfl, rfl⟩

@[simp] theorem perform_kernel :
    (calls.perform client hart action).kernel = act calls.kernel hart action :=
  perform_fields.1

theorem perform_owes : (calls.perform client hart action).owes = release client calls.owes action ∨
      ∃ receiver letter, delivery calls.kernel action = some (receiver, letter) ∧
        receiver ≠ client ∧ letter.message.ticket ≠ 0 ∧
        (calls.perform client hart action).owes =
          update (release client calls.owes action) receiver
            (release client calls.owes action receiver ++ [letter.message.ticket]) := by
  unfold perform
  split
  · exact .inl rfl
  · rename_i receiver letter delivered
    by_cases own : receiver = client
    · rw [if_pos own]
      exact .inl rfl
    · rw [if_neg own]
      by_cases plain : letter.message.ticket = 0
      · left
        exact if_pos plain
      · right
        exact ⟨receiver, letter, delivered, own, plain, if_neg plain⟩

theorem perform_charges {receiver : TaskId} {letter : Letter}
    (delivered : delivery calls.kernel action = some (receiver, letter))
    (other : receiver ≠ client) (numbered : letter.message.ticket ≠ 0) :
    (calls.perform client hart action).owes =
      update (release client calls.owes action) receiver
        (release client calls.owes action receiver ++ [letter.message.ticket]) := by
  unfold perform
  rw [delivered]
  dsimp only
  rw [if_neg other]
  exact if_neg numbered

theorem perform_arrives {letter : Letter}
    (delivered : delivery calls.kernel action = some (client, letter)) :
    (calls.perform client hart action).arrived = some letter := by
  unfold perform
  rw [delivered]
  dsimp only
  rw [if_pos rfl]

theorem release_sublist (id : TaskId) :
    (release client calls.owes action id).Sublist (calls.owes id) := by
  unfold release
  split
  · rename_i caller target message
    split
    · by_cases same : id = caller
      · rw [same, update_self]
        exact erase_sublist
      · rw [update_of_ne same]
    · exact List.Sublist.refl _
  · rename_i tid _ _ _
    by_cases same : id = tid
    · rw [same, update_self]
      exact nil_sublist _
    · rw [update_of_ne same]
  · exact List.Sublist.refl _

theorem sending_origin {id target : TaskId} {after : Task} {message : Message}
    {kernel : Kernel} (found : (act kernel hart action).tasks.get id = some after)
    (sending : after.state = .sending target message) :
    (∃ task, kernel.tasks.get id = some task ∧ task.state = .sending target message) ∨
      action = .send id target message := by
  have origin := blocked_origin found (by rw [sending]; exact TaskState.noConfusion)
    (by rw [sending]; exact TaskState.noConfusion) (by rw [sending]; rfl)
  rcases origin with ⟨task, has, same, -⟩ | ⟨task, has, parks⟩
  · exact .inl ⟨task, has, same.trans sending⟩
  · right
    exact (parks_own parks).2.2 target message sending

section

variable (wired : calls.Wired client)
include wired

theorem Wired.unqueued_step (thawed : ∀ swapId, action ≠ .freeze client swapId) {after : Task}
    (found : (act calls.kernel hart action).tasks.get client = some after) :
    after.pendingMsgs = [] ∧ after.state.isFrozen = false := by
  rcases act_origin found with ⟨task, has, change⟩ | ⟨cellId, rfl, -, rfl⟩
  · obtain ⟨none, free⟩ := wired.unqueued task has
    constructor
    · have queue := change_messages change
      generalize after.pendingMsgs = messages at queue
      cases queue with
      | same => exact none
      | popped => rw [none]; rfl
      | pushed _ _ _ frozen => rw [free] at frozen; cases frozen
      | taken => rfl
    · have state := change_state has change
      generalize out : some after.state = changed at state
      cases state with
      | same => rw [some.inj out]; exact free
      | woken wakes | dispatched picks mem => rw [some.inj out]; rfl
      | frozen swapId freezes => exact absurd freezes (thawed swapId)
      | gone => cases out
      | parked _ parks =>
        rw [some.inj out]
        exact (parks_own parks).2.1
  · exact ⟨rfl, rfl⟩

theorem Wired.owed_step
    (received : ∀ receiver letter, delivery calls.kernel action = some (receiver, letter) →
      ∃ task, calls.kernel.tasks.get receiver = some task)
    {id : TaskId} (owes : (calls.perform client hart action).owes id ≠ []) :
    ∃ task, (act calls.kernel hart action).tasks.get id = some task := by
  have lives : ∀ task, calls.kernel.tasks.get id = some task →
      (∀ reason code cause, action ≠ .exit id reason code cause) →
      ∃ task, (act calls.kernel hart action).tasks.get id = some task := by
    intro task has stays
    rcases act_live has action with live | ⟨reason, code, cause, exits⟩
    · exact live
    · exact absurd exits (stays reason code cause)
  have remained : release client calls.owes action id ≠ [] →
      ∃ task, (act calls.kernel hart action).tasks.get id = some task := by
    intro remains
    have was : calls.owes id ≠ [] := by
      intro none
      exact remains (sublist_nil.mp (none ▸ release_sublist id))
    obtain ⟨task, has⟩ := wired.owed id was
    refine lives task has ?_
    rintro reason code cause rfl
    exact remains (by rw [release, update_self])
  rcases @perform_owes client calls hart action with same | ⟨receiver, letter, delivered, -, -, charged⟩
  · rw [same] at owes
    exact remained owes
  · rw [charged] at owes
    by_cases isReceiver : id = receiver
    · obtain ⟨task, has⟩ := received receiver letter delivered
      rw [← isReceiver] at has
      refine lives task has ?_
      rintro reason code cause rfl
      cases delivered
    · rw [update_of_ne isReceiver] at owes
      exact remained owes

theorem Wired.unowed_step : (calls.perform client hart action).owes client = [] := by
  have released : release client calls.owes action client = [] :=
    sublist_nil.mp (wired.unowed ▸ release_sublist client)
  rcases @perform_owes client calls hart action with same | ⟨receiver, letter, -, other, -, charged⟩
  · rw [same]
    exact released
  · rw [charged, update_of_ne (Ne.symm other)]
    exact released

theorem Wired.of_same {other : Calls}
    (kernel : other.kernel = calls.kernel) (owes : other.owes = calls.owes) :
    other.Wired client := by
  constructor
  · rw [kernel]
    exact wired.unqueued
  · rw [kernel]
    exact wired.answers
  · rw [kernel]
    exact wired.aimed
  · rw [kernel, owes]
    exact wired.owed
  · rw [owes]
    exact wired.unowed

theorem Wired.perform_wired (addressed : calls.Addressed client action) :
    (calls.perform client hart action).Wired client := by
  constructor
  · intro after found
    rw [perform_kernel] at found
    exact wired.unqueued_step addressed.thawed found
  · intro id after message found sending
    rw [perform_kernel] at found
    rcases sending_origin found sending with ⟨task, has, was⟩ | sends
    · exact wired.answers id task message has was
    · exact addressed.answers id message sends
  · intro id after target message found sending numbered
    rw [perform_kernel] at found
    rcases sending_origin found sending with ⟨task, has, was⟩ | sends
    · exact wired.aimed id task target message has was numbered
    · exact addressed.aimed id target message sends numbered
  · intro id owes
    rw [perform_kernel]
    exact wired.owed_step addressed.received owes
  · exact wired.unowed_step

end

end Perform

section Tokens

variable {client : TaskId} {calls : Calls} {hart : HartId} {action : Action} {id : TaskId}
  {task : Task}

theorem numbers_append (left right : List Nat) :
    numbers (left ++ right) = numbers left ++ numbers right :=
  filter_append _ _

variable {ticket : Nat}

theorem numbers_one (numbered : ticket ≠ 0) : numbers [ticket] = [ticket] :=
  filter_cons_of_pos (by exact decide_eq_true numbered)

theorem tokens_eq : calls.tokens id task = numbers (letters task) ++ numbers (calls.owes id) :=
  numbers_append _ _

theorem letters_eq :
    numbers (letters task) =
      numbers (stateTickets task.state) ++ numbers (ticketsOf task.pendingMsgs) :=
  numbers_append _ _

theorem tokens_none (none : calls.tokens id task = []) :
    numbers (letters task) = [] ∧ numbers (calls.owes id) = [] := by
  rw [tokens_eq] at none
  exact append_eq_nil_iff.mp none

theorem letters_none (none : numbers (letters task) = []) :
    numbers (stateTickets task.state) = [] ∧ numbers (ticketsOf task.pendingMsgs) = [] := by
  rw [letters_eq] at none
  exact append_eq_nil_iff.mp none

variable {message : Message}

theorem sending_token {target : TaskId} (sending : task.state = .sending target message)
    (numbered : message.ticket ≠ 0) : message.ticket ∈ calls.tokens id task := by
  rw [tokens_eq, letters_eq, sending, stateTickets, numbers_one numbered]
  exact mem_cons_self

theorem owed_token (owed : ticket ∈ calls.owes id) (numbered : ticket ≠ 0) :
    ticket ∈ calls.tokens id task :=
  mem_filter.mpr ⟨mem_append_right _ owed, decide_eq_true numbered⟩

theorem pending_token {pending : PendingMsg} (first : task.pendingMsgs.head? = some pending)
    (numbered : pending.message.ticket ≠ 0) :
    pending.message.ticket ∈ calls.tokens id task := by
  refine mem_filter.mpr ⟨?_, decide_eq_true numbered⟩
  refine mem_append_left _ (mem_append_right _ ?_)
  exact mem_map_of_mem (mem_of_head? first)

theorem Clear.no_token (clear : calls.Clear) (has : calls.kernel.tasks.get id = some task)
    (mem : ticket ∈ calls.tokens id task) : False := by
  rw [clear id task has] at mem
  cases mem

variable {holder : TaskId} {request : Nat}

theorem Confined.elsewhere (confined : calls.Confined holder request)
    (has : calls.kernel.tasks.get id = some task) (other : id ≠ holder) :
    calls.tokens id task = [] := by
  rcases confined id task has with none | ⟨same, -⟩
  · exact none
  · exact absurd same other

theorem Confined.token (confined : calls.Confined holder request)
    (has : calls.kernel.tasks.get id = some task) (mem : ticket ∈ calls.tokens id task) :
    id = holder ∧ ticket = request ∧ calls.tokens id task = [request] := by
  rcases confined id task has with none | ⟨isHolder, one⟩
  · rw [none] at mem
    cases mem
  · rw [one] at mem
    exact ⟨isHolder, mem_singleton.mp mem, one⟩

def Plain (action : Action) : Prop :=
  ∀ caller target message, action = .send caller target message → message.ticket = 0

variable {kernel : Kernel}

theorem plain_state {state : TaskState} (plain : Plain action)
    (change : StateChange kernel id task action (some state)) :
    (numbers (stateTickets state)).Sublist (numbers (stateTickets task.state)) := by
  generalize out : some state = changed at change
  cases change with
  | same => rw [some.inj out]
  | woken wakes | dispatched picks mem | frozen swapId freezes =>
    rw [some.inj out]; exact nil_sublist _
  | gone => cases out
  | parked _ parks =>
    cases out
    have none : numbers (stateTickets state) = [] := by
      cases state with
      | sending target message =>
        have zero := plain id target message ((parks_own parks).2.2 target message rfl)
        rw [stateTickets, zero]
        rfl
      | _ => rfl
    rw [none]
    exact nil_sublist _

theorem plain_queue {messages : List PendingMsg} (plain : Plain action)
    (change : QueueChange id task action messages) :
    (numbers (ticketsOf messages)).Sublist (numbers (ticketsOf task.pendingMsgs)) := by
  cases change with
  | same => exact List.Sublist.refl _
  | popped => exact ((tail_sublist _).map _).filter _
  | taken => exact nil_sublist _
  | pushed caller message =>
    have zero : message.ticket = 0 := plain caller id message rfl
    have dropped : numbers [0] = [] := rfl
    unfold ticketsOf
    rw [map_append, numbers_append, map_singleton, zero, dropped, append_nil]

variable {after : Task}

theorem numbers_released :
    (numbers (release client calls.owes action id)).Sublist (numbers (calls.owes id)) :=
  (release_sublist id).filter _

variable {caller : TaskId}

theorem send_letters {target : TaskId}
    (change : TaskChange kernel id task (.send caller target message) after)
    (none : numbers (letters task) = []) :
    numbers (letters after) = [] ∨ (numbers (letters after) = numbers [message.ticket] ∧
      ((id = caller ∧ SendBlocks kernel target) ∨ (id = target ∧ task.state.isFrozen = true))) := by
  obtain ⟨noState, noQueue⟩ := letters_none none
  cases change with
  | same => exact .inl none
  | buffered _ _ frozen =>
    refine .inr ⟨?_, .inr ⟨rfl, frozen⟩⟩
    unfold ticketsOf at noQueue
    rw [letters_eq, noState, ticketsOf, map_append, numbers_append, noQueue]
    rfl
  | delivered =>
    left
    exact noQueue
  | blocked _ _ blocks =>
    refine .inr ⟨?_, .inl ⟨rfl, blocks⟩⟩
    rw [letters_eq, noQueue, append_nil]
    rfl

/-- No numbered message is sent by the action or reaches a task other than the client. -/
def Calm (client : TaskId) (calls : Calls) (action : Action) : Prop :=
  Plain action ∧ ∀ receiver letter, delivery calls.kernel action = some (receiver, letter) →
    receiver = client ∨ letter.message.ticket = 0

theorem Calm.owes (calm : calls.Calm client action) :
    (calls.perform client hart action).owes = release client calls.owes action := by
  rcases @perform_owes client calls hart action with
    same | ⟨receiver, letter, delivered, other, numbered, -⟩
  · exact same
  · rcases calm.2 receiver letter delivered with own | plain
    · exact absurd own other
    · exact absurd plain numbered

theorem erase_only {owes : List Nat} (mem : request ∈ owes) (numbered : request ≠ 0)
    (one : (numbers owes).length ≤ 1) : numbers (owes.erase request) = [] := by
  have apart : (numbers owes).Perm (numbers (request :: owes.erase request)) :=
    (perm_cons_erase mem).filter _
  have lengths := apart.length_eq
  rw [numbers, numbers, filter_cons_of_pos (by exact decide_eq_true numbered),
    length_cons] at lengths
  exact eq_nil_of_length_eq_zero (by unfold numbers at one ⊢; omega)

theorem send_client_owes (caller : TaskId) (message : Message) :
    (calls.perform client hart (.send caller client message)).owes =
      update calls.owes caller ((calls.owes caller).erase message.ticket) := by
  have released : release client calls.owes (.send caller client message) =
      update calls.owes caller ((calls.owes caller).erase message.ticket) :=
    if_pos rfl
  rcases @perform_owes client calls hart (.send caller client message) with
    same | ⟨receiver, letter, delivered, other, -⟩
  · rw [same, released]
  · rw [delivery] at delivered
    split_ifs at delivered
    cases delivered
    exact absurd rfl other

theorem send_client_arrived (has : calls.kernel.tasks.get client = some task)
    (receiving : task.state.isRecv = true) :
    (calls.perform client hart (.send caller client message)).arrived = some ⟨caller, message⟩ := by
  have delivered : delivery calls.kernel (.send caller client message) =
      some (client, ⟨caller, message⟩) := by
    rw [delivery, has]
    exact if_pos receiving
  exact perform_arrives delivered

theorem delivery_cases {receiver : TaskId} {letter : Letter}
    (delivered : delivery kernel action = some (receiver, letter)) :
    (∃ task, kernel.tasks.get receiver = some task ∧ task.state.isRecv = true ∧
        action = .send letter.sender receiver letter.message) ∨
      (Taking receiver action ∧
        findSender kernel.tasks receiver = some (letter.sender, letter.message)) ∨
      ∃ sender task pending, action = .acceptPending receiver sender ∧
        kernel.tasks.get receiver = some task ∧ task.pendingMsgs.head? = some pending ∧
        letter = ⟨pending.senderTid, pending.message⟩ := by
  unfold delivery at delivered
  split at delivered
  · split at delivered
    · next receiving =>
      cases delivered
      obtain ⟨task, has, isRecv⟩ := (any_eq_true _ _).mp receiving
      exact .inl ⟨task, has, isRecv, rfl⟩
    · cases delivered
  · obtain ⟨found, waiting, same⟩ := map_eq_some_iff.mp delivered
    cases same
    exact .inr (.inl ⟨.inl ⟨_, _, rfl⟩, waiting⟩)
  · obtain ⟨found, waiting, same⟩ := map_eq_some_iff.mp delivered
    cases same
    exact .inr (.inl ⟨.inr ⟨_, rfl⟩, waiting⟩)
  · obtain ⟨pending, found, same⟩ := map_eq_some_iff.mp delivered
    cases same
    obtain ⟨task, has, first⟩ := bind_eq_some_iff.mp found
    exact .inr (.inr ⟨_, task, pending, rfl, has, first, rfl⟩)
  · cases delivered

theorem Taking.delivers (taking : Taking caller action) :
    delivery kernel action =
      (findSender kernel.tasks caller).map (fun found => (caller, ⟨found.1, found.2⟩)) := by
  rcases taking with ⟨mask, buf, rfl⟩ | ⟨buf, rfl⟩ <;> rfl

variable {sender : TaskId}

theorem accept_tasks (waiting : findSender kernel.tasks caller = some (sender, message))
    (taking : Taking caller action) (id : TaskId) :
    (act kernel hart action).tasks.get id =
      (kernel.tasks.get id).map (acceptEffect caller sender id) := by
  have accepted : ∃ bufferLen,
      act kernel hart action = acceptSender kernel hart caller sender message bufferLen := by
    rcases taking with ⟨mask, buf, rfl⟩ | ⟨buf, rfl⟩
    · refine ⟨buf.len, ?_⟩
      unfold act ipcRecv
      dsimp only
      rw [waiting]
    · refine ⟨buf.len, ?_⟩
      unfold act ipcTryRecv
      dsimp only
      rw [waiting]
  obtain ⟨bufferLen, accepted⟩ := accepted
  rw [accepted]
  cases has : kernel.tasks.get id with
  | none => exact (accept_updates caller sender message bufferLen).fields.1.absent id has
  | some => exact accept_get has caller sender message bufferLen

theorem accept_letters (caller sender : TaskId) :
    letters (acceptEffect caller sender id task) =
      if id = sender then ticketsOf task.pendingMsgs else letters task := by
  unfold acceptEffect
  split <;> split <;> rfl

theorem Confined.unbuffer (confined : calls.Confined holder request) {pending : PendingMsg}
    (other : caller ≠ client) (has : calls.kernel.tasks.get caller = some task)
    (first : task.pendingMsgs.head? = some pending) (numbered : pending.message.ticket ≠ 0) :
    (calls.perform client hart (.acceptPending caller sender)).Confined holder request := by
  obtain ⟨isHolder, isRequest, one⟩ := confined.token has (pending_token first numbered)
  have delivered : delivery calls.kernel (.acceptPending caller sender) =
      some (caller, ⟨pending.senderTid, pending.message⟩) := by
    rw [delivery, has, bind_some, first]
    rfl
  have owes : (calls.perform client hart (.acceptPending caller sender)).owes =
      update calls.owes caller (calls.owes caller ++ [request]) := by
    rw [perform_charges delivered other numbered, ← isRequest]
    rfl
  have queue : task.pendingMsgs = pending :: task.pendingMsgs.tail :=
    (cons_head?_tail (mem_def.mpr first)).symm
  intro id after found
  rw [perform_kernel] at found
  have table : (act calls.kernel hart (.acceptPending caller sender)).tasks.get id =
      if id = caller then (calls.kernel.tasks.get id).map (fun task =>
        { task with pendingMsgs := task.pendingMsgs.tail, currentCaller := some sender })
      else calls.kernel.tasks.get id := rfl
  rw [table] at found
  unfold Calls.tokens
  rw [owes]
  by_cases isCaller : id = caller
  · subst isCaller
    right
    refine ⟨isHolder, ?_⟩
    rw [if_pos rfl, has] at found
    cases found
    rw [update_self]
    -- The same numbers in another order.
    have moved : (letters task ++ calls.owes id).Perm
        (letters { task with
          pendingMsgs := task.pendingMsgs.tail, currentCaller := some sender } ++
          (calls.owes id ++ [request])) := by
      unfold letters ticketsOf
      rw [queue, map_cons, isRequest, append_assoc, append_assoc]
      refine List.Perm.append_left _ ?_
      rw [← append_assoc]
      exact (perm_append_singleton _ _).symm
    have filtered : (calls.tokens id task).Perm _ := moved.filter _
    rw [one] at filtered
    exact perm_singleton.mp filtered.symm
  · rw [if_neg isCaller] at found
    rw [update_of_ne isCaller]
    exact confined id after found

variable (wired : calls.Wired client)
include wired

theorem Calm.tokens (calm : calls.Calm client action)
    (found : (calls.perform client hart action).kernel.tasks.get id = some after) :
    (∃ task, calls.kernel.tasks.get id = some task ∧
        ((calls.perform client hart action).tokens id after).Sublist (calls.tokens id task)) ∨
      (calls.perform client hart action).tokens id after = [] := by
  rw [perform_kernel] at found
  rw [tokens_eq, calm.owes]
  rcases act_origin found with ⟨task, has, change⟩ | ⟨cellId, rfl, fresh, rfl⟩
  · left
    refine ⟨task, has, ?_⟩
    rw [tokens_eq, letters_eq, letters_eq]
    exact ((plain_state calm.1 (change_state has change)).append
      (plain_queue calm.1 (change_messages change))).append numbers_released
  · right
    have none : calls.owes id = [] := by
      by_contra owes
      obtain ⟨task, has⟩ := wired.owed id owes
      exact absurd (lt_next_of_get has) (fresh ▸ lt_irrefl _)
    have kept : release client calls.owes (.spawn cellId) id = [] := none
    rw [kept]
    rfl

theorem Clear.calm (clear : calls.Clear) (calm : calls.Calm client action) :
    (calls.perform client hart action).Clear := by
  intro id after found
  rcases calm.tokens wired found with ⟨task, has, kept⟩ | none
  · rw [clear id task has] at kept
    exact sublist_nil.mp kept
  · exact none

theorem Confined.calm (confined : calls.Confined holder request) (calm : calls.Calm client action) :
    (calls.perform client hart action).Confined holder request := by
  intro id after found
  rcases calm.tokens wired found with ⟨task, has, kept⟩ | none
  · rcases confined id task has with none | ⟨isHolder, one⟩
    · rw [none] at kept
      exact .inl (sublist_nil.mp kept)
    · rw [one] at kept
      rcases sublist_singleton.mp kept with none | one
      · exact .inl none
      · exact .inr ⟨isHolder, one⟩
  · exact .inl none

/-- An answer moves the token from what its sender owes into the sender's `Sending`
state, or into the client's buffer if the client waits. -/
theorem Confined.answer (confined : calls.Confined holder request) (other : caller ≠ client)
    (owes : message.ticket ∈ calls.owes caller) (numbered : message.ticket ≠ 0) :
    caller = holder ∧ message.ticket = request ∧
      (calls.perform client hart (.send caller client message)).Confined holder request ∧
      ((∀ task, calls.kernel.tasks.get client = some task → task.state.isRecv = true) →
        (calls.perform client hart (.send caller client message)).Clear) := by
  obtain ⟨holding, has⟩ := wired.owed caller (ne_nil_of_mem owes)
  obtain ⟨isHolder, isRequest, one⟩ := confined.token has (owed_token owes numbered)
  have mem : message.ticket ∈ numbers (calls.owes caller) :=
    mem_filter.mpr ⟨owes, decide_eq_true numbered⟩
  obtain ⟨noLetters, owesOne⟩ :
      numbers (letters holding) = [] ∧ numbers (calls.owes caller) = [request] := by
    rw [tokens_eq] at one
    rcases append_eq_singleton_iff.mp one with here | ⟨-, empty⟩
    · exact here
    · rw [empty] at mem
      cases mem
  have erased : numbers ((calls.owes caller).erase message.ticket) = [] :=
    erase_only owes numbered (by rw [owesOne, length_singleton])
  set sent := calls.perform client hart (.send caller client message) with isSent
  -- Only the caller can come to hold the answer, and only by blocking.
  have tokensAfter : ∀ id after, sent.kernel.tasks.get id = some after →
      sent.tokens id after = [] ∨
        (id = holder ∧ SendBlocks calls.kernel client ∧ sent.tokens id after = [request]) := by
    intro id after found
    rw [isSent, perform_kernel] at found
    rw [tokens_eq, isSent, send_client_owes]
    rcases act_origin found with ⟨task, was, change⟩ | ⟨cellId, spawns, -, -⟩
    case inr => cases spawns
    obtain ⟨free, paid⟩ : numbers (letters task) = [] ∧ numbers (update calls.owes caller
        ((calls.owes caller).erase message.ticket) id) = [] := by
      by_cases isCaller : id = caller
      · subst isCaller
        rw [has] at was
        cases was
        rw [update_self]
        exact ⟨noLetters, erased⟩
      · rw [update_of_ne isCaller]
        exact tokens_none (confined.elsewhere was (isHolder ▸ isCaller))
    rw [paid, append_nil]
    rcases send_letters change free with
      none | ⟨one, ⟨isCaller, blocks⟩ | ⟨isClient, frozen⟩⟩
    · exact .inl none
    · rw [one, numbers_one numbered, isRequest]
      exact .inr ⟨isCaller.trans isHolder, blocks, rfl⟩
    · rw [(wired.unqueued task (isClient ▸ was)).2] at frozen
      cases frozen
  refine ⟨isHolder, isRequest, ?_, ?_⟩
  · intro id after found
    rcases tokensAfter id after found with none | ⟨same, -, one⟩
    · exact .inl none
    · exact .inr ⟨same, one⟩
  · intro receives id after found
    rcases tokensAfter id after found with none | ⟨-, ⟨receiver, here, notRecv, -⟩, -⟩
    · exact none
    · rw [receives receiver here] at notRecv
      cases notRecv

theorem Wired.taken_from_client (other : caller ≠ client)
    (waiting : findSender calls.kernel.tasks caller = some (sender, message))
    (numbered : message.ticket ≠ 0) : sender = client := by
  obtain ⟨sending, has, state⟩ := find_sender_some waiting
  exact (wired.aimed sender sending caller message has state numbered).resolve_right other

theorem Confined.take (confined : calls.Confined holder request) (other : caller ≠ client)
    (waiting : findSender calls.kernel.tasks caller = some (sender, message))
    (taking : Taking caller action) (numbered : message.ticket ≠ 0) :
    (calls.perform client hart action).Confined caller request := by
  obtain ⟨_, has, state⟩ := find_sender_some waiting
  have fromClient := wired.taken_from_client other waiting numbered
  obtain ⟨isHolder, isRequest, _⟩ := confined.token has (sending_token state numbered)
  have delivered : delivery calls.kernel action = some (caller, ⟨sender, message⟩) := by
    rw [taking.delivers, waiting]
    rfl
  have released : release client calls.owes action = calls.owes := by
    rcases taking with ⟨mask, buf, rfl⟩ | ⟨buf, rfl⟩ <;> rfl
  have owes : (calls.perform client hart action).owes =
      update calls.owes caller (calls.owes caller ++ [request]) := by
    rw [perform_charges delivered other numbered, released, ← isRequest]
  intro id after found
  rw [perform_kernel, accept_tasks waiting taking] at found
  obtain ⟨task, was, rfl⟩ := map_eq_some_iff.mp found
  rw [tokens_eq, owes, accept_letters]
  by_cases isSender : id = sender
  · -- The client's request leaves its state, and the client has nothing else.
    left
    have isClient : id = client := isSender.trans fromClient
    have notCaller : id ≠ caller := fun same => other (same.symm.trans isClient)
    rw [if_pos isSender, update_of_ne notCaller, isClient, wired.unowed,
      (wired.unqueued task (isClient ▸ was)).1]
    rfl
  · obtain ⟨noLetters, noOwes⟩ := tokens_none (confined.elsewhere was (isHolder ▸ isSender))
    rw [if_neg isSender, noLetters, nil_append]
    by_cases isCaller : id = caller
    · right
      refine ⟨isCaller, ?_⟩
      rw [isCaller, update_self, numbers_append, ← isCaller, noOwes, nil_append,
        numbers_one (isRequest ▸ numbered)]
    · left
      rw [update_of_ne isCaller]
      exact noOwes

end Tokens

section Others

variable {client : TaskId} {calls : Calls} {hart : HartId} {action : Action}

theorem addressed_of_guard (admitted : calls.admits client action = true)
    (addressed : addresses client action = true) : calls.Addressed client action := by
  constructor
  · rintro caller message rfl
    have both : message.ticket ≠ 0 ∧ (caller ≠ client ∨ message.ticket = 0) := by
      simpa [addresses] using addressed
    exact both.1
  · rintro caller target message rfl numbered
    have allowed : (message.ticket = 0 ∨ caller = client) ∨
        (target = client ∧ message.ticket ∈ calls.owes caller) := by
      simpa [admits] using admitted
    rcases allowed with (zero | own) | answer
    · exact absurd zero numbered
    · exact .inl own
    · exact .inr answer.1
  · rintro swapId rfl
    simp [addresses] at addressed
  · intro receiver letter delivered
    rcases delivery_cases delivered with ⟨task, has, -⟩ | ⟨taking, -⟩ | ⟨_, task, _, -, has, -⟩
    · exact ⟨task, has⟩
    · rcases taking with ⟨_, _, rfl⟩ | ⟨_, rfl⟩ <;> exact isSome_iff_exists.mp admitted
    · exact ⟨task, has⟩

/-- What another task's action can do to a token. -/
inductive Moves (client : TaskId) (calls : Calls) (action : Action) : Prop where
  | calm (calm : calls.Calm client action)
  | answer (caller : TaskId) (message : Message) (sends : action = .send caller client message)
      (other : caller ≠ client) (owes : message.ticket ∈ calls.owes caller)
      (numbered : message.ticket ≠ 0)
  | take (caller sender : TaskId) (message : Message)
      (taking : Taking caller action) (other : caller ≠ client)
      (waiting : findSender calls.kernel.tasks caller = some (sender, message))
      (numbered : message.ticket ≠ 0)
  | unbuffer (caller sender : TaskId) (task : Task) (pending : PendingMsg)
      (accepts : action = .acceptPending caller sender) (other : caller ≠ client)
      (present : calls.kernel.tasks.get caller = some task)
      (first : task.pendingMsgs.head? = some pending) (numbered : pending.message.ticket ≠ 0)

theorem moves_of_guard (admitted : calls.admits client action = true)
    (addressed : addresses client action = true) : calls.Moves client action := by
  by_cases plain : Plain action
  · cases delivered : delivery calls.kernel action with
    | none => exact .calm ⟨plain, by simp [delivered]⟩
    | some reached =>
      obtain ⟨receiver, letter⟩ := reached
      by_cases harmless : receiver = client ∨ letter.message.ticket = 0
      · refine .calm ⟨plain, ?_⟩
        intro _ _ same
        cases delivered.symm.trans same
        exact harmless
      · obtain ⟨other, numbered⟩ := not_or.mp harmless
        rcases delivery_cases delivered with ⟨_, _, _, sends⟩ | ⟨taking, waiting⟩ |
          ⟨sender, task, pending, accepts, has, first, rfl⟩
        · exact absurd (plain _ _ _ sends) numbered
        · exact .take receiver letter.sender letter.message taking other waiting numbered
        · exact .unbuffer receiver sender task pending accepts other has first numbered
  · obtain ⟨caller, target, message, rfl, numbered⟩ : ∃ caller target message,
        action = .send caller target message ∧ message.ticket ≠ 0 := by
      simpa [Plain] using plain
    have other : caller ≠ client := by
      rintro rfl
      simp [addresses, numbered] at addressed
    have allowed : target = client ∧ message.ticket ∈ calls.owes caller := by
      simpa [admits, numbered, other] using admitted
    obtain ⟨rfl, owes⟩ := allowed
    exact .answer caller message rfl other owes numbered

theorem perform_arrived
    (elsewhere : ∀ receiver letter, delivery calls.kernel action = some (receiver, letter) →
      receiver ≠ client) : (calls.perform client hart action).arrived = calls.arrived := by
  unfold perform
  split
  · rfl
  · rename_i receiver letter delivered
    rw [if_neg (elsewhere receiver letter delivered)]

theorem delivery_receiver {receiver : TaskId} {letter : Letter}
    (delivered : delivery calls.kernel action = some (receiver, letter)) :
    actor action = some receiver ∨ action = .send letter.sender receiver letter.message := by
  rcases delivery_cases delivered with ⟨_, _, _, sends⟩ | ⟨taking, -⟩ | ⟨_, _, _, rfl, -⟩
  · exact .inr sends
  · rcases taking with ⟨_, _, rfl⟩ | ⟨_, rfl⟩ <;> exact .inl rfl
  · exact .inl rfl

theorem parked_stays {task after : Task} {mask : Nat} {buf : Buffer}
    (has : calls.kernel.tasks.get client = some task)
    (state : task.state = .recv mask buf none)
    (change : TaskChange calls.kernel client task action after)
    (notOwn : actor action ≠ some client) (quiet : calls.wakesEmpty client action = false)
    (thawed : ∀ swapId, action ≠ .freeze client swapId)
    (unsent : ∀ caller message, action ≠ .send caller client message) :
    after.state = .recv mask buf none := by
  have changed := change_state has change
  generalize out : some after.state = outcome at changed
  cases changed with
  | same => exact (some.inj out).trans state
  | frozen swapId freezes => exact absurd freezes (thawed swapId)
  | gone => cases out
  | dispatched picks mem =>
    subst picks
    simp [wakesEmpty, mem] at quiet
  | parked _ parks =>
    exact absurd (parks_own parks).1 notOwn
  | woken wakes =>
    exfalso
    unfold Wakes at wakes
    rw [state] at wakes
    split at wakes
    · exact unsent _ _ (by rw [wakes.1])
    · cases wakes
    · cases wakes
    · simp [wakesEmpty, wakes] at quiet
    · rename_i tid reason code cause
      have listed : client ∈ waitersOf calls.kernel tid ∨
          client ∈ calls.kernel.deathSubscribers tid := by
        rcases wakes.2 with sending | waits | ⟨subscribed, -⟩
        · rw [state] at sending
          cases sending
        · exact .inl waits
        · exact .inr subscribed
      have unlisted : client ∉ waitersOf calls.kernel tid ∧
          client ∉ calls.kernel.deathSubscribers tid := by
        simpa [wakesEmpty] using quiet
      rcases listed with waits | subscribed
      · exact unlisted.1 waits
      · exact unlisted.2 subscribed
    · cases wakes
    · simp [wakesEmpty, wakes] at quiet
    · cases wakes
    · cases wakes.2
    · exact wakes

theorem not_sending_step {target : TaskId} {message : Message} {after : Task}
    (notOwn : actor action ≠ some client)
    (found : (act calls.kernel hart action).tasks.get client = some after)
    (sending : after.state = .sending target message) :
    ∃ task, calls.kernel.tasks.get client = some task ∧ task.state = .sending target message := by
  rcases sending_origin found sending with was | rfl
  · exact was
  · exact absurd rfl notOwn

variable {service : TaskId} {request : Nat}

section

variable (wired : calls.Wired client) (move : calls.Moves client action)
include wired move

theorem Clear.moves (clear : calls.Clear) : calls.Calm client action := by
  cases move with
  | calm calm => exact calm
  | answer caller _ _ _ owes numbered =>
    obtain ⟨task, has⟩ := wired.owed caller (ne_nil_of_mem owes)
    exact (clear.no_token has (owed_token owes numbered)).elim
  | take _ _ _ _ _ waiting numbered =>
    obtain ⟨task, has, state⟩ := find_sender_some waiting
    exact (clear.no_token has (sending_token state numbered)).elim
  | unbuffer _ _ _ _ _ _ has first numbered =>
    exact (clear.no_token has (pending_token first numbered)).elim

theorem Confined.moves {holder : TaskId} (confined : calls.Confined holder request) :
    (calls.perform client hart action).Confined holder request ∨
      ∃ task target message, calls.kernel.tasks.get client = some task ∧
        task.state = .sending target message ∧ message.ticket ≠ 0 ∧
        (calls.perform client hart action).Confined target request := by
  cases move with
  | calm calm => exact .inl (confined.calm wired calm)
  | answer _ _ sends other owes numbered =>
    subst sends
    exact .inl (confined.answer wired other owes numbered).2.2.1
  | take caller _ message taking other waiting numbered =>
    obtain ⟨task, has, state⟩ := find_sender_some waiting
    have fromClient := wired.taken_from_client other waiting numbered
    exact .inr ⟨task, caller, message, fromClient ▸ has, state, numbered,
      confined.take wired other waiting taking numbered⟩
  | unbuffer _ _ _ _ accepts other has first numbered =>
    subst accepts
    exact .inl (confined.unbuffer other has first numbered)

variable (addressed : calls.Addressed client action) (notOwn : actor action ≠ some client)
include addressed notOwn

theorem Answered.step (answered : calls.Answered service request) :
    (calls.perform client hart action).Answered service request := by
  obtain ⟨clear, message, arrived, isRequest⟩ := answered
  have calm := clear.moves wired move
  refine ⟨clear.calm wired calm, message, ?_, isRequest⟩
  rw [perform_arrived, arrived]
  rintro receiver letter delivered rfl
  rcases delivery_receiver delivered with own | sends
  · exact notOwn own
  · exact addressed.answers letter.sender letter.message sends
      (calm.1 letter.sender receiver letter.message sends)

theorem Parked.step (born : client < calls.kernel.tasks.next)
    (quiet : (∃ task, calls.kernel.tasks.get client = some task ∧ task.state.isRecv = true) →
      calls.wakesEmpty client action = false) (confined : calls.Confined service request)
    (parked : calls.Parked client service request) :
    (calls.perform client hart action).Parked client service request := by
  intro after found
  rw [perform_kernel] at found
  rcases act_origin found with ⟨task, has, change⟩ | ⟨cellId, -, fresh, -⟩
  case inr => exact absurd (fresh ▸ born) (lt_irrefl _)
  rcases parked task has with ⟨mask, buf, state⟩ | answered
  case inr => exact .inr (answered.step wired move addressed notOwn)
  have receiving : task.state.isRecv = true := by rw [state]; rfl
  by_cases sends : ∃ caller message, action = .send caller client message
  · -- The message that ends the wait is the answer.
    right
    obtain ⟨caller, message, rfl⟩ := sends
    cases move with
    | calm calm =>
      exact absurd (calm.1 caller client message rfl)
        (addressed.answers caller message rfl)
    | take _ _ _ taking => rcases taking with ⟨_, _, taking⟩ | ⟨_, taking⟩ <;> cases taking
    | unbuffer _ _ _ _ accepts => cases accepts
    | answer caller message sends other owes numbered =>
      cases sends
      obtain ⟨isHolder, isRequest, -, clears⟩ :=
        @Confined.answer client calls hart message service request caller wired confined other
          owes numbered
      subst isHolder
      refine ⟨clears ?_, message, send_client_arrived has receiving, isRequest⟩
      intro other here
      rw [has] at here
      cases here
      exact receiving
  · left
    refine ⟨mask, buf, parked_stays has state change notOwn
      (quiet ⟨task, has, receiving⟩) addressed.thawed ?_⟩
    intro caller message same
    exact sends ⟨caller, message, same⟩

end

theorem Settled.other_step (settled : calls.Settled client)
    (admitted : calls.admits client action = true)
    (guard : calls.undisturbed client (.other hart action) = true) :
    (calls.perform client hart action).Settled client := by
  have guards : ((actor action ≠ some client ∨ calls.phase = .idle) ∧
      addresses client action = true) ∧
      (calls.isParked client = false ∨ calls.wakesEmpty client action = false) := by
    simpa [undisturbed] using guard
  obtain ⟨⟨own, addresses⟩, parkedGuard⟩ := guards
  have addressed := addressed_of_guard admitted addresses
  have moves := moves_of_guard admitted addresses
  have wired := settled.wired
  refine ⟨wired.perform_wired addressed, ?_, ?_⟩
  case refine_2 =>
    rw [perform_fields.2.2]
    exact settled.proper
  have was := settled.inStep
  rw [perform_fields.2.1]
  cases phase : calls.phase with
  | idle =>
    rw [phase] at was
    exact was.calm wired (was.moves wired moves)
  | sent =>
    rw [phase] at was own
    obtain ⟨pos, ⟨holder, known, confined⟩, aimed⟩ := was
    have notOwn := own.resolve_right Phase.noConfusion
    refine ⟨pos, ?_, ?_⟩
    · rcases confined.moves wired moves with
        stays | ⟨task, target, message, has, sending, numbered, moved⟩
      · exact ⟨holder, known, stays⟩
      · exact ⟨target, .inr (aimed task target message has sending numbered), moved⟩
    intro after target message found sending numbered
    rw [perform_kernel] at found
    obtain ⟨task, has, state⟩ := not_sending_step notOwn found sending
    exact aimed task target message has state numbered
  | receiving =>
    rw [phase] at was own
    obtain ⟨pos, born, confined, still, parked⟩ := was
    have notOwn := own.resolve_right Phase.noConfusion
    refine ⟨pos, ?_, ?_, ?_, ?_⟩
    · rw [perform_kernel]
      exact born.trans_le (act_next action)
    · refine (confined.moves wired moves).resolve_right ?_
      rintro ⟨task, target, message, has, sending, -⟩
      have none := still task has
      rw [sending] at none
      cases none
    · intro after found
      rw [perform_kernel] at found
      cases state : after.state with
      | sending =>
        obtain ⟨task, has, sending⟩ := not_sending_step notOwn found state
        have none := still task has
        rw [sending] at none
        cases none
      | _ => rfl
    · rintro rfl
      refine (parked rfl).step wired moves addressed notOwn born ?_ confined
      rintro ⟨task, has, receiving⟩
      refine parkedGuard.resolve_left ?_
      unfold isParked clientTask
      rw [phase, has]
      simp [receiving]

end Others

section Client

variable {client : TaskId} {calls : Calls} {hart : HartId} {service : TaskId} {request : Nat}

theorem request_owes {message : Message} (clear : calls.Clear)
    (numbered : message.ticket ≠ 0) {id : TaskId} {task : Task}
    (has : calls.kernel.tasks.get id = some task) :
    numbers ((calls.perform client hart (.send client service message)).owes id) = [] ∨
      (id = service ∧ task.state.isRecv = true ∧
        numbers ((calls.perform client hart (.send client service message)).owes id) =
          [message.ticket]) := by
  have released : numbers (release client calls.owes (.send client service message) id) = [] := by
    have kept := @numbers_released client calls (.send client service message) id
    rw [(tokens_none (clear id task has)).2] at kept
    exact sublist_nil.mp kept
  rcases @perform_owes client calls hart (.send client service message) with
    same | ⟨receiver, letter, delivered, -, -, charged⟩
  · rw [same]
    exact .inl released
  · rw [delivery] at delivered
    split_ifs at delivered with receiving
    cases delivered
    rw [charged]
    by_cases isService : id = service
    · right
      subst isService
      rw [has] at receiving
      refine ⟨rfl, receiving, ?_⟩
      rw [update_self, numbers_append, released, nil_append, numbers_one numbered]
    · left
      rw [update_of_ne isService]
      exact released

theorem Clear.send_request {message : Message} (clear : calls.Clear)
    (numbered : message.ticket ≠ 0) :
    ∃ holder, (holder = client ∨ holder = service) ∧
      (calls.perform client hart (.send client service message)).Confined holder
        message.ticket := by
  set sent := calls.perform client hart (.send client service message) with isSent
  have held : ∀ id after, sent.kernel.tasks.get id = some after →
      sent.tokens id after = [] ∨
        (((id = client ∧ SendBlocks calls.kernel service) ∨
            (id = service ∧ ¬ SendBlocks calls.kernel service)) ∧
          sent.tokens id after = [message.ticket]) := by
    intro id after found
    rw [isSent, perform_kernel] at found
    rcases act_origin found with ⟨task, has, change⟩ | ⟨cellId, spawns, -, -⟩
    case inr => cases spawns
    have opened : id = service → task.state.isRecv = true ∨ task.state.isFrozen = true →
        ¬ SendBlocks calls.kernel service := by
      rintro rfl takes ⟨receiver, here, notRecv, notFrozen⟩
      rw [has] at here
      cases here
      rw [notRecv, notFrozen] at takes
      exact takes.elim Bool.noConfusion Bool.noConfusion
    rw [tokens_eq]
    rcases send_letters change (tokens_none (clear id task has)).1 with
      none | ⟨one, place⟩
    · rw [none]
      rcases @request_owes client calls hart service message clear numbered id task has with
        noOwes | ⟨isService, receiving, charged⟩
      · exact .inl noOwes
      · exact .inr ⟨.inr ⟨isService, opened isService (.inl receiving)⟩, charged⟩
    · have noOwes := (@request_owes client calls hart service message clear numbered id task
          has).resolve_right (by
        rintro ⟨isService, receiving, -⟩
        rcases place with ⟨-, blocks⟩ | ⟨-, frozen⟩
        · exact opened isService (.inl receiving) blocks
        · cases state : task.state <;> simp_all [TaskState.isRecv, TaskState.isFrozen])
      rw [one, noOwes, numbers_one numbered]
      refine .inr ⟨place.imp_right ?_, rfl⟩
      rintro ⟨isService, frozen⟩
      exact ⟨isService, opened isService (.inr frozen)⟩
  by_cases blocks : SendBlocks calls.kernel service
  · refine ⟨client, .inl rfl, ?_⟩
    intro id after found
    rcases held id after found with none | ⟨⟨isClient, -⟩ | ⟨-, apart⟩, one⟩
    · exact .inl none
    · exact .inr ⟨isClient, one⟩
    · exact absurd blocks apart
  · refine ⟨service, .inr rfl, ?_⟩
    intro id after found
    rcases held id after found with none | ⟨⟨-, blocked⟩ | ⟨isService, -⟩, one⟩
    · exact .inl none
    · exact absurd blocked blocks
    · exact .inr ⟨isService, one⟩

theorem running_task (running : calls.isRunning client = true) :
    ∃ task, calls.kernel.tasks.get client = some task ∧ task.state = .running := by
  obtain ⟨task, has, state⟩ := (any_eq_true _ _).mp running
  exact ⟨task, has, of_decide_eq_true state⟩

theorem recv_addressed (running : calls.isRunning client = true) (mask : Nat)
    (buf : Buffer) : calls.Addressed client (.recv client mask buf) := by
  obtain ⟨task, has, -⟩ := running_task running
  exact addressed_of_guard (isSome_iff_exists.mpr ⟨task, has⟩) rfl

theorem recv_calm (mask : Nat) (buf : Buffer) : calls.Calm client (.recv client mask buf) := by
  constructor
  · intro caller target message sends
    cases sends
  · intro receiver letter delivered
    obtain ⟨_, -, same⟩ := map_eq_some_iff.mp delivered
    cases same
    exact .inl rfl

theorem Confined.client_takes {sender : TaskId} {message : Message} {mask : Nat}
    {buf : Buffer} (confined : calls.Confined service request) (wired : calls.Wired client)
    (waiting : findSender calls.kernel.tasks client = some (sender, message)) :
    sender = service ∧ message.ticket = request ∧
      (calls.perform client hart (.recv client mask buf)).Clear ∧
      (calls.perform client hart (.recv client mask buf)).arrived = some ⟨sender, message⟩ := by
  obtain ⟨sending, has, state⟩ := find_sender_some waiting
  have numbered := wired.answers sender sending message has state
  obtain ⟨isHolder, isRequest, one⟩ := confined.token has (sending_token state numbered)
  refine ⟨isHolder, isRequest, ?_, perform_arrives (by rw [delivery, waiting]; rfl)⟩
  intro id after found
  rw [perform_kernel, accept_tasks waiting (.inl ⟨mask, buf, rfl⟩)] at found
  obtain ⟨_, was, rfl⟩ := map_eq_some_iff.mp found
  rw [tokens_eq, (recv_calm mask buf).owes, accept_letters]
  by_cases isSender : id = sender
  · subst isSender
    rw [has] at was
    cases was
    -- Its token was in its state, so its queue and its debts hold none.
    rw [tokens_eq, letters_eq, state, stateTickets, numbers_one (isRequest ▸ numbered),
      append_assoc, singleton_append, cons.injEq] at one
    rw [if_pos rfl]
    exact one.2
  · rw [if_neg isSender]
    exact tokens_eq.symm.trans (confined.elsewhere was (isHolder ▸ isSender))

theorem Settled.answered (wired : calls.Wired client)
    (proper : ∀ response ∈ calls.responses, response.Proper) (clear : calls.Clear)
    {message : Message} (isRequest : message.ticket = request) (reported : TaskId) :
    (calls.respond service request reported (some ⟨service, message⟩)).Settled client := by
  refine ⟨wired.of_same rfl rfl, clear, ?_⟩
  intro response mem
  unfold respond at mem
  split at mem
  · rcases mem_append.mp mem with earlier | now
    · exact proper response earlier
    · rw [mem_singleton.mp now]
      exact ⟨message, rfl, isRequest⟩
  · exact proper response mem

section

variable (settled : calls.Settled client)
include settled

theorem Settled.call_step (idle : calls.phase = .idle)
    (hart : HartId) (serviceId : Nat) (bytes : List Byte) :
    (calls.call client hart serviceId bytes).Settled client := by
  have wired := settled.wired
  have clear := settled.inStep
  rw [idle] at clear
  unfold call
  cases calls.resolve serviceId with
  | none => exact settled
  | some service =>
    dsimp only
    have numbered : calls.requests + 1 ≠ 0 := Nat.succ_ne_zero _
    split
    · exact ⟨wired.of_same rfl rfl, settled.inStep, settled.proper⟩
    · have addressed : calls.Addressed client
          (.send client service ⟨calls.requests + 1, .user, bytes⟩) := by
        refine ⟨?_, ?_, ?_, ?_⟩
        · rintro caller message ⟨⟩
          exact numbered
        · rintro caller target message ⟨⟩ -
          exact .inl rfl
        · intro swapId freezes
          cases freezes
        · intro receiver letter delivered
          rw [delivery] at delivered
          split_ifs at delivered with receiving
          cases delivered
          obtain ⟨task, has, -⟩ := (any_eq_true _ _).mp receiving
          exact ⟨task, has⟩
      have sent := @Wired.perform_wired client calls hart _ wired addressed
      refine ⟨sent.of_same rfl rfl, ⟨numbered, ?_, ?_⟩, ?_⟩
      · obtain ⟨holder, known, confined⟩ := @Clear.send_request client calls hart service
          ⟨calls.requests + 1, .user, bytes⟩ clear numbered
        exact ⟨holder, known, confined⟩
      · intro after target message found sending marked
        have reached : (act calls.kernel hart
            (.send client service ⟨calls.requests + 1, .user, bytes⟩)).tasks.get client =
              some after := by
          rw [← perform_kernel]
          exact found
        rcases sending_origin reached sending with ⟨task, has, was⟩ | same
        · exact (clear.no_token has (sending_token was marked)).elim
        · cases same
          rfl
      · intro response mem
        have earlier : response ∈ calls.responses := by
          rw [← (@perform_fields client calls hart
            (.send client service ⟨calls.requests + 1, .user, bytes⟩)).2.2]
          exact mem
        exact settled.proper response earlier

theorem Settled.block_step (running : calls.isRunning client = true)
    (phase : calls.phase = .receiving service request .block) :
    (calls.recv client hart service request .block).Settled client := by
  have wired := settled.wired
  have was := settled.inStep
  rw [phase] at was
  obtain ⟨pos, _, confined, _, -⟩ := was
  have entered : (calls.perform client hart (.recv client 0 respBuf)).Wired client :=
    wired.perform_wired (recv_addressed running 0 _)
  have responses := settled.proper
  rw [← (@perform_fields client calls hart (.recv client 0 respBuf)).2.2] at responses
  rw [recv]
  cases waiting : findSender calls.kernel.tasks client with
  | some found =>
    obtain ⟨sender, message⟩ := found
    obtain ⟨isService, isRequest, clear, arrived⟩ :=
      @Confined.client_takes client calls hart service request sender message 0
        respBuf confined wired waiting
    rw [arrived, isService]
    exact Settled.answered entered responses clear isRequest service
  | none =>
    obtain ⟨task, has, state⟩ := running_task running
    have kernel : act calls.kernel hart (.recv client 0 respBuf) =
        setState calls.kernel client (.recv 0 respBuf none) := by
      rw [act, ipcRecv, waiting]
    have parked : (calls.perform client hart (.recv client 0 respBuf)).kernel.tasks.get
        client = some { task with state := .recv 0 respBuf none } := by
      rw [perform_kernel, kernel, setState, modifyTask, get_modify, if_pos rfl, has]
      rfl
    refine ⟨entered.of_same rfl rfl, ⟨pos, ?_, ?_, ?_, ?_⟩, responses⟩
    · exact lt_next_of_get parked
    · exact confined.calm wired (recv_calm 0 _)
    · intro after found
      rw [parked] at found
      cases found
      rfl
    · intro _ after found
      rw [parked] at found
      cases found
      exact .inl ⟨0, respBuf, rfl⟩

theorem Settled.recv_step (running : calls.isRunning client = true)
    (guard : calls.undisturbed client (.recv hart) = true) {part : RecvSection}
    (phase : calls.phase = .receiving service request part) :
    (calls.recv client hart service request part).Settled client := by
  have wired := settled.wired
  have was := settled.inStep
  rw [phase] at was
  obtain ⟨pos, born, confined, still, parked⟩ := was
  obtain ⟨task, has, state⟩ := running_task running
  have quiet : task.pendingDeaths = [] ∧ task.pendingExitReason = none := by
    have both := guard
    simp only [undisturbed, clientTask, has, all_some, Bool.and_eq_true,
      List.isEmpty_iff, Option.isNone_iff_eq_none] at both
    exact both.2
  have moves : ∀ next ≠ .parked,
      Settled client { calls with phase := .receiving service request next } :=
    fun _ other => ⟨wired.of_same rfl rfl, ⟨pos, born, confined, still, (absurd · other)⟩,
      settled.proper⟩
  cases part with
  | deaths =>
    rw [recv, clientTask, has, bind_some, quiet.1]
    exact moves .messages RecvSection.noConfusion
  | messages =>
    rw [recv, clientTask, has, bind_some, (wired.unqueued task has).1]
    exact moves .block RecvSection.noConfusion
  | block => exact settled.block_step running phase
  | parked =>
    rw [recv, clientTask, has, bind_some, quiet.2]
    rcases parked rfl task has with
      ⟨mask, buf, waiting⟩ | ⟨clear, message, arrived, isRequest⟩
    · rw [state] at waiting
      cases waiting
    · rw [arrived]
      exact Settled.answered wired settled.proper clear isRequest _

theorem Settled.enter_step {serviceId : Nat} {blocked : Bool}
    (running : calls.isRunning client = true)
    (phase : calls.phase = .sent serviceId service request blocked) :
    Settled client { calls with phase := .receiving service request .deaths } := by
  have wired := settled.wired
  have was := settled.inStep
  rw [phase] at was
  obtain ⟨pos, ⟨_, known, confined⟩, -⟩ := was
  obtain ⟨task, has, state⟩ := running_task running
  refine ⟨wired.of_same rfl rfl, ⟨pos, lt_next_of_get has, ?_, ?_, RecvSection.noConfusion⟩,
    settled.proper⟩
  · -- The client has sent its request: it holds nothing itself.
    intro id other found
    rcases confined id other found with none | ⟨isHolder, one⟩
    · exact .inl none
    rcases known with isClient | isService
    · subst isHolder
      subst isClient
      have same : some other = some task := found.symm.trans has
      cases same
      unfold Calls.tokens letters at one
      rw [state, (wired.unqueued task has).1, wired.unowed] at one
      cases one
    · exact .inr ⟨isHolder.trans isService, one⟩
  · intro other found
    have same : some other = some task := found.symm.trans has
    cases same
    rw [state]
    rfl

theorem Settled.step_settled {next : Calls} {event : Event}
    (guard : calls.Undisturbed client event) (taken : calls.step client event = some next) :
    next.Settled client := by
  cases event with
  | call hart serviceId bytes =>
    rw [step] at taken
    split_ifs at taken with ready
    cases taken
    exact settled.call_step ready.1 hart serviceId bytes
  | recv =>
    have returns : calls.sendFails client = false := by
      have both : (!calls.sendFails client && _) = true := guard
      rw [Bool.and_eq_true, Bool.not_eq_true'] at both
      exact both.1
    simp only [step, returns, Bool.false_eq_true, if_false] at taken
    split_ifs at taken with running
    cases phase : calls.phase with
    | idle => rw [phase] at taken; cases taken
    | sent =>
      rw [phase] at taken
      cases taken
      exact settled.enter_step running phase
    | receiving =>
      rw [phase] at taken
      cases taken
      exact settled.recv_step running guard phase
  | other =>
    rw [step] at taken
    split_ifs at taken with admitted
    cases taken
    exact settled.other_step admitted guard

end

end Client

theorem settled_start (client : TaskId) : start.Settled client := by
  have fresh : ∀ id task, start.kernel.tasks.get id = some task →
      task.state = .ready ∧ task.pendingMsgs = [] := by
    intro id task found
    obtain ⟨-, rfl⟩ := Core.Machine.initial_task found
    exact ⟨rfl, rfl⟩
  refine ⟨⟨?_, ?_, ?_, ?_, rfl⟩, ?_, fun _ mem => absurd mem not_mem_nil⟩
  · intro task found
    obtain ⟨ready, none⟩ := fresh client task found
    exact ⟨none, by rw [ready]; rfl⟩
  · intro id task message found sending
    rw [(fresh id task found).1] at sending
    cases sending
  · intro id task target message found sending
    rw [(fresh id task found).1] at sending
    cases sending
  · exact fun id owes => absurd rfl owes
  · intro id task found
    obtain ⟨ready, none⟩ := fresh id task found
    unfold Calls.tokens letters
    rw [ready, none]
    rfl

/-- Task 1 starts tasks 2 and 3, task 2 waits for requests as service 7, and task 1 calls it
and waits. -/
def waitingClient : List Event :=
  [.other 0 .dispatch, .other 0 (.spawn 0), .other 0 (.spawn 0), .other 0 (.register 7 2),
    .other 0 (.requeue 1), .other 0 .dispatch, .other 0 (.recv 2 0 respBuf),
    .other 0 .dispatch, .other 0 (.requeue 3), .other 0 .dispatch,
    .call 0 7 [1], .recv 0, .recv 0, .recv 0, .recv 0, .other 0 .dispatch]

def answeredCall : List Event :=
  waitingClient ++ [.other 0 (.requeue 3), .other 0 .dispatch, .other 0 (.send 2 1 ⟨1, .user, [5]⟩),
      .other 0 (.requeue 2), .other 0 .dispatch, .other 0 (.requeue 3), .other 0 .dispatch,
      .recv 0]

def interferedCall : List Event :=
  waitingClient ++ [.other 0 (.send 3 1 ⟨0, .user, [9]⟩), .other 0 (.requeue 3), .other 0 .dispatch,
      .other 0 (.requeue 2), .other 0 .dispatch, .recv 0]

end Calls

end ViCell.Ostd.ServiceRef

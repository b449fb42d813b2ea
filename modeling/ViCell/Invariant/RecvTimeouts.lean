import ViCell.Core.FieldChanges
import ViCell.Core.Notes

/-!
# What `RecvTimeout` returns

`Syscall::RecvTimeout` blocks in `Recv` with a deadline and, once it runs again,
returns the task's `current_caller`.  The sweep that ends the wait at its deadline
does not touch that field, so it still names whoever the task received from
before and has not replied to.
-/

namespace ViCell.Invariant.RecvTimeouts

open Lib Core.Tcb Core.Ready Core.State Core.Scheduler Core.Ipc Core.Handler Core.HotSwap
open Function List Option
open Core.Machine Core.Effects Core.Transitions Core.FieldChanges Core.FrameSteps Core.Notes

/-- What has happened to a task since it entered `RecvTimeout`. -/
structure Call where
  timedOut : Bool
  /-- Whose messages and death notices have reached it. -/
  delivered : List TaskId
  deriving DecidableEq

def freshCall : Call := ⟨false, []⟩

def Call.deliver (call : Call) (sender : TaskId) : Call :=
  { call with delivered := call.delivered ++ [sender] }

def woken (before after : Kernel) (id : TaskId) : Bool :=
  (before.tasks.get id).any (fun task => task.state.isRecv) &&
    (after.tasks.get id).any (fun task => task.state = .ready)

def recordFor (id : TaskId) (before : Kernel) (action : Action) (after : Kernel) (call : Call) :
    Call :=
  match action with
  | .send sender target _ =>
    if id = target ∧ woken before after id then call.deliver sender else call
  | .recv caller _ _ =>
    match findSender before.tasks caller with
    | some (sender, _) => if id = caller then call.deliver sender else call
    | none => call
  | .exit dead _ _ _ =>
    if id ∈ before.deathSubscribers dead ∧ id ∉ waitersOf before dead ∧
        woken before after id then call.deliver dead
    else call
  | .wakeDue => if woken before after id then { call with timedOut := true } else call
  | _ => call

def record (before : Kernel) (action : Action) (after : Kernel) (calls : TaskId → Call) :
    TaskId → Call :=
  fun id => recordFor id before action after (calls id)

def isRecvTimeout : Frame → Bool
  | .dispatch (.recvTimeout _ _ _) => true
  | _ => false

def opened (system : System) (event : Event) (calls : TaskId → Call) : TaskId → Call :=
  match event with
  | .proceed hart =>
    if isRecvTimeout (system.frames (system.kernel.current hart)) then
      update calls (system.kernel.current hart) freshCall
    else calls
  | _ => calls

def inCall : Frame → Bool
  | .armTimeout _ => true
  | .yielding .recvTimeout => true
  | .suspended .recvTimeout => true
  | _ => false

/-- `current_caller` names only what this call has received, and a call that has
been woken is not woken again. -/
structure Truthful (kernel : Kernel) (id : TaskId) (call : Call) : Prop where
  named : ∀ task sender, kernel.tasks.get id = some task → task.currentCaller = some sender →
    sender ∈ call.delivered
  settled : call.timedOut = true ∨ call.delivered ≠ [] →
    ∀ task, kernel.tasks.get id = some task → task.state.isRecv = false
  once : call.timedOut = true → call.delivered = []

section OneAction

variable {kernel : Kernel} {hart : HartId} {id : TaskId} {call : Call} {action : Action}

variable {after : Kernel}

theorem woken_spec {was : Kernel} (ended : woken was after id = true) :
    (∃ task, was.tasks.get id = some task ∧ task.state.isRecv = true) ∧
      ∃ task, after.tasks.get id = some task ∧ task.state = .ready := by
  simp only [woken, Bool.and_eq_true, Option.any_eq_true, decide_eq_true_eq] at ended
  exact ended

/-- The three ways in which an action changes the record of a call. -/
inductive Recorded (before after : Kernel) (id : TaskId) (action : Action) (call : Call) :
    Call → Prop
  | same : Recorded before after id action call call
  | delivered (sender : TaskId) (ended : woken before after id = true) :
      Recorded before after id action call (call.deliver sender)
  | timedOut (ended : woken before after id = true) :
      Recorded before after id action call { call with timedOut := true }

theorem recorded (foreign : ipcOwner action ≠ some id) (after : Kernel) :
    Recorded kernel after id action call (recordFor id kernel action after call) := by
  cases action with
  | send sender =>
    simp only [recordFor]
    split
    · rename_i reached
      exact .delivered sender reached.2
    · exact .same
  | recv =>
    simp only [recordFor]
    split
    · rw [if_neg]
      · exact .same
      · intro same
        exact foreign (congrArg some same.symm)
    · exact .same
  | exit dead =>
    simp only [recordFor]
    split
    · rename_i reached
      exact .delivered dead reached.2.2
    · exact .same
  | wakeDue =>
    simp only [recordFor]
    split
    · rename_i ended
      exact .timedOut ended
    · exact .same
  | _ => exact .same

theorem receiving_before (foreign : ipcOwner action ≠ some id) {after : Task}
    (found : (act kernel hart action).tasks.get id = some after)
    (receiving : after.state.isRecv = true) :
    ∃ task, kernel.tasks.get id = some task ∧ task.state.isRecv = true := by
  have notReady : after.state ≠ .ready := by
    intro same
    rw [same] at receiving
    cases receiving
  have notRunning : after.state ≠ .running := by
    intro same
    rw [same] at receiving
    cases receiving
  have notFrozen : after.state.isFrozen = false := by
    cases state : after.state <;> rw [state] at receiving <;> first | rfl | cases receiving
  rcases blocked_origin found notReady notRunning notFrozen with
    ⟨task, has, same, -⟩ | ⟨task, has, parks⟩
  · exact ⟨task, has, same ▸ receiving⟩
  · refine ⟨task, has, ?_⟩
    cases action with
    | recv => exact absurd (congrArg some parks.1.symm) foreign
    | arm =>
      obtain ⟨-, mask, buf, _, waits, -⟩ := parks
      rw [waits]
      rfl
    | send caller target msg | futexWait caller addr value observed | wait caller pid =>
      rw [parks.2.2] at receiving
      cases receiving
    | sleep caller wakeAt | awaitEvent caller mask deadline =>
      rw [parks.2] at receiving
      cases receiving
    | _ => exact parks.elim

variable {task : Task}

theorem notify_watcher_parked {dead named : TaskId} {reason count : Nat}
    (names : ((notifyWatcher dead reason)^[count] task).currentCaller = some named) :
    task.currentCaller = some named ∨ (named = dead ∧ 0 < count ∧ task.state.isRecv = true) := by
  induction count generalizing task with
  | zero => exact Or.inl names
  | succ count ih =>
    rw [iterate_succ_apply] at names
    by_cases parked : task.state.isRecv = true
    · rcases notify_watcher_caller names with first | ⟨same, -⟩
      · unfold notifyWatcher at first
        rw [if_pos parked] at first
        exact Or.inr ⟨(some.inj first).symm, Nat.succ_pos count, parked⟩
      · exact Or.inr ⟨same, Nat.succ_pos count, parked⟩
    · have unparked : notifyWatcher dead reason task =
          { task with pendingDeaths := task.pendingDeaths ++ [(dead, reason)] } := if_neg parked
      rw [unparked] at names
      rcases ih names with was | ⟨-, -, receiving⟩
      · exact Or.inl was
      · exact absurd receiving parked

theorem survivor_notified {dead named : TaskId} {reason : Nat}
    (names : (survivor kernel dead reason id task).currentCaller = some named) :
    task.currentCaller = some named ∨
      (named = dead ∧ id ∈ kernel.deathSubscribers dead ∧ id ∉ waitersOf kernel dead ∧
        task.state.isRecv = true) := by
  rcases survivor_caller names with ⟨kept, -⟩ | ⟨same, subscribed⟩
  · exact Or.inl kept
  · unfold survivor at names
    by_cases joined : id ∈ waitersOf kernel dead
    · rw [if_pos joined] at names
      rcases notify_watcher_parked names with was | ⟨-, -, receiving⟩
      · exact Or.inl (unblock_sender_caller was).1
      · cases receiving
    · rw [if_neg joined] at names
      rcases notify_watcher_parked names with was | ⟨-, -, receiving⟩
      · exact Or.inl (unblock_sender_caller was).1
      · right
        refine ⟨same, subscribed, joined, ?_⟩
        rw [unblock_sender_state] at receiving
        split at receiving
        · cases receiving
        · exact receiving

theorem woken_of {was : Kernel} {changed : Task} (found : was.tasks.get id = some task)
    (receiving : task.state.isRecv = true) (has : after.tasks.get id = some changed)
    (ready : changed.state = .ready) : woken was after id = true := by
  simp [woken, found, receiving, has, ready]

/-- A name in `current_caller` was there before someone else's action, or the
record of the call has it. -/
theorem caller_recorded (foreign : ipcOwner action ≠ some id) {after : Task} {sender : TaskId}
    (found : (act kernel hart action).tasks.get id = some after)
    (names : after.currentCaller = some sender) :
    (∃ task, kernel.tasks.get id = some task ∧ task.currentCaller = some sender) ∨
      sender ∈ (recordFor id kernel action (act kernel hart action) call).delivered := by
  rcases act_caller found names with ⟨task, has, kept, -⟩ | sets
  · exact Or.inl ⟨task, has, kept⟩
  · cases action with
    | send caller target msg =>
      obtain ⟨rfl, rfl⟩ := sets
      rcases act_origin found with ⟨task, has, change⟩ | ⟨cellId, spawns, -⟩
      · cases change with
        | same => exact Or.inl ⟨_, has, names⟩
        | buffered => exact Or.inl ⟨task, has, names⟩
        | blocked => exact Or.inl ⟨task, has, names⟩
        | delivered _ msg receiving =>
          have ended : woken kernel (act kernel hart (.send sender id msg)) id = true :=
            woken_of has receiving found rfl
          simp only [recordFor, ended, and_self, if_true, Call.deliver, mem_append,
            mem_singleton, or_true]
      · cases spawns
    | exit _ reason code cause =>
      obtain ⟨rfl, -⟩ := sets
      rcases act_origin found with ⟨task, has, change⟩ | ⟨cellId, spawns, -⟩
      · cases change with
        | same _ stays => exact absurd trivial stays
        | survived _ reason code cause =>
          rcases survivor_notified names with kept | ⟨-, subscribed, alone, receiving⟩
          · exact Or.inl ⟨task, has, kept⟩
          · have wakes : WokenByExit kernel sender id task :=
              Or.inr (Or.inr ⟨subscribed, receiving⟩)
            have ended : woken kernel (act kernel hart (.exit sender reason code cause)) id =
                true := by
              apply woken_of has receiving found
              rw [survivor_state, if_pos wakes]
            simp only [recordFor, subscribed, alone, ended, not_false_eq_true, and_self,
              if_true, Call.deliver, mem_append, mem_singleton, or_true]
      · cases spawns
    | acceptPending caller sender | recv caller mask buf | tryRecv caller buf =>
      exact absurd (congrArg some sets.1.symm) foreign
    | _ => exact sets.elim

theorem truthful_recorded {next : Call} (holds : Truthful kernel id call)
    (change : Recorded kernel after id action call next)
    (origin : ∀ task sender, after.tasks.get id = some task → task.currentCaller = some sender →
      (∃ was, kernel.tasks.get id = some was ∧ was.currentCaller = some sender) ∨
        sender ∈ next.delivered)
    (waited : ∀ task, after.tasks.get id = some task → task.state.isRecv = true →
      ∃ was, kernel.tasks.get id = some was ∧ was.state.isRecv = true) :
    Truthful after id next := by
  -- A wait that this action ends was not ended before.
  have unsettled : woken kernel after id = true → ¬ (call.timedOut = true ∨ call.delivered ≠ []) := by
    intro ended noted
    obtain ⟨⟨task, has, receiving⟩, -⟩ := woken_spec ended
    rw [holds.settled noted task has] at receiving
    cases receiving
  have readied : woken kernel after id = true →
      ∀ task, after.tasks.get id = some task → task.state.isRecv = false := by
    intro ended task found
    obtain ⟨-, _, located, ready⟩ := woken_spec ended
    rw [located] at found
    cases found
    rw [ready]
    rfl
  have stays : (call.timedOut = true ∨ call.delivered ≠ []) →
      ∀ task, after.tasks.get id = some task → task.state.isRecv = false := by
    intro noted task found
    by_contra receiving
    obtain ⟨was, has, receivedBefore⟩ := waited task found ((Bool.not_eq_false _).mp receiving)
    rw [holds.settled noted was has] at receivedBefore
    cases receivedBefore
  cases change with
  | same =>
    refine ⟨?_, stays, holds.once⟩
    intro task sender found names
    rcases origin task sender found names with ⟨was, has, kept⟩ | noted
    · exact holds.named was sender has kept
    · exact noted
  | delivered _ ended =>
    refine ⟨?_, fun _ => readied ended, ?_⟩
    · intro task sender found names
      rcases origin task sender found names with ⟨was, has, kept⟩ | noted
      · exact mem_append_left _ (holds.named was sender has kept)
      · exact noted
    · intro timed
      exact absurd (Or.inl timed) (unsettled ended)
  | timedOut ended =>
    refine ⟨?_, fun _ => readied ended, ?_⟩
    · intro task sender found names
      rcases origin task sender found names with ⟨was, has, kept⟩ | noted
      · exact holds.named was sender has kept
      · exact noted
    · intro _
      by_contra delivered
      exact unsettled ended (Or.inr delivered)

theorem truthful_act (foreign : ipcOwner action ≠ some id) (holds : Truthful kernel id call) :
    Truthful (act kernel hart action) id
      (recordFor id kernel action (act kernel hart action) call) := by
  apply truthful_recorded holds (recorded foreign (act kernel hart action))
  · intro task sender found names
    exact caller_recorded foreign found names
  · intro task found receiving
    exact receiving_before foreign found receiving

end OneAction

/-- A task that blocks in `RecvTimeout` names no earlier sender. -/
def CallerCleared (system : System) : Event → Prop
  | .proceed hart =>
    isRecvTimeout (system.frames (system.kernel.current hart)) = true →
      (system.kernel.tasks.get (system.kernel.current hart)).bind Task.currentCaller = none ∨
        (findSender system.kernel.tasks (system.kernel.current hart)).isSome = true
  | _ => True

instance (system : System) (event : Event) : Decidable (CallerCleared system event) := by
  unfold CallerCleared
  split <;> infer_instance

abbrev Observed := Noted (TaskId → Call)

def start : Observed := ⟨initial, fun _ => freshCall⟩

def watch : Observed → Event → Option Observed := notedStep opened record

structure CallsTruthful (current : Observed) : Prop where
  zeroFree : ZeroFree current.system.kernel
  truthful : ∀ id, inCall (current.system.frames id) = true →
    Truthful current.system.kernel id (current.note id)

variable {id : TaskId}

theorem truthful_core {left right : Kernel} {call : Call} (same : SameCore left right)
    (holds : Truthful left id call) : Truthful right id call := by
  constructor
  · rw [same.tasks]
    exact holds.named
  · rw [same.tasks]
    exact holds.settled
  · exact holds.once

theorem note_acts_for (id : TaskId) (hart : HartId) (kernel : Kernel) (actions : List Action)
    (calls : TaskId → Call) :
    noteActs record hart kernel actions calls id =
      noteActs (recordFor id) hart kernel actions (calls id) := by
  induction actions generalizing kernel calls with
  | nil => rfl
  | cons action rest ih => exact ih (act kernel hart action) _

variable {event : Event}

theorem in_call_foreign {system : System} {action : Action}
    (inside : inCall (system.frames id) = true) (mem : action ∈ (actionsOf system event).2) :
    ipcOwner action ≠ some id := by
  intro owned
  obtain ⟨_, -, -, same⟩ := ipc_owner_source mem owned
  cases frame : system.frames id with
  | armTimeout =>
    rw [same, frame] at owned
    cases owned
  | yielding resume | suspended resume =>
    rw [frame] at inside
    cases resume <;> cases inside
    rw [same, frame] at owned
    cases owned
  | _ =>
    rw [frame] at inside
    cases inside

theorem truthful_kept {current : Observed} {after : System} (holds : CallsTruthful current)
    (ran : step current.system event = some after)
    (inside : inCall (current.system.frames id) = true)
    (unopened : opened current.system event current.note id = current.note id) :
    Truthful after.kernel id
      (noteActs record (actionsOf current.system event).1 current.system.kernel
        (actionsOf current.system event).2 (opened current.system event current.note) id) := by
  rw [note_acts_for, unopened]
  apply truthful_core (step_acts ran)
  have met : ActsMeet (fun _ _ _ => True) current.system.kernel
      (actionsOf current.system event).1 (actionsOf current.system event).2 :=
    acts_meet_always _ (fun _ _ _ => trivial)
  refine note_acts_invariant (fun kernel call => Truthful kernel id call) ?_
    (holds.truthful id inside) met
  intro kernel action call mem truthful _
  exact truthful_act (in_call_foreign inside mem) truthful

variable {kernel : Kernel} {mask : Nat}

theorem truthful_parked {hart : HartId} {buf : Buffer} (alone : findSender kernel.tasks id = none)
    (cleared : (kernel.tasks.get id).bind Task.currentCaller = none) :
    Truthful (act kernel hart (.recv id mask buf)) id freshCall := by
  constructor
  · intro task sender found names
    simp only [act, ipcRecv, alone, setState, modifyTask, IdTable.get_modify, if_true,
      map_eq_some_iff] at found
    obtain ⟨was, has, rfl⟩ := found
    rw [has] at cleared
    have none : was.currentCaller = none := cleared
    have some : was.currentCaller = some sender := names
    rw [none] at some
    cases some
  · intro noted
    rcases noted with timed | delivered
    · cases timed
    · exact absurd rfl delivered
  · intro _
    rfl

theorem opened_elsewhere {system : System} (calls : TaskId → Call)
    (inside : isRecvTimeout (system.frames id) = false) :
    opened system event calls id = calls id := by
  cases event with
  | proceed =>
    simp only [opened]
    split
    · rename_i opens
      rw [update_of_ne]
      rintro rfl
      rw [inside] at opens
      cases opens
    · rfl
  | _ => rfl

variable {frame : Frame}

theorem not_opening (inside : inCall frame = true) : isRecvTimeout frame = false := by
  cases frame <;> first | rfl | cases inside

theorem recv_timeout_enters (hart : HartId) {deadline : Nat} {buf : UserBuffer}
    (zeroFree : ZeroFree kernel) :
    (∃ sender msg, findSender kernel.tasks id = some (sender, msg) ∧
        (advance kernel hart id (.dispatch (.recvTimeout mask buf deadline))).2 = .user ∧
        ∃ bytes, (advance kernel hart id
          (.dispatch (.recvTimeout mask buf deadline))).1.log.head? =
            some (.recvReturned id sender bytes)) ∨
      (findSender kernel.tasks id = none ∧
        (advance kernel hart id (.dispatch (.recvTimeout mask buf deadline))).2 =
          .armTimeout deadline) := by
  have sameTasks : (openRecv kernel id buf.bytes).tasks = kernel.tasks := rfl
  simp only [advance, enterSyscall, recvTimeoutCall, ipcRecv, sameTasks]
  cases waiting : findSender kernel.tasks id with
  | none => exact Or.inr ⟨rfl, rfl⟩
  | some pair =>
    obtain ⟨sender, msg⟩ := pair
    obtain ⟨_, has, -⟩ := find_sender_some waiting
    have named : sender ≠ 0 := by
      rintro rfl
      rw [zeroFree.1] at has
      cases has
    simp only [if_neg named]
    exact Or.inl ⟨sender, msg, rfl, rfl, _, rfl⟩

theorem follows_in_call {caller : TaskId} {next : Frame}
    (follows : Follows kernel caller frame next) (inside : inCall next = true) :
    inCall frame = true ∨ ∃ mask buf deadline,
      frame = .dispatch (.recvTimeout mask buf deadline) ∧ next = .armTimeout deadline := by
  cases follows with
  | entered _ _ enters =>
    cases enters with
    | recvTimeout mask buf deadline => exact Or.inr ⟨mask, buf, deadline, rfl, rfl⟩
    | _ => cases inside
  | armed => exact Or.inl rfl
  | switched resume => exact Or.inl (by cases resume <;> first | rfl | cases inside)
  | vanished job tid | unrelocatable job tid =>
    simp only [afterFailure] at inside
    split at inside <;> cases inside
  | granted =>
    simp only [afterGrant] at inside
    split at inside <;> cases inside
  | _ => cases inside

theorem truthful_entered {was : System} {hart : HartId} {deadline : Nat} {buf : UserBuffer}
    {after : System} (calls : TaskId → Call) (zeroFree : ZeroFree was.kernel)
    (cleared : CallerCleared was (.proceed hart))
    (ran : step was (.proceed hart) = some after) (runs : was.kernel.current hart = id)
    (frame : was.frames id = .dispatch (.recvTimeout mask buf deadline))
    (parks : (advance was.kernel hart id (was.frames id)).2 = .armTimeout deadline) :
    Truthful after.kernel id (noteActs record hart was.kernel
      (actionsOf was (.proceed hart)).2 (opened was (.proceed hart) calls) id) := by
  subst runs
  have opening : isRecvTimeout (was.frames (was.kernel.current hart)) = true := by
    rw [frame]
    rfl
  have alone : findSender was.kernel.tasks (was.kernel.current hart) = none := by
    rw [frame] at parks
    rcases recv_timeout_enters hart zeroFree with ⟨sender, msg, -, returns, -⟩ | ⟨alone, -⟩
    · rw [parks] at returns
      cases returns
    · exact alone
  have named := (cleared opening).resolve_right (by rw [alone]; exact Bool.false_ne_true)
  have acts : (actionsOf was (.proceed hart)).2 =
      [.recv (was.kernel.current hart) mask ⟨.user, buf.bytes.length⟩] := by
    simp only [actionsOf, frame]
    rfl
  have same := step_acts ran
  rw [acts] at same ⊢
  apply truthful_core same
  have fresh : opened was (.proceed hart) calls (was.kernel.current hart) = freshCall := by
    simp only [opened, opening, if_true, update_self]
  simp only [noteActs, record, recordFor, alone, fresh]
  exact truthful_parked alone named

theorem calls_truthful_step {was after : Observed} (holds : CallsTruthful was)
    (cleared : CallerCleared was.system event) (ran : watch was event = some after) :
    CallsTruthful after := by
  obtain ⟨taken, noted⟩ := noted_step_eq ran
  constructor
  · have kept : ZeroFree (actAll was.system.kernel (actionsOf was.system event).1
        (actionsOf was.system event).2) :=
      act_all_preserved
        (fun (current : Kernel) action (free : ZeroFree current) => act_zero_free free action) _
        holds.zeroFree
    unfold ZeroFree at kept ⊢
    rwa [(step_acts taken).tasks]
  · intro id inside
    rw [noted]
    have kept := fun already : inCall (was.system.frames id) = true =>
      truthful_kept holds taken already (opened_elsewhere _ (not_opening already))
    rcases frame_step taken id with same | ⟨hart, call, -, -, now⟩ | ⟨hart, rfl, runs, busy, moved⟩
    · exact kept (same ▸ inside)
    · rw [now] at inside
      cases inside
    · have next : after.system.frames id =
          (advance was.system.kernel hart id (was.system.frames id)).2 := by
        rw [moved]
        exact update_self _ _ _
      rw [next] at inside
      rcases follows_in_call (advance_follows was.system.kernel hart id busy) inside with
        already | ⟨mask, buf, deadline, frame, parks⟩
      · exact kept already
      · exact truthful_entered was.note holds.zeroFree cleared taken
          (executing_live runs).1 frame parks

theorem calls_truthful_start : CallsTruthful start := by
  constructor
  · exact ⟨rfl, Nat.succ_pos _⟩
  · intro id inside
    cases inside

theorem recv_timeout_frame (opening : isRecvTimeout frame = true) :
    ∃ mask buf deadline, frame = .dispatch (.recvTimeout mask buf deadline) := by
  unfold isRecvTimeout at opening
  split at opening
  · exact ⟨_, _, _, rfl⟩
  · cases opening

def Returns (before : System) (hart : HartId) (id : TaskId) (after : System) (value : Nat) :
    Prop :=
  executing before hart = some id ∧
    (isRecvTimeout (before.frames id) = true ∨ before.frames id = .suspended .recvTimeout) ∧
    after.frames id = .user ∧
    ∃ bytes, after.kernel.log.head? = some (.recvReturned id value bytes)

/-- In a run where no task blocks in `RecvTimeout` while it still names an earlier
sender, the call returns 0 when its deadline ended it, and a sender only when that
sender's message or death notice reached it during the call. -/
theorem recv_timeout_result {before after : Observed} {hart : HartId} {id : TaskId} {value : Nat}
    (reached : Reaches watch (fun current => CallerCleared current.system) start before)
    (stepped : watch before (.proceed hart) = some after)
    (returns : Returns before.system hart id after.system value) :
    ((after.note id).timedOut = true → value = 0) ∧
      (value ≠ 0 → value ∈ (after.note id).delivered) := by
  have holds := reached.invariant (fun _ _ _ => calls_truthful_step) calls_truthful_start
  obtain ⟨taken, noted⟩ := noted_step_eq stepped
  obtain ⟨runs, inside, returned, _, logged⟩ := returns
  obtain ⟨current, -, task, present⟩ := executing_live runs
  have moved : after.system =
      enter before.system id (advance before.system.kernel hart id (before.system.frames id)) := by
    simp only [step, runs] at taken
    split at taken
    · cases taken
    · exact (some.inj taken).symm
  rcases inside with opening | frame
  · obtain ⟨_, _, deadline, frame⟩ := recv_timeout_frame opening
    rw [moved, frame] at returned logged
    simp only [enter, update_self] at returned logged
    rcases recv_timeout_enters hart holds.zeroFree with
      ⟨sender, message, waiting, -, read, copied⟩ | ⟨-, parks⟩
    · rw [copied] at logged
      cases logged
      have delivered : after.note id = freshCall.deliver value := by
        rw [noted, note_acts_for]
        simp only [actionsOf, current, frame, frameActions, frameAction, entryAction, noteActs,
          recordFor, waiting, if_true, opened, isRecvTimeout, update_self]
      rw [delivered]
      exact ⟨fun timed => (Bool.false_ne_true timed).elim, fun _ => mem_singleton.mpr rfl⟩
    · rw [parks] at returned
      cases returned
  · have kept : after.note id = before.note id := by
      rw [noted, note_acts_for]
      simp only [actionsOf, current, frame, frameActions, frameAction, noteActs, recordFor,
        opened, isRecvTimeout, Bool.false_eq_true, if_false]
    have truthful := holds.truthful id (by rw [frame]; rfl)
    rw [moved, frame] at logged
    have result : value = task.currentCaller.getD 0 := by
      simp only [enter, advance, resumeSyscall, returnRecv, observe, head?_cons,
        present, bind_some, some.injEq, Observation.recvReturned.injEq] at logged
      exact logged.2.1.symm
    rw [kept, result]
    cases names : task.currentCaller with
    | none => exact ⟨fun _ => rfl, fun nonzero => absurd rfl nonzero⟩
    | some sender =>
      have received := truthful.named task sender present names
      refine ⟨fun timed => ?_, fun _ => received⟩
      rw [truthful.once timed] at received
      cases received

def runSecond : List Event :=
  [.idle 0] ++ callFor 0 .spawn 1 ++ [.idle 1]

/-- Task 2 blocks in `RecvTimeout`, and `init` sends to it. -/
def answered : Observed :=
  finalState watch start (runSecond ++ callFor 1 (.recvTimeout 0 ⟨16, [0, 0]⟩ 5) 3 ++
    callFor 0 (.send 2 [7]) 1 ++ [.idle 1])

theorem answered_in_time : 1 ∈ ((finalState watch answered [.proceed 1]).note 2).delivered := by
  have reached : Reaches watch (fun current => CallerCleared current.system) start answered :=
    reaches_final (by decide +kernel) (by decide +kernel)
  have stepped : watch answered (.proceed 1) = some (finalState watch answered [.proceed 1]) :=
    step_final (by decide +kernel)
  have returns : Returns answered.system 1 2 (finalState watch answered [.proceed 1]).system 1 :=
    ⟨by decide +kernel, Or.inr (by decide +kernel), by decide +kernel, [7, 0], by decide +kernel⟩
  exact (recv_timeout_result reached stepped returns).2 one_ne_zero

/-- Task 2 takes a message of `init` with `Recv` and does not reply.  Its next
`RecvTimeout` runs out and returns the id of `init`. -/
theorem timeout_returns_earlier_sender :
    (runEvents watch start (runSecond ++ callFor 1 (.recv 0 ⟨16, [0, 0]⟩) 4 ++
        callFor 0 (.send 2 [7]) 1 ++ [.idle 1, .proceed 1] ++
        callFor 1 (.recvTimeout 0 ⟨16, [0, 0]⟩ 1) 3 ++ [.timer 0, .proceed 0])).map
      (fun current => (current.note 2, current.system.kernel.log.head?)) =
    some (⟨true, []⟩, some (.recvReturned 2 1 [0, 0])) := by
  decide +kernel

end ViCell.Invariant.RecvTimeouts

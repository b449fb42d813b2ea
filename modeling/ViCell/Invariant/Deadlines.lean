import ViCell.Core.Machine
import ViCell.Lib.Runs

/-!
# Timeouts are relative, deadlines are not

`SetTimer`, `RecvTimeout`, `WaitForEvent` and `Heartbeat` take a number of ticks and
store the tick count at which the sweep of `pick_next` may act.  The addition wraps
at 64 bits, and the sweep compares the wrapped deadline with the tick counter.
-/

namespace ViCell.Invariant.Deadlines

open Lib Core.Tcb Core.Ready Core.State Core.Scheduler Core.Ipc Core.Handler Core.Machine
open Option IdTable

/-- The calls with a timeout, as the cell makes them. -/
inductive TimedCall
  | setTimer (delay : Nat)
  | recvTimeout (mask : Nat) (buffer : UserBuffer) (timeout : Nat)
  | waitForEvent (mask timeout : Nat)
  | heartbeat (interval : Nat)

def TimedCall.timeout : TimedCall → Nat
  | .setTimer delay => delay
  | .recvTimeout _ _ timeout => timeout
  | .waitForEvent _ timeout => timeout
  | .heartbeat interval => interval

/-- `map_syscall` makes two of the timeouts absolute, the handlers the others. -/
def mapSyscall (ticks : Nat) : TimedCall → Syscall
  | .setTimer delay => .setTimer delay
  | .recvTimeout mask buffer timeout => .recvTimeout mask buffer (tickAdd ticks timeout)
  | .waitForEvent mask timeout =>
    .waitForEvent mask (if timeout = 0 then none else some (tickAdd ticks timeout))
  | .heartbeat interval => .heartbeat interval

def arm (kernel : Kernel) (hart : HartId) (caller : TaskId) (call : TimedCall) : Kernel :=
  let entered := advance kernel hart caller (.dispatch (mapSyscall kernel.ticks call))
  match entered.2 with
  | .armTimeout deadline => (advance entered.1 hart caller (.armTimeout deadline)).1
  | _ => entered.1

def Blocks (kernel : Kernel) (caller : TaskId) : TimedCall → Prop
  | .recvTimeout _ _ _ => findSender kernel.tasks caller = none
  | .waitForEvent mask _ => (consumePending mask kernel.netRxPending).1 = 0
  | _ => True

/-- The sweep at tick `now`, with no event pending, ends the wait or kills the task. -/
def expires (call : TimedCall) (now : Nat) (task : Task) : Bool :=
  match call with
  | .heartbeat _ => task.heartbeatDeadline.any (fun due => due ≤ now)
  | _ => (sweepTask now false task).isSome

/-- The deadline a call leaves behind; a timeout of 0 means none for two of them. -/
def TimedCall.deadline (ticks : Nat) : TimedCall → Option Nat
  | .setTimer delay => some (tickAdd ticks delay)
  | .recvTimeout _ _ timeout => some (tickAdd ticks timeout)
  | .waitForEvent _ timeout => if timeout = 0 then none else some (tickAdd ticks timeout)
  | .heartbeat interval => if interval = 0 then none else some (tickAdd ticks interval)

def armed (ticks : Nat) (task : Task) : TimedCall → Task
  | .setTimer delay => { task with state := .sleeping (tickAdd ticks delay) }
  | .recvTimeout mask buffer timeout =>
    { task with
      state := .recv mask ⟨.user, buffer.bytes.length⟩ (some (tickAdd ticks timeout)) }
  | .waitForEvent mask timeout =>
    { task with state := .waitEvent mask (if timeout = 0 then none else some (tickAdd ticks timeout)) }
  | .heartbeat interval =>
    { task with
      heartbeatDeadline := if interval = 0 then none else some (tickAdd ticks interval) }

theorem arm_get {kernel : Kernel} {hart : HartId} {caller : TaskId} {task : Task}
    {call : TimedCall} (has : kernel.tasks.get caller = some task)
    (blocks : Blocks kernel caller call) :
    (arm kernel hart caller call).tasks.get caller = some (armed kernel.ticks task call) := by
  cases call with
  | setTimer =>
    simp only [arm, advance, mapSyscall, enterSyscall, setState, modifyTask, get_modify,
      if_true, has, map_some, armed]
  | recvTimeout =>
    have alone : findSender kernel.tasks caller = none := blocks
    simp only [arm, advance, mapSyscall, enterSyscall, recvTimeoutCall, ipcRecv, openRecv, alone,
      if_true, setState, modifyTask, get_modify, has, map_some,
      installDeadline, armed]
  | waitForEvent mask =>
    have quiet : (consumePending mask kernel.netRxPending).1 = 0 := blocks
    simp only [arm, advance, mapSyscall, enterSyscall, waitForEventCall, quiet, ne_eq,
      not_true_eq_false, if_false, setState, modifyTask, get_modify, if_true, has,
      map_some, armed]
  | heartbeat =>
    simp only [arm, advance, mapSyscall, enterSyscall, modifyTask, get_modify, if_true,
      has, map_some, armed]

theorem expires_iff (call : TimedCall) (ticks now : Nat) (task : Task) :
    expires call now (armed ticks task call) = true ↔
      ∃ due, call.deadline ticks = some due ∧ due ≤ now := by
  cases call with
  | setTimer delay | recvTimeout mask buf timeout =>
    simp only [expires, armed, sweepTask, TimedCall.deadline]
    split <;> simp [*]
  | waitForEvent _ timeout =>
    by_cases zero : timeout = 0
    all_goals simp [expires, armed, sweepTask, consumePending, TimedCall.deadline, zero]
  | heartbeat interval =>
    by_cases zero : interval = 0
    all_goals simp [expires, armed, TimedCall.deadline, zero]

/-- A wrapped deadline keeps its distance from the tick counter exactly if nothing wrapped. -/
theorem due_after_iff {ticks timeout : Nat} (clock : ticks < 2 ^ 64) (word : timeout < 2 ^ 64) :
    (∀ elapsed, tickAdd ticks timeout ≤ tickAdd ticks elapsed → timeout ≤ elapsed) ↔
      ticks + timeout < 2 ^ 64 := by
  unfold tickAdd
  constructor
  · intro late
    by_contra wraps
    have atOnce := late 0 (by omega)
    omega
  · intro fits elapsed due
    by_contra early
    omega

theorem deadline_eq (call : TimedCall) (ticks : Nat) :
    call.deadline ticks = some (tickAdd ticks call.timeout) ∨
      (call.deadline ticks = none ∧ call.timeout = 0) := by
  cases call with
  | setTimer delay | recvTimeout mask buf timeout => exact Or.inl rfl
  | waitForEvent _ timeout =>
    by_cases zero : timeout = 0
    · exact Or.inr ⟨if_pos zero, zero⟩
    · exact Or.inl (if_neg zero)
  | heartbeat interval =>
    by_cases zero : interval = 0
    · exact Or.inr ⟨if_pos zero, zero⟩
    · exact Or.inl (if_neg zero)

/-- Whatever the tick count and the timeout, the sweep leaves the task alone for that
many ticks exactly if the sum of the two fits into 64 bits. -/
theorem expires_late_iff {kernel : Kernel} {hart : HartId} {caller : TaskId} {task : Task}
    {call : TimedCall} (clock : kernel.ticks < 2 ^ 64) (word : call.timeout < 2 ^ 64)
    (present : kernel.tasks.get caller = some task) (blocks : Blocks kernel caller call) :
    (∀ elapsed blocked, (arm kernel hart caller call).tasks.get caller = some blocked →
      expires call (tickAdd kernel.ticks elapsed) blocked = true → call.timeout ≤ elapsed) ↔
      kernel.ticks + call.timeout < 2 ^ 64 := by
  rw [← due_after_iff clock word, arm_get present blocks]
  rcases deadline_eq call kernel.ticks with due | ⟨never, zero⟩
  · constructor
    · intro late elapsed reached
      exact late elapsed _ rfl ((expires_iff _ _ _ _).mpr ⟨_, due, reached⟩)
    · intro late elapsed blocked same ended
      cases same
      obtain ⟨_, isDue, reached⟩ := (expires_iff _ _ _ _).mp ended
      rw [due] at isDue
      cases isDue
      exact late elapsed reached
  · rw [zero]
    exact ⟨fun _ _ _ => Nat.zero_le _, fun _ _ _ _ _ => Nat.zero_le _⟩

def afterTicks (count : Nat) : Kernel :=
  (finalState step initial (.idle 0 :: List.replicate count (.timer 0))).kernel

theorem longest_timer_at_boot : (afterTicks 0).tasks.get 1 ≠ none ∧
      ∀ elapsed blocked, (arm (afterTicks 0) 0 1 (.setTimer usizeMax)).tasks.get 1 = some blocked →
        expires (.setTimer usizeMax) (tickAdd (afterTicks 0).ticks elapsed) blocked = true →
        usizeMax ≤ elapsed := by
  have present : (afterTicks 0).tasks.get 1 ≠ none := by decide +kernel
  obtain ⟨task, found⟩ := ne_none_iff_exists'.mp present
  have late := @expires_late_iff (afterTicks 0) 0 1 task (.setTimer usizeMax) (by decide +kernel)
    (by decide) found trivial
  exact ⟨present, late.mpr (by decide +kernel)⟩

/-- One tick after boot the longest timeout of each call has run out at once. -/
theorem longest_timeouts_expire_at_once :
    [TimedCall.setTimer usizeMax, .recvTimeout 0 ⟨16, [0]⟩ usizeMax, .waitForEvent 1 usizeMax,
        .heartbeat usizeMax].map (fun call =>
      ((arm (afterTicks 1) 0 1 call).tasks.get 1).map (expires call (afterTicks 1).ticks)) =
      List.replicate 4 (some true) := by
  decide +kernel

end ViCell.Invariant.Deadlines

import ViCell.Core.Scheduler
import ViCell.Lib.Runs

/-!
# Interrupt signals and the tasks that wait for them

`task/waker.rs` keeps one flag for received packets.  `WaitForEvent` looks at the flag
before it takes the scheduler lock and parks the task, and the sweep of `pick_next`
looks at it again for every parked task.  Interrupts may come between any two of these
steps, also between two tasks of one sweep.  Each signal gets a number here, and
`place` says what has become of it.
-/

namespace ViCell.Invariant.EventWaits

open Lib Core.Tcb Core.Scheduler Function IdTable

inductive Phase
  | user
  /-- It has found nothing pending and is about to park. -/
  | checked (mask : Nat) (deadline : Option Nat)
  | parked
  deriving DecidableEq

inductive Place
  | pending
  /-- The sweep has woken this task for it. -/
  | woken (id : TaskId)
  /-- The return value with this index reports it. -/
  | reported (index : Nat)
  deriving DecidableEq

structure Waits where
  tasks : IdTable Task
  netRxPending : Bool
  ticks : Nat
  phase : TaskId → Phase
  signals : Nat
  place : Nat → Place
  reports : List Nat

inductive Event
  | signal
  | tick
  | check (id : TaskId) (mask : Nat) (deadline : Option Nat)
  | park (id : TaskId)
  /-- The part of a sweep that is about one task. -/
  | sweep (id : TaskId)
  | resume (id : TaskId)

def moved (source target : Place) (place : Nat → Place) (signal : Nat) : Place :=
  if place signal = source then target else place signal

def isWaitEvent : TaskState → Bool
  | .waitEvent _ _ => true
  | _ => false

def step (waits : Waits) : Event → Option Waits
  | .signal =>
    some { waits with
      netRxPending := true
      signals := waits.signals + 1
      place := update waits.place waits.signals .pending }
  | .tick => some { waits with ticks := tickAdd waits.ticks 1 }
  | .check id mask deadline =>
    if waits.phase id = .user ∧ (waits.tasks.get id).isSome then
      let fired := consumePending mask waits.netRxPending
      if fired.1 ≠ 0 then
        some { waits with
          netRxPending := fired.2
          place := moved .pending (.reported waits.reports.length) waits.place
          reports := waits.reports ++ [fired.1] }
      else some { waits with phase := update waits.phase id (.checked mask deadline) }
    else none
  | .park id =>
    match waits.phase id, waits.tasks.get id with
    | .checked mask deadline, some _ =>
      some { waits with
        tasks := waits.tasks.modify id (fun task => { task with state := .waitEvent mask deadline })
        phase := update waits.phase id .parked }
    | _, _ => none
  | .sweep id =>
    match (waits.tasks.get id).bind (sweepTask waits.ticks waits.netRxPending) with
    | none => some waits
    | some result =>
      some { waits with
        tasks := waits.tasks.modify id (fun _ => result.1)
        netRxPending := result.2
        place :=
          if waits.netRxPending && !result.2 then moved .pending (.woken id) waits.place
          else waits.place }
  | .resume id =>
    match waits.phase id, waits.tasks.get id with
    | .parked, some task =>
      if task.state = .ready then
        some { waits with
          phase := update waits.phase id .user
          place := moved (.woken id) (.reported waits.reports.length) waits.place
          reports := waits.reports ++ [task.a0] }
      else none
    | _, _ => none

/-- The signal is still pending, or its waiter is on the way back with it, or it is
reported. -/
def Kept (waits : Waits) : Place → Prop
  | .pending => waits.netRxPending = true
  | .woken id => waits.phase id = .parked ∧
      ∃ task, waits.tasks.get id = some task ∧ task.state = .ready ∧ task.a0 = eventNetRx
  | .reported index => waits.reports[index]? = some eventNetRx

def At (signals : Nat) (place : Nat → Place) (here : Place) : Prop :=
  ∃ signal < signals, place signal = here

/-- What a task's control block says fits to the signals it was woken for. -/
inductive Fits (held : Prop) : Phase → Option Task → Prop
  | outside (phase : Phase) (entry : Option Task) (away : phase ≠ .parked) (free : ¬ held)
      (idle : ∀ task, entry = some task → isWaitEvent task.state = false) : Fits held phase entry
  | waiting (task : Task) (waits : isWaitEvent task.state = true) (free : ¬ held) :
      Fits held .parked (some task)
  | timedOut (task : Task) (ready : task.state = .ready) (zero : task.a0 = 0) (free : ¬ held) :
      Fits held .parked (some task)
  | fired (task : Task) (ready : task.state = .ready) (event : task.a0 = eventNetRx)
      (holds : held) : Fits held .parked (some task)

structure Sound (waits : Waits) : Prop where
  flag : waits.netRxPending = true ↔ At waits.signals waits.place .pending
  fits : ∀ id, Fits (At waits.signals waits.place (.woken id)) (waits.phase id)
    (waits.tasks.get id)
  signalled : ∀ index value, waits.reports[index]? = some value → value ≠ 0 →
    value = eventNetRx ∧ At waits.signals waits.place (.reported index)
  reported : ∀ index, At waits.signals waits.place (.reported index) →
    waits.reports[index]? = some eventNetRx

section Places

variable {signals : Nat} {place : Nat → Place} {source target here : Place}

theorem at_moved : At signals (moved source target place) here ↔
    (At signals place here ∧ here ≠ source) ∨ (here = target ∧ At signals place source) := by
  unfold At moved
  constructor
  · rintro ⟨signal, bound, there⟩
    split at there
    · rename_i was
      exact Or.inr ⟨there.symm, signal, bound, was⟩
    · rename_i stays
      exact Or.inl ⟨⟨signal, bound, there⟩, there ▸ stays⟩
  · rintro (⟨⟨signal, bound, there⟩, other⟩ | ⟨rfl, signal, bound, there⟩)
    · exact ⟨signal, bound, by rw [if_neg (there ▸ other), there]⟩
    · exact ⟨signal, bound, if_pos there⟩

theorem at_signalled : At (signals + 1) (update place signals .pending) here ↔
    At signals place here ∨ here = .pending := by
  constructor
  · rintro ⟨signal, bound, there⟩
    by_cases last : signal = signals
    · rw [last, update_self] at there
      exact Or.inr there.symm
    · rw [update_of_ne last] at there
      exact Or.inl ⟨signal, by omega, there⟩
  · rintro (⟨signal, bound, there⟩ | rfl)
    · refine ⟨signal, Nat.lt_succ_of_lt bound, ?_⟩
      rw [update_of_ne (Nat.ne_of_lt bound), there]
    · exact ⟨signals, Nat.lt_succ_self _, update_self _ _ _⟩

end Places

section Steps

variable {waits : Waits} {id : TaskId}

theorem Fits.congr {held other : Prop} {phase : Phase} {entry : Option Task}
    (fits : Fits held phase entry) (same : held ↔ other) : Fits other phase entry := by
  rwa [← propext same]

theorem Fits.woken {held : Prop} {phase : Phase} {entry : Option Task}
    (fits : Fits held phase entry) (holds : held) :
    phase = .parked ∧ ∃ task, entry = some task ∧ task.state = .ready ∧ task.a0 = eventNetRx := by
  cases fits with
  | fired task ready event => exact ⟨rfl, task, rfl, ready, event⟩
  | outside _ _ _ free _ | waiting _ _ free | timedOut _ _ _ free => exact absurd holds free

variable {after : Waits}

theorem sound_signal (sound : Sound waits) (ran : step waits .signal = some after) :
    Sound after := by
  cases ran
  constructor
  · exact ⟨fun _ => at_signalled.mpr (Or.inr rfl), fun _ => rfl⟩
  · intro id
    refine (sound.fits id).congr ?_
    simp [at_signalled]
  · intro index value there nonzero
    obtain ⟨isEvent, known⟩ := sound.signalled index value there nonzero
    exact ⟨isEvent, at_signalled.mpr (Or.inl known)⟩
  · intro index there
    exact sound.reported index ((at_signalled.mp there).resolve_right Place.noConfusion)

theorem appended_eq_some {reports : List Nat} {value other index : Nat} :
    (reports ++ [value])[index]? = some other ↔
      reports[index]? = some other ∨ (index = reports.length ∧ other = value) := by
  grind

theorem sound_reports (sound : Sound waits) {source : Place} {value : Nat}
    (unreported : ∀ index, source ≠ .reported index)
    (fired : (value = eventNetRx ∧ At waits.signals waits.place source) ∨
      (value = 0 ∧ ¬ At waits.signals waits.place source)) :
    (∀ index other, (waits.reports ++ [value])[index]? = some other → other ≠ 0 →
      other = eventNetRx ∧ At waits.signals
        (moved source (.reported waits.reports.length) waits.place) (.reported index)) ∧
    ∀ index, At waits.signals (moved source (.reported waits.reports.length) waits.place)
        (.reported index) → (waits.reports ++ [value])[index]? = some eventNetRx := by
  constructor
  · intro index other there nonzero
    rw [at_moved]
    rcases appended_eq_some.mp there with older | ⟨rfl, rfl⟩
    · obtain ⟨isEvent, known⟩ := sound.signalled index other older nonzero
      exact ⟨isEvent, Or.inl ⟨known, (unreported index).symm⟩⟩
    · rcases fired with ⟨isEvent, known⟩ | ⟨zero, -⟩
      · exact ⟨isEvent, Or.inr ⟨rfl, known⟩⟩
      · exact absurd zero nonzero
  · intro index there
    rcases at_moved.mp there with ⟨known, -⟩ | ⟨isLast, known⟩
    · exact appended_eq_some.mpr (Or.inl (sound.reported index known))
    · cases isLast
      rcases fired with ⟨isEvent, -⟩ | ⟨-, unknown⟩
      · exact appended_eq_some.mpr (Or.inr ⟨rfl, isEvent.symm⟩)
      · exact absurd known unknown

theorem consume_cases (mask : Nat) (flag : Bool) :
    (flag = true ∧ consumePending mask flag = (eventNetRx, false)) ∨
      consumePending mask flag = (0, flag) := by
  unfold consumePending
  split
  · rename_i matched
    exact Or.inl ⟨matched.2, rfl⟩
  · exact Or.inr rfl

theorem sound_check (sound : Sound waits) {mask : Nat} {deadline : Option Nat}
    (ran : step waits (.check id mask deadline) = some after) : Sound after := by
  simp only [step] at ran
  split at ran
  case isFalse => cases ran
  case isTrue user =>
    rcases consume_cases mask waits.netRxPending with ⟨pending, fired⟩ | quiet
    · rw [fired] at ran
      cases ran
      obtain ⟨signalled, reported⟩ := sound_reports sound (fun _ => Place.noConfusion)
        (Or.inl ⟨rfl, sound.flag.mp pending⟩)
      refine ⟨?_, ?_, signalled, reported⟩
      · simp [at_moved]
      · intro other
        refine (sound.fits other).congr ?_
        simp [at_moved]
    · rw [quiet] at ran
      cases ran
      refine ⟨sound.flag, ?_, sound.signalled, sound.reported⟩
      intro other
      have fits := sound.fits other
      by_cases same : other = id
      · rw [same, user.1] at fits
        cases fits with
        | outside _ _ _ free idle =>
          rw [same]
          exact .outside _ _ (by simp) free idle
      · simpa [update_of_ne same] using fits

theorem sound_park (sound : Sound waits) (ran : step waits (.park id) = some after) :
    Sound after := by
  simp only [step] at ran
  split at ran
  case h_2 => cases ran
  case h_1 mask deadline task checked has =>
    cases ran
    refine ⟨sound.flag, ?_, sound.signalled, sound.reported⟩
    intro other
    have fits := sound.fits other
    by_cases same : other = id
    · subst same
      rw [checked] at fits
      cases fits with
      | outside _ _ _ free =>
        simp only [update_self, get_modify, has]
        exact .waiting _ rfl free
    · simpa [update_of_ne same, same] using fits

variable {task : Task}

theorem sweep_elsewhere {now : Nat} {flag : Bool} {out : Task × Bool}
    (idle : isWaitEvent task.state = false) (swept : sweepTask now flag task = some out) :
    out.2 = flag ∧ isWaitEvent out.1.state = false := by
  unfold sweepTask at swept
  split at swept
  · split at swept <;> cases swept
    exact ⟨rfl, rfl⟩
  · split at swept <;> cases swept
    exact ⟨rfl, rfl⟩
  · rename_i mask deadline waiting
    rw [waiting] at idle
    cases idle
  · cases swept

theorem sweep_waiting {now : Nat} {flag : Bool} {out : Task × Bool}
    (waiting : isWaitEvent task.state = true) (swept : sweepTask now flag task = some out) :
    out.1.state = .ready ∧ ((flag = true ∧ out.2 = false ∧ out.1.a0 = eventNetRx) ∨
        (out.2 = flag ∧ out.1.a0 = 0)) := by
  unfold sweepTask at swept
  split at swept
  case h_3 mask deadline state =>
    rcases consume_cases mask flag with ⟨pending, fired⟩ | quiet
    · rw [fired] at swept
      cases swept
      exact ⟨rfl, Or.inl ⟨pending, rfl, rfl⟩⟩
    · rw [quiet] at swept
      split at swept <;> cases swept
      exact ⟨rfl, Or.inr ⟨rfl, rfl⟩⟩
  all_goals simp_all [isWaitEvent]

theorem sound_replaced (sound : Sound waits)
    (fits : Fits (At waits.signals waits.place (.woken id)) (waits.phase id) (some task))
    (has : (waits.tasks.get id).isSome) :
    Sound { waits with tasks := waits.tasks.modify id (fun _ => task) } := by
  refine ⟨sound.flag, ?_, sound.signalled, sound.reported⟩
  intro other
  by_cases same : other = id
  · obtain ⟨_, found⟩ := Option.isSome_iff_exists.mp has
    simpa [same, found] using fits
  · simpa [same] using sound.fits other

theorem sound_sweep (sound : Sound waits) (ran : step waits (.sweep id) = some after) :
    Sound after := by
  simp only [step] at ran
  split at ran
  · cases ran
    exact sound
  · rename_i out found
    obtain ⟨task, has, swept⟩ := Option.bind_eq_some_iff.mp found
    cases ran
    have kept : out.2 = waits.netRxPending →
        Fits (At waits.signals waits.place (.woken id)) (waits.phase id) (some out.1) →
        Sound { waits with
          tasks := waits.tasks.modify id (fun _ => out.1)
          netRxPending := out.2
          place := if waits.netRxPending && !out.2 then
            moved .pending (.woken id) waits.place else waits.place } := by
      intro same fits
      simpa [same] using sound_replaced sound fits (by simp [has])
    have fits := sound.fits id
    rw [has] at fits
    generalize isPhase : waits.phase id = phase at fits kept
    cases fits with
    | outside _ _ away free idle =>
      obtain ⟨same, stays⟩ := sweep_elsewhere (idle task rfl) swept
      refine kept same (.outside _ _ away free ?_)
      rintro _ ⟨⟩
      exact stays
    | timedOut _ ready zero free | fired _ ready event held =>
      unfold sweepTask at swept
      rw [ready] at swept
      cases swept
    | waiting _ waiting free =>
      obtain ⟨ready, ⟨pending, lowered, event⟩ | ⟨same, zero⟩⟩ := sweep_waiting waiting swept
      · rw [pending, lowered]
        constructor
        · simp [at_moved]
        · intro other
          by_cases same : other = id
          · subst same
            simp only [get_modify, has, isPhase]
            exact .fired _ ready event (at_moved.mpr (Or.inr ⟨rfl, sound.flag.mp pending⟩))
          · simp only [get_modify, same]
            refine (sound.fits other).congr ?_
            simp [at_moved, same]
        · intro index value there nonzero
          obtain ⟨isEvent, known⟩ := sound.signalled index value there nonzero
          simpa [at_moved, isEvent] using known
        · intro index there
          refine sound.reported index ?_
          simpa [at_moved] using there
      · exact kept same (.timedOut _ ready zero free)

theorem sound_resume (sound : Sound waits) (ran : step waits (.resume id) = some after) :
    Sound after := by
  simp only [step] at ran
  split at ran
  case h_2 => cases ran
  case h_1 task parked has =>
    split at ran
    case isFalse => cases ran
    case isTrue ready =>
      cases ran
      have fits := sound.fits id
      rw [parked, has] at fits
      have fired : (task.a0 = eventNetRx ∧ At waits.signals waits.place (.woken id)) ∨
          (task.a0 = 0 ∧ ¬ At waits.signals waits.place (.woken id)) := by
        cases fits with
        | outside _ _ away => exact absurd rfl away
        | waiting _ waiting =>
          rw [ready] at waiting
          cases waiting
        | timedOut _ _ zero free => exact Or.inr ⟨zero, free⟩
        | fired _ _ event held => exact Or.inl ⟨event, held⟩
      obtain ⟨signalled, reported⟩ := sound_reports sound (fun _ => Place.noConfusion) fired
      refine ⟨?_, ?_, signalled, reported⟩
      · simpa [at_moved] using sound.flag
      · intro other
        by_cases same : other = id
        · subst same
          refine .outside _ _ (by simp) (by simp [at_moved]) ?_
          intro found there
          rw [has] at there
          cases there
          rw [ready]
          rfl
        · simp only [update_of_ne same]
          refine (sound.fits other).congr ?_
          simp [at_moved, same]

theorem sound_step {event : Event} (sound : Sound waits) (ran : step waits event = some after) :
    Sound after := by
  cases event with
  | signal => exact sound_signal sound ran
  | tick =>
    cases ran
    exact ⟨sound.flag, sound.fits, sound.signalled, sound.reported⟩
  | check => exact sound_check sound ran
  | park => exact sound_park sound ran
  | sweep => exact sound_sweep sound ran
  | resume => exact sound_resume sound ran

end Steps

/-- Nothing is signalled, and no task is in `WaitForEvent`. -/
structure Quiet (waits : Waits) : Prop where
  flag : waits.netRxPending = false
  user : ∀ id, waits.phase id = .user
  idle : ∀ id task, waits.tasks.get id = some task → isWaitEvent task.state = false
  fresh : waits.signals = 0
  unreported : waits.reports = []

theorem quiet_sound {waits : Waits} (quiet : Quiet waits) : Sound waits := by
  have nowhere : ∀ place, ¬ At waits.signals waits.place place := by
    rintro place ⟨signal, bound, -⟩
    rw [quiet.fresh] at bound
    exact absurd bound (Nat.not_lt_zero _)
  constructor
  · simp [quiet.flag, nowhere]
  · intro id
    refine .outside _ _ ?_ (nowhere _) (quiet.idle id)
    rw [quiet.user]
    exact Phase.noConfusion
  · simp [quiet.unreported]
  · exact fun index there => absurd there (nowhere _)

def oneTask : Waits where
  tasks := (empty 1).alloc (Task.new 1)
  netRxPending := false
  ticks := 0
  phase := fun _ => .user
  signals := 0
  place := fun _ => .pending
  reports := []

/-- The interrupt comes between the look at the flag and the parking. -/
def lateSignal : Waits :=
  finalState step oneTask [.check 1 eventNetRx none, .signal, .park 1, .sweep 1, .resume 1]

end ViCell.Invariant.EventWaits

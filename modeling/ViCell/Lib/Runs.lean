import Mathlib

/-!
# Runs of a state machine

Invariant rules for runs.  `prefix_invariant_iff` is for a total step function
whose invariant has an exact condition per step: the invariant holds at every
point of a run precisely when every step meets its condition.  `Reaches` is
reachability through a partial step function by steps that meet a condition;
`runEvents` executes a concrete list of events, and `reaches_of_run` turns such
an execution into a proof of reachability.
-/

namespace ViCell.Lib

open List Option

variable {State Event : Type}

theorem prefix_invariant_iff (step : State → Event → State) (start : State)
    (good support : State → Prop) (meets : State → Event → Prop)
    (startGood : good start) (startSupport : support start)
    (stepSupport : ∀ state event, good state → support state → support (step state event))
    (stepGood : ∀ state event, good state → support state →
      (good (step state event) ↔ meets state event))
    (events : List Event) :
    (∀ ran, ran <+: events → good (ran.foldl step start)) ↔ ∀ ran event, ran ++ [event] <+: events →
        meets (ran.foldl step start) event := by
  constructor
  · intro always ran event isPrefix
    have supported : ∀ taken, taken <+: events → support (taken.foldl step start) := by
      intro taken
      induction taken using reverseRecOn with
      | nil => exact fun _ => startSupport
      | append_singleton taken last ih =>
        intro takenPrefix
        have shorter := (prefix_append taken [last]).trans takenPrefix
        rw [foldl_append]
        exact stepSupport _ last (always taken shorter) (ih shorter)
    have shorter := (prefix_append ran [event]).trans isPrefix
    have after := always (ran ++ [event]) isPrefix
    rw [foldl_append] at after
    exact (stepGood _ event (always ran shorter) (supported ran shorter)).mp after
  · intro allMeet ran
    have both : ran <+: events → good (ran.foldl step start) ∧ support (ran.foldl step start) := by
      induction ran using reverseRecOn with
      | nil => exact fun _ => ⟨startGood, startSupport⟩
      | append_singleton taken last ih =>
        intro takenPrefix
        have shorter := (prefix_append taken [last]).trans takenPrefix
        have was := ih shorter
        rw [foldl_append]
        exact ⟨(stepGood _ last was.1 was.2).mpr (allMeet taken last takenPrefix),
          stepSupport _ last was.1 was.2⟩
    exact fun isPrefix => (both isPrefix).1

section Guarded

variable (step : State → Event → Option State) (meets : State → Event → Prop)

def Reaches : State → State → Prop :=
  Relation.ReflTransGen (fun before after =>
    ∃ event, meets before event ∧ step before event = some after)

def runEvents : State → List Event → Option State
  | state, [] => some state
  | state, event :: rest => (step state event).bind (fun next => runEvents next rest)

theorem run_append (start : State) (first second : List Event) :
    runEvents step start (first ++ second) =
      (runEvents step start first).bind (fun middle => runEvents step middle second) := by
  induction first generalizing start with
  | nil => rfl
  | cons event rest ih =>
    simp only [cons_append, runEvents, bind_assoc]
    congr 1
    funext next
    exact ih next

def AllMeet : State → List Event → Prop
  | _, [] => True
  | state, event :: rest =>
    meets state event ∧
      match step state event with
      | none => True
      | some next => AllMeet next rest

instance AllMeet.decidable [∀ state event, Decidable (meets state event)] :
    ∀ state events, Decidable (AllMeet step meets state events)
  | _, [] => isTrue trivial
  | state, event :: rest =>
    have : Decidable (match step state event with
        | none => True
        | some next => AllMeet step meets next rest) :=
      match step state event with
      | none => isTrue trivial
      | some next => AllMeet.decidable next rest
    instDecidableAnd

variable {step meets}

theorem Reaches.invariant {holds : State → Prop}
    (preserved : ∀ was event after, holds was → meets was event →
      step was event = some after → holds after)
    {start finish : State} (reached : Reaches step meets start finish)
    (initially : holds start) : holds finish := by
  induction reached with
  | refl => exact initially
  | tail _ taken ih =>
    obtain ⟨event, met, ran⟩ := taken
    exact preserved _ event _ ih met ran

theorem reaches_of_run {start finish : State} {events : List Event}
    (executed : runEvents step start events = some finish)
    (met : AllMeet step meets start events) : Reaches step meets start finish := by
  induction events generalizing start with
  | nil =>
    cases executed
    exact Relation.ReflTransGen.refl
  | cons event rest ih =>
    simp only [runEvents, bind_eq_some_iff] at executed
    obtain ⟨_, ran, later⟩ := executed
    simp only [AllMeet, ran] at met
    exact Relation.ReflTransGen.head ⟨event, met.1, ran⟩ (ih later met.2)

def Occurs (step : State → Event → Option State) (happens : State → Event → Prop)
    (start : State) (events : List Event) : Prop :=
  ∃ earlier event later state, events = earlier ++ event :: later ∧
    runEvents step start earlier = some state ∧ happens state event

theorem Occurs.cons {happens : State → Event → Prop} {start next : State} {event : Event}
    {rest : List Event} (moved : step start event = some next)
    (occurs : Occurs step happens next rest) : Occurs step happens start (event :: rest) := by
  obtain ⟨earlier, found, later, state, split, ran, happened⟩ := occurs
  refine ⟨event :: earlier, found, later, state, ?_, ?_, happened⟩
  · rw [split, cons_append]
  · rw [runEvents, moved]
    exact ran

theorem held_or_introduced {holds : State → Prop} {introduces : State → Event → Prop}
    (origin : ∀ was event after, step was event = some after → holds after →
      holds was ∨ introduces was event)
    {start finish : State} {events : List Event}
    (executed : runEvents step start events = some finish) (held : holds finish) :
    holds start ∨ Occurs step introduces start events := by
  induction events generalizing start with
  | nil =>
    cases executed
    exact Or.inl held
  | cons event rest ih =>
    simp only [runEvents, bind_eq_some_iff] at executed
    obtain ⟨next, ran, later⟩ := executed
    rcases ih later with was | occurs
    · rcases origin start event next ran was with earlier | introduced
      · exact Or.inl earlier
      · exact Or.inr ⟨[], event, rest, start, rfl, rfl, introduced⟩
    · exact Or.inr (occurs.cons ran)

theorem run_invariant (holds : State → Prop)
    (preserved : ∀ was event after, holds was → step was event = some after → holds after)
    {start finish : State} {events : List Event}
    (executed : runEvents step start events = some finish) (initially : holds start) :
    holds finish := by
  induction events generalizing start with
  | nil =>
    cases executed
    exact initially
  | cons event rest ih =>
    simp only [runEvents, bind_eq_some_iff] at executed
    obtain ⟨next, ran, later⟩ := executed
    exact ih later (preserved start event next initially ran)

/-- An invariant that may speak about the events executed so far. -/
theorem run_history_invariant (holds : List Event → State → Prop) {start finish : State}
    {events : List Event} (executed : runEvents step start events = some finish)
    (initially : holds [] start)
    (preserved : ∀ past was event after, runEvents step start past = some was →
      holds past was → step was event = some after → holds (past ++ [event]) after) :
    holds events finish := by
  induction events using reverseRecOn generalizing finish with
  | nil =>
    cases executed
    exact initially
  | append_singleton past event ih =>
    rw [run_append, bind_eq_some_iff] at executed
    obtain ⟨was, earlier, last⟩ := executed
    simp only [runEvents, bind_eq_some_iff, some.injEq] at last
    obtain ⟨after, ran, same⟩ := last
    subst same
    exact preserved past was event after earlier (ih earlier) ran

def finalState (step : State → Event → Option State) (start : State) (events : List Event) :
    State :=
  (runEvents step start events).getD start

theorem final_state_eq {start : State} {events : List Event}
    (complete : (runEvents step start events).isSome) :
    runEvents step start events = some (finalState step start events) := by
  obtain ⟨_, ran⟩ := isSome_iff_exists.mp complete
  rw [finalState, ran, getD_some]

theorem reaches_final {start : State} {events : List Event}
    (complete : (runEvents step start events).isSome)
    (met : AllMeet step meets start events) :
    Reaches step meets start (finalState step start events) :=
  reaches_of_run (final_state_eq complete) met

theorem step_final {state : State} {event : Event} (enabled : (step state event).isSome) :
    step state event = some (finalState step state [event]) := by
  obtain ⟨_, ran⟩ := isSome_iff_exists.mp enabled
  rw [finalState, runEvents, ran]
  rfl

end Guarded

end ViCell.Lib

import ViCell.Core.FrameSteps

/-!
# Notes taken beside a run

What a blocking call may return depends on what happened while it was blocked.
A note records that: every step may open it anew, and every action of the step
may add to it.  Notes are ghosts; no definition of the machine reads one.
-/

namespace ViCell.Core.Notes

open Lib Core.Tcb Core.Ready Core.State Core.Handler Core.Machine Core.Effects Core.FrameSteps

structure Noted (Note : Type) where
  system : System
  note : Note

section Recording

variable {Note : Type} (opened : System → Event → Note → Note)
  (record : Kernel → Action → Kernel → Note → Note)

/-- Each action is shown to `record` with the kernel before and after it. -/
def noteActs (hart : HartId) : Kernel → List Action → Note → Note
  | _, [], note => note
  | kernel, action :: rest, note =>
    noteActs hart (act kernel hart action) rest
      (record kernel action (act kernel hart action) note)

def notedStep (current : Noted Note) (event : Event) : Option (Noted Note) :=
  (step current.system event).map (fun after =>
    ⟨after, noteActs record (actionsOf current.system event).1 current.system.kernel
      (actionsOf current.system event).2 (opened current.system event current.note)⟩)

variable {opened record}

theorem noted_step_eq {was after : Noted Note} {event : Event}
    (ran : notedStep opened record was event = some after) :
    step was.system event = some after.system ∧
      after.note = noteActs record (actionsOf was.system event).1 was.system.kernel
        (actionsOf was.system event).2 (opened was.system event was.note) := by
  unfold notedStep at ran
  obtain ⟨system, taken, rfl⟩ := Option.map_eq_some_iff.mp ran
  exact ⟨taken, rfl⟩

theorem note_acts_invariant (holds : Kernel → Note → Prop) {hart : HartId} {kernel : Kernel}
    {note : Note} {actions : List Action} {allowed : Kernel → HartId → Action → Prop}
    (preserved : ∀ current action taken, action ∈ actions → holds current taken →
      allowed current hart action →
      holds (act current hart action) (record current action (act current hart action) taken))
    (initially : holds kernel note) (met : ActsMeet allowed kernel hart actions) :
    holds (actAll kernel hart actions) (noteActs record hart kernel actions note) := by
  induction actions generalizing kernel note with
  | nil => exact initially
  | cons action rest ih =>
    rw [acts_meet_cons] at met
    apply ih
    · intro current later taken mem
      exact preserved current later taken (List.mem_cons_of_mem _ mem)
    · exact preserved kernel action note List.mem_cons_self initially met.1
    · exact met.2

end Recording

/-- The task whose own receive or reply an action is. -/
def ipcOwner : Action → Option TaskId
  | .acceptPending caller _ => some caller
  | .recv caller _ _ => some caller
  | .tryRecv caller _ => some caller
  | .reply caller _ => some caller
  | _ => none

theorem ipc_owner_source {system : System} {event : Event} {action : Action} {id : TaskId}
    (mem : action ∈ (actionsOf system event).2) (owned : ipcOwner action = some id) :
    ∃ hart, event = .proceed hart ∧ system.kernel.current hart = id ∧
      action = frameAction system.kernel id (system.frames id) := by
  rcases action_source mem with ⟨hart, rfl, rfl⟩ | background
  · refine ⟨hart, rfl, ?_⟩
    have own := (frame_spec system.kernel hart (system.frames (system.kernel.current hart))).1
    have same : system.kernel.current hart = id := by
      cases found : frameAction system.kernel (system.kernel.current hart)
          (system.frames (system.kernel.current hart)) <;>
        rw [found] at owned own <;> simp only [ipcOwner] at owned <;> cases owned <;>
        exact own.symm
    exact ⟨same, by rw [same]⟩
  · cases background with
    | housekeeping _ keeps => cases keeps <;> cases owned
    | _ => cases owned

end ViCell.Core.Notes

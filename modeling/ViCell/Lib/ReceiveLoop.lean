import Mathlib

/-!
# Loops that receive into one buffer

A loop owns a buffer that is never cleared: a message is copied to its front and
what earlier messages left stays behind it.  `outcome_eq` is the two-run rule: the
next message is handled alike in two states that agree on everything but the
buffer, if the decoder does not look behind the message.
-/

namespace ViCell.Lib

open List

/-- The buffer after a copy of at most its length to its front. -/
def overwrite {Cell : Type} (buffer message : List Cell) : List Cell :=
  message.take buffer.length ++ buffer.drop message.length

@[simp]
theorem length_overwrite {Cell : Type} (buf msg : List Cell) :
    (overwrite buf msg).length = buf.length := by
  rw [overwrite, length_append, length_take, length_drop]
  omega

theorem overwrite_long {Cell : Type} {buf msg : List Cell} (long : buf.length ≤ msg.length) :
    overwrite buf msg = msg.take buf.length := by
  rw [overwrite, drop_eq_nil_of_le long, append_nil]

theorem overwrite_short {Cell : Type} {buf msg : List Cell} (short : msg.length ≤ buf.length) :
    overwrite buf msg = msg ++ buf.drop msg.length := by
  rw [overwrite, take_of_length_le short]

inductive Incoming where
  | message (sender : Nat) (bytes : List (BitVec 8))
  | nothing
  deriving DecidableEq, Repr

/-- What a loop is made of: the size of its buffer, the senders it serves, how it reads
a message, what it does with one, and what it does when none came. -/
structure ReceiveLoop (Logical Request Reply : Type) where
  size : Nat
  accepts : Nat → Bool
  decode : Nat → List (BitVec 8) → Request
  handle : Logical → Nat → Request → Logical × Reply
  idle : Logical → Logical

structure Receiving (Logical : Type) where
  logical : Logical
  buffer : List (BitVec 8)

namespace ReceiveLoop

variable {Logical Request Reply : Type} (loop : ReceiveLoop Logical Request Reply)

def start (logical : Logical) : Receiving Logical := ⟨logical, replicate loop.size 0⟩

def step (state : Receiving Logical) : Incoming → Receiving Logical
  | .nothing => { state with logical := loop.idle state.logical }
  | .message sender bytes =>
    let buffer := overwrite state.buffer bytes
    if loop.accepts sender then
      ⟨(loop.handle state.logical sender (loop.decode sender buffer)).1, buffer⟩
    else { state with buffer }

def run (logical : Logical) (history : List Incoming) : Receiving Logical :=
  history.foldl loop.step (loop.start logical)

def outcome (state : Receiving Logical) (sender : Nat) (bytes : List (BitVec 8)) :
    Option (Request × Reply) :=
  if loop.accepts sender then
    let request := loop.decode sender (overwrite state.buffer bytes)
    some (request, (loop.handle state.logical sender request).2)
  else none

theorem length_step (state : Receiving Logical) (incoming : Incoming) :
    (loop.step state incoming).buffer.length = state.buffer.length := by
  cases incoming with
  | nothing => rfl
  | message =>
    unfold step
    dsimp only
    split <;> exact length_overwrite _ _

theorem length_run (logical : Logical) (history : List Incoming) :
    (loop.run logical history).buffer.length = loop.size := by
  unfold run
  induction history using reverseRecOn with
  | nil => exact length_replicate
  | append_singleton earlier last ih =>
    rw [foldl_append, foldl_cons, foldl_nil, length_step]
    exact ih

theorem outcome_eq {logical : Logical} {first second : List Incoming} {sender : Nat}
    {bytes : List (BitVec 8)}
    (same : (loop.run logical first).logical = (loop.run logical second).logical)
    (covers : bytes.length < loop.size →
      ∀ tail other, loop.decode sender (bytes ++ tail) = loop.decode sender (bytes ++ other)) :
    loop.outcome (loop.run logical first) sender bytes =
      loop.outcome (loop.run logical second) sender bytes := by
  have firstLength := loop.length_run logical first
  have secondLength := loop.length_run logical second
  have decoded : loop.decode sender (overwrite (loop.run logical first).buffer bytes) =
      loop.decode sender (overwrite (loop.run logical second).buffer bytes) := by
    rcases Nat.lt_or_ge bytes.length loop.size with short | long
    · rw [overwrite_short (by omega), overwrite_short (by omega)]
      exact covers short _ _
    · rw [overwrite_long (by omega), overwrite_long (by omega), firstLength, secondLength]
  unfold outcome
  rw [decoded, same]

/-- After any two histories that leave the same logical state, a message that fills the
buffer or is covered leads to the same request and the same reply. -/
def HandlesAlike (covered : List (BitVec 8) → Prop) : Prop :=
  ∀ logical first second sender bytes,
    (loop.run logical first).logical = (loop.run logical second).logical →
    loop.size ≤ bytes.length ∨ covered bytes →
    loop.outcome (loop.run logical first) sender bytes =
      loop.outcome (loop.run logical second) sender bytes

theorem handles_alike {covered : List (BitVec 8) → Prop} (ignores : ∀ sender bytes, covered bytes →
      ∀ tail other, loop.decode sender (bytes ++ tail) = loop.decode sender (bytes ++ other)) :
    loop.HandlesAlike covered := by
  intro logical first second sender bytes same whole
  refine loop.outcome_eq same (fun short => ?_)
  rcases whole with long | covers
  · exact absurd long (Nat.not_le_of_lt short)
  · exact ignores sender bytes covers

end ReceiveLoop

end ViCell.Lib

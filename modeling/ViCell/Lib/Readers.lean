import Mathlib

/-!
# Readers of serialized values

A reader takes a value from the front of its input.  It can find the input too
short, and only then does its answer depend on bytes that come later: this is a
field of the type, so every reader built from the operations below has it.
-/

namespace ViCell.Lib

inductive Read (Value : Type) where
  | done (value : Value) (rest : List (BitVec 8))
  | short
  | bad
  deriving DecidableEq

def Read.extend {Value : Type} (more : List (BitVec 8)) : Read Value → Read Value
  | .done value rest => .done value (rest ++ more)
  | .short => .short
  | .bad => .bad

structure Reader (Value : Type) where
  read : List (BitVec 8) → Read Value
  settled : ∀ bytes more, read bytes ≠ .short → read (bytes ++ more) = (read bytes).extend more

namespace Reader

variable {Value Other : Type}

def succeed (value : Value) : Reader Value where
  read bytes := .done value bytes
  settled _ _ _ := rfl

def fail : Reader Value where
  read _ := .bad
  settled _ _ _ := rfl

def byte : Reader (BitVec 8) where
  read
    | [] => .short
    | first :: rest => .done first rest
  settled bytes more long := by
    cases bytes with
    | nil => exact absurd rfl long
    | cons first rest => rfl

def bytes (count : Nat) : Reader (List (BitVec 8)) where
  read input := if count ≤ input.length then .done (input.take count) (input.drop count) else .short
  settled input more long := by
    by_cases enough : count ≤ input.length
    · have still : count ≤ (input ++ more).length := by
        rw [List.length_append]
        exact Nat.le_add_right_of_le enough
      rw [if_pos enough, if_pos still, List.take_append_of_le_length enough,
        List.drop_append_of_le_length enough]
      rfl
    · rw [if_neg enough] at long
      exact absurd rfl long

def bind (first : Reader Value) (next : Value → Reader Other) : Reader Other where
  read input :=
    match first.read input with
    | .done value rest => (next value).read rest
    | .short => .short
    | .bad => .bad
  settled input more long := by
    have head := first.settled input more
    cases answer : first.read input with
    | short =>
      rw [answer] at long
      exact absurd rfl long
    | bad =>
      rw [answer] at head
      rw [head (fun wrong => by cases wrong)]
      rfl
    | done value rest =>
      rw [answer] at head long
      rw [head (fun wrong => by cases wrong)]
      exact (next value).settled rest more long

def map (change : Value → Other) (reader : Reader Value) : Reader Other :=
  reader.bind fun value => succeed (change value)

def guard (accepts : Value → Bool) (reader : Reader Value) : Reader Value :=
  reader.bind fun value => if accepts value then succeed value else fail

/-- Seven bits a byte, least significant first, in at most `count` bytes of which the
last possible one is at most `lastMax`. -/
def varint (lastMax : Nat) : Nat → Reader Nat
  | 0 => fail
  | count + 1 => byte.bind fun low =>
    if low.toNat < 128 then
      if count = 0 ∧ low.toNat > lastMax then fail else succeed low.toNat
    else (varint lastMax count).map fun high => low.toNat - 128 + 128 * high

def decode (reader : Reader Value) (input : List (BitVec 8)) : Option Value :=
  match reader.read input with
  | .done value _ => some value
  | _ => none

theorem decode_append (reader : Reader Value) {input : List (BitVec 8)}
    (long : reader.read input ≠ .short) (more : List (BitVec 8)) :
    reader.decode (input ++ more) = reader.decode input := by
  unfold decode
  rw [reader.settled input more long]
  cases reader.read input <;> rfl

end Reader

end ViCell.Lib

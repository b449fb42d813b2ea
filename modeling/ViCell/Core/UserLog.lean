import Mathlib

/-!
# What cells print

`print_user_log` of `task.rs` with the flag that it keeps between calls. The text goes to
the serial line as it is; only the marker is added.
-/

namespace ViCell.Core.UserLog

open List

/-- The serial output so far and `USER_LOG_AT_LINE_START`. -/
structure Console where
  output : List Char
  atLineStart : Bool
  deriving DecidableEq, Repr

def marker : List Char := "USER: ".toList

/-- What the rounds of the loop cut off: the text up to and with the next line break, and
in the last round the rest. -/
def pieces : List Char → List (List Char)
  | [] => []
  | char :: rest =>
    if char = '\n' then [char] :: pieces rest
    else match pieces rest with
      | [] => [[char]]
      | piece :: later => (char :: piece) :: later

def printPiece (console : Console) (piece : List Char) : Console where
  output := console.output ++ (if console.atLineStart then marker else []) ++ piece
  atLineStart := piece.getLast? = some '\n'

def printUserLog (console : Console) (msg : List Char) : Console :=
  (pieces msg).foldl printPiece console

/-- The text with the marker before each character that begins a line; `start` says
whether the first one does. -/
def marked (start : Bool) : List Char → List Char
  | [] => []
  | char :: rest => (if start then marker else []) ++ char :: marked (char = '\n') rest

theorem print_user_log_cons (console : Console) (char : Char) (rest : List Char) :
    printUserLog console (char :: rest) = printUserLog (printPiece console [char]) rest := by
  unfold printUserLog
  rw [pieces]
  split
  next => rfl
  next inside =>
    split
    next none =>
      rw [none]
      rfl
    next piece later cut =>
      rw [cut]
      have nonempty : piece ≠ [] := by
        cases rest with
        | nil => cases cut
        | cons next _ =>
          rw [pieces] at cut
          split at cut
          · cases cut
            exact cons_ne_nil _ _
          · split at cut <;> cases cut <;> exact cons_ne_nil _ _
      obtain ⟨_, _, rfl⟩ := exists_cons_of_ne_nil nonempty
      simp [printPiece, inside]

theorem print_user_log_append (console : Console) (left right : List Char) :
    printUserLog console (left ++ right) = printUserLog (printUserLog console left) right := by
  induction left generalizing console with
  | nil => rfl
  | cons char rest ih => rw [cons_append, print_user_log_cons, print_user_log_cons, ih]

theorem print_user_log_output (console : Console) (msg : List Char) :
    (printUserLog console msg).output = console.output ++ marked console.atLineStart msg := by
  induction msg generalizing console with
  | nil => simp [printUserLog, pieces, marked]
  | cons char rest ih =>
    rw [print_user_log_cons, ih]
    simp [printPiece, marked]

/-- The serial output is the concatenation of the messages with the marker once at the
start of each of its lines. -/
theorem output_marks_each_line (messages : List (List Char)) :
    (messages.foldl printUserLog ⟨[], true⟩).output = marked true messages.flatten := by
  have joined : ∀ console,
      messages.foldl printUserLog console = printUserLog console messages.flatten := by
    induction messages with
    | nil => exact fun _ => rfl
    | cons message rest ih =>
      intro console
      rw [foldl_cons, ih, flatten_cons, print_user_log_append]
  rw [joined, print_user_log_output]
  rfl

end ViCell.Core.UserLog

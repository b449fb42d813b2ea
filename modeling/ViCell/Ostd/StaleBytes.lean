import ViCell.Ostd.AppEvents
import ViCell.Ostd.Dispatch
import ViCell.Services.Config
import ViCell.Services.Silo

/-!
# Bytes of earlier messages

None of the four receive loops clears its buffer or learns the length of a message,
so what a short message is taken for can depend on the messages before it.  Here it
is said which messages are safe from this.
-/

namespace ViCell.Ostd

open Lib Services List

namespace AppContext

variable {Logical Reply : Type} (handler : Logical → AppEvent → Logical × Reply)

def run : ReceiveLoop Logical AppEvent Reply where
  size := recvBufSize
  accepts _ := true
  decode := parseEventOwned
  handle logical _ event := handler logical event
  idle logical := logical

/-- A timeout is reported as sender 0. -/
def runWithTimeout : ReceiveLoop Logical AppEvent Reply where
  size := recvBufSize
  accepts _ := true
  decode sender buf := if sender = 0 then .timeout else parseEventOwned sender buf
  handle logical _ event := handler logical event
  idle logical := logical

/-- The message is a lifecycle envelope or an input frame of its full length. -/
def EndsItself (bytes : List Byte) : Prop :=
  bytes.getD 0 0 = appMsgMagic ∧ (bytes.getD 1 0 = discShutdown ∧ 3 ≤ bytes.length ∨
        bytes.getD 1 0 = discSnapshot ∧ 10 ≤ bytes.length ∨
        bytes.getD 1 0 = discRestore ∧ 66 ≤ bytes.length) ∨
    (parseFrame bytes).isSome = true

instance (bytes : List Byte) : Decidable (EndsItself bytes) :=
  inferInstanceAs (Decidable (_ ∨ _))

end AppContext

section Frames

variable {bytes : List Byte} {event : InputEvent}

theorem read_field_append {offset width : Nat} (inside : offset + width ≤ bytes.length)
    (more : List Byte) : readField (bytes ++ more) offset width = readField bytes offset width := by
  unfold readField
  have long : width ≤ (bytes.drop offset).length := by
    rw [length_drop]
    omega
  rw [drop_append_of_le_length (by omega), take_append_of_le_length long]

theorem read_int_append {offset : Nat} (inside : offset + 4 ≤ bytes.length) (more : List Byte) :
    readInt32 (bytes ++ more) offset = readInt32 bytes offset := by
  unfold readInt32
  rw [read_field_append inside]

theorem guarded_append {least : Nat} {before after : Option InputEvent} {more : List Byte}
    (kept : least ≤ bytes.length → after = before)
    (decoded : (if bytes.length < least then none else before) = some event) :
    (if (bytes ++ more).length < least then none else after) = some event := by
  split at decoded
  · cases decoded
  next long =>
    rw [if_neg (by rw [length_append]; omega), kept (by omega)]
    exact decoded

theorem decode_event_append (decoded : decodeEvent bytes = some event) (more : List Byte) :
    decodeEvent (bytes ++ more) = some event := by
  cases bytes with
  | nil => cases decoded
  | cons kind payload =>
    rw [cons_append]
    unfold decodeEvent at decoded ⊢
    dsimp only at decoded ⊢
    split at decoded
    · refine guarded_append (fun long => ?_) decoded
      simp (disch := omega) only [getD_append, read_field_append]
    · refine guarded_append (fun long => ?_) decoded
      simp (disch := omega) only [read_int_append]
    · refine guarded_append (fun long => ?_) decoded
      simp (disch := omega) only [getD_append]
    · refine guarded_append (fun long => ?_) decoded
      simp (disch := omega) only [read_int_append]
    · cases decoded

theorem parse_frame_append (parsed : parseFrame bytes = some event) (sender : Nat)
    (more : List Byte) : parseEventOwned sender (bytes ++ more) = .input event := by
  unfold parseFrame at parsed
  split at parsed
  · cases parsed
  next isFrame =>
    rw [not_or, not_not] at isFrame
    obtain ⟨_, opcode⟩ := isFrame
    have still : (bytes ++ more).length ≥ 2 := by
      rw [length_append]
      omega
    have first : (bytes ++ more).getD 0 0 = inputEventOpcode := by
      rw [getD_append _ _ _ _ (by omega), opcode]
    have notMagic : ¬ (bytes ++ more).getD 0 0 = appMsgMagic := by
      rw [first]
      decide
    have whole : parseFrame (bytes ++ more) = some event := by
      unfold parseFrame
      rw [if_neg (not_or.mpr ⟨Nat.not_lt.mpr still, not_not.mpr first⟩),
        drop_append_of_le_length (by omega)]
      exact decode_event_append parsed more
    unfold parseEventOwned
    rw [if_neg (fun both => notMagic both.2), if_pos ⟨still, first⟩, whole]

end Frames

theorem two_and_rest {bytes : List Byte} {first second : Byte} (long : 2 ≤ bytes.length)
    (isFirst : bytes.getD 0 0 = first) (isSecond : bytes.getD 1 0 = second) :
    ∃ rest, bytes = first :: second :: rest ∧ bytes.length = rest.length + 2 := by
  match bytes, long with
  | _ :: _ :: rest, _ =>
    subst isFirst isSecond
    exact ⟨rest, rfl, rfl⟩

theorem ends_itself_ignores {bytes : List Byte} (ends : AppContext.EndsItself bytes)
    (sender : Nat) (tail other : List Byte) :
    parseEventOwned sender (bytes ++ tail) = parseEventOwned sender (bytes ++ other) := by
  rcases ends with ⟨magic, ⟨kind, long⟩ | ⟨kind, long⟩ | ⟨kind, long⟩⟩ | frame
  · obtain ⟨rest, isBytes, length⟩ := two_and_rest (by omega) magic kind
    cases rest with
    | nil => exact absurd length (by rw [length_nil]; omega)
    | cons reason rest =>
      rw [isBytes]
      exact (parse_shutdown reason _).trans (parse_shutdown reason _).symm
  · obtain ⟨rest, isBytes, length⟩ := two_and_rest (by omega) magic kind
    have enough : 8 ≤ rest.length := by omega
    have still : ∀ more, 8 ≤ (rest ++ more).length := fun more => by
      rw [length_append]
      omega
    rw [isBytes, cons_append, cons_append, cons_append, cons_append,
      parse_snapshot (still tail), parse_snapshot (still other),
      take_append_of_le_length enough, take_append_of_le_length enough]
  · obtain ⟨rest, isBytes, length⟩ := two_and_rest (by omega) magic kind
    have enough : 64 ≤ rest.length := by omega
    have still : ∀ more, 64 ≤ (rest ++ more).length := fun more => by
      rw [length_append]
      omega
    rw [isBytes, cons_append, cons_append, cons_append, cons_append,
      parse_restore (still tail), parse_restore (still other),
      take_append_of_le_length enough, take_append_of_le_length enough]
  · obtain ⟨_, parsed⟩ := Option.isSome_iff_exists.mp frame
    rw [parse_frame_append parsed, parse_frame_append parsed]

theorem silo_request_append {bytes : List Byte} (long : 128 ≤ bytes.length) (more : List Byte) :
    Silo.decodeRequest (bytes ++ more) = Silo.decodeRequest bytes := by
  have data : Silo.reqDataLen ≤ (bytes.drop Silo.reqOffData).length := by
    rw [length_drop]
    exact Nat.le_sub_of_add_le long
  have offset : Silo.reqOffData ≤ bytes.length := le_trans (by decide) long
  unfold Silo.decodeRequest
  rw [getD_append _ _ _ _ (by omega), drop_append_of_le_length offset,
    take_append_of_le_length data]

/-- Which messages are handled without regard to the messages before them: for the
typed services those that are not cut off, for the silo service those of its full 128
bytes, for an application those that end themselves, and all that fill the buffer. -/
theorem messages_handled_alike {Guest Logical Request Response State Reply : Type}
    (guest : SiloGuest Guest) (handler : MessageHandler Logical Request Response)
    (app : State → AppEvent → State × Reply) :
    Config.main.HandlesAlike (fun bytes => ConfigRequest.reader.read bytes ≠ .short) ∧
    (Silo.run guest).HandlesAlike (fun bytes => 128 ≤ bytes.length) ∧
    handler.runService.HandlesAlike (fun bytes => handler.request.read bytes ≠ .short) ∧
    (AppContext.run app).HandlesAlike AppContext.EndsItself ∧
    (AppContext.runWithTimeout app).HandlesAlike AppContext.EndsItself := by
  refine ⟨?_, ?_, ?_, ?_, ?_⟩
  · refine ReceiveLoop.handles_alike _ (fun _ bytes long tail other => ?_)
    exact (Reader.decode_append _ long tail).trans (Reader.decode_append _ long other).symm
  · refine ReceiveLoop.handles_alike _ (fun _ bytes long tail other => ?_)
    exact (silo_request_append long tail).trans (silo_request_append long other).symm
  · refine ReceiveLoop.handles_alike _ (fun _ bytes long tail other => ?_)
    exact (Reader.decode_append _ long tail).trans (Reader.decode_append _ long other).symm
  · refine ReceiveLoop.handles_alike _ (fun sender bytes ends tail other => ?_)
    exact ends_itself_ignores ends sender tail other
  · refine ReceiveLoop.handles_alike _ (fun sender bytes ends tail other => ?_)
    dsimp only [AppContext.runWithTimeout]
    rw [ends_itself_ignores ends sender tail other]

def getOs : List Byte := [0, 2, 0x4F, 0x53]

def listKeys : List Byte := [3]

theorem get_keeps_store (store : ConfigStore) (key : List Byte) :
    (Config.handle store (some (.get key))).1 = store := by
  unfold Config.handle
  dsimp only
  split
  · split <;> rfl
  · rfl

theorem first_message_state (bytes : List Byte) :
    (Config.main.run Config.newStore [.message 5 bytes]).logical =
      (Config.handle Config.newStore
        (ConfigRequest.reader.decode
          (overwrite (Config.main.start Config.newStore).buffer bytes))).1 := by
  unfold ReceiveLoop.run
  rw [foldl_cons, foldl_nil, ReceiveLoop.step, if_pos (show Config.main.accepts 5 = true from rfl)]
  dsimp only [Config.main, ReceiveLoop.start]

theorem reads_same_state :
    (Config.main.run Config.newStore [.message 5 getOs]).logical =
      (Config.main.run Config.newStore [.message 5 listKeys]).logical := by
  have get : ConfigRequest.reader.decode
      (overwrite (Config.main.start Config.newStore).buffer getOs) = some (.get [0x4F, 0x53]) := by decide +kernel
  have list : ConfigRequest.reader.decode
      (overwrite (Config.main.start Config.newStore).buffer listKeys) = some .list := by decide +kernel
  rw [first_message_state, first_message_state, get, list, get_keeps_store]
  rfl

def quietGuest : SiloGuest Unit := ⟨fun guest _ => some guest, fun guest => (guest, .done), fun _ => none⟩

def quietService : MessageHandler Unit Unit Unit := ⟨.succeed (), fun _ _ _ => ((), ()), fun _ => []⟩

theorem get_handled_alike : ConfigRequest.reader.read getOs ≠ .short ∧
      Config.main.outcome (Config.main.run Config.newStore [.message 5 getOs]) 9 getOs =
        Config.main.outcome (Config.main.run Config.newStore [.message 5 listKeys]) 9 getOs := by
  have whole : ConfigRequest.reader.read getOs ≠ .short := by decide +kernel
  have alike := (messages_handled_alike quietGuest quietService (fun (_ : Unit) _ => ((), ()))).1
  exact ⟨whole, alike _ _ _ 9 getOs reads_same_state (.inr whole)⟩

def firstByte : AppEvent → Option Byte
  | .message _ data => data.head?
  | _ => none

def listener : ReceiveLoop Unit AppEvent Unit := AppContext.run (fun _ _ => ((), ()))

/-- An empty message to the config service is taken for the request before it, and a
message of two bytes to an application is handed over with the bytes of the one
before it. -/
theorem earlier_bytes_read :
    ((Config.main.run Config.newStore [.message 5 getOs]).logical =
        (Config.main.run Config.newStore [.message 5 listKeys]).logical ∧
      (Config.main.outcome (Config.main.run Config.newStore [.message 5 getOs]) 9 []).map
          (fun answer => answer.1) = some (some (.get [0x4F, 0x53])) ∧
      (Config.main.outcome (Config.main.run Config.newStore [.message 5 listKeys]) 9 []).map
          (fun answer => answer.1) = some (some .list)) ∧
    (listener.outcome (listener.run () [.message 5 [0, 0, 42]]) 9 [0xAC, 0]).map
        (fun answer => firstByte answer.1) = some (some 42) ∧
    (listener.outcome (listener.run () []) 9 [0xAC, 0]).map
        (fun answer => firstByte answer.1) = some (some 0) := by
  refine ⟨⟨reads_same_state, ?_, ?_⟩, ?_, ?_⟩
  all_goals decide +kernel

end ViCell.Ostd

import ViCell.Lib.Runs
import ViCell.Net.Service

/-!
# The byte stream of a TCP connection

`TcpStream` reads and writes through requests to the service: a write sends its
chunk again until the socket has taken it whole, a read asks again until there is
data. Each attempt is one step, so that the wire can act between any two of them.
-/

namespace ViCell.Net

open Lib List Bytes SlotSet

def vierrFromCode (code : Byte) : ViError :=
  match code.toNat with
  | 0 => .outOfMemory
  | 1 => .invalidArgument
  | 2 => .notFound
  | 3 => .permissionDenied
  | 4 => .alreadyExists
  | 5 => .wouldBlock
  | 6 => .notSupported
  | 7 => .io
  | 8 => .invalidInput
  | 9 => .isADirectory
  | 10 => .notADirectory
  | _ => .unknown

def maxTcpWrite : Nat := ipcBufSize - 256

def writeStallBudget : Nat := 100000

namespace NetClient

def tcpSend (data : List Byte) : NetResponse → Except ViError Unit
  | .data bytes =>
    let count := if bytes.length ≥ 4 then decodeLE (bytes.take 4) else 0
    if count = data.length then .ok () else .error .wouldBlock
  | .ok => .ok ()
  | .err code => .error (vierrFromCode code)
  | _ => .error .io

def tcpRecv : NetResponse → Except ViError (List Byte)
  | .data bytes => .ok bytes
  | .ok => .ok []
  | .err code => .error (vierrFromCode code)
  | _ => .error .io

end NetClient

/-- Where the client is: between calls, in the loop of a write or a read, or waiting
for a response that was not sent. -/
inductive StreamPhase where
  | idle
  | writing (chunk : List Byte) (stalls : Nat)
  | reading (room : Nat)
  | unanswered
  deriving DecidableEq, Repr

/-- A stream with the service behind it, the chunks reported as written and the
bytes returned by reads. -/
structure TcpStream where
  net : NetState
  id : Nat
  phase : StreamPhase
  written : List (List Byte)
  returned : List Byte

inductive StreamEvent where
  | write (buf : List Byte)
  | read (room : Nat)
  /-- The next request of the running call. -/
  | attempt (env : Surroundings)

namespace TcpStream

def opened (net : NetState) (id : Nat) : TcpStream := ⟨net, id, .idle, [], []⟩

def afterSend (stream : TcpStream) (chunk : List Byte) (stalls : Nat) : Reply → TcpStream
  | .typed response =>
    match NetClient.tcpSend chunk response with
    | .ok () => { stream with phase := .idle, written := stream.written ++ [chunk] }
    | .error .wouldBlock =>
      if stalls + 1 ≥ writeStallBudget then { stream with phase := .idle }
      else { stream with phase := .writing chunk (stalls + 1) }
    | .error _ => { stream with phase := .idle }
  | _ => { stream with phase := .unanswered }

def afterRecv (stream : TcpStream) (room : Nat) : Reply → TcpStream
  | .typed response =>
    match NetClient.tcpRecv response with
    | .ok data =>
      if data.isEmpty then stream
      else { stream with phase := .idle, returned := stream.returned ++ data.take room }
    | .error _ => { stream with phase := .idle }
  | _ => { stream with phase := .unanswered }

def step (stream : TcpStream) : StreamEvent → Option TcpStream
  | .write buf =>
    if stream.phase = .idle then
      if buf.isEmpty then some stream
      else some { stream with phase := .writing (buf.take maxTcpWrite) 0 }
    else none
  | .read room => if stream.phase = .idle then some { stream with phase := .reading room } else none
  | .attempt env =>
    match stream.phase with
    | .writing chunk stalls =>
      match stream.net.handleRequest env (.typed (.tcpSend stream.id chunk)) with
      | .ok (net, reply) => some (afterSend { stream with net } chunk stalls reply)
      | .error _ => none
    | .reading room =>
      match stream.net.handleRequest env (.typed (.tcpRecv stream.id (min room (2 ^ 32 - 1)))) with
      | .ok (net, reply) => some (afterRecv { stream with net } room reply)
      | .error _ => none
    | _ => none

def socket? (stream : TcpStream) : Option (Nat × TcpSocket) :=
  match stream.net.table.get stream.id with
  | none => none
  | some handle =>
    match at? stream.net.sockets handle with
    | some (.tcp socket) => some (handle, socket)
    | _ => none

/-- The attempt moves the chunk whole or not at all, and what it reads fits the
response. -/
def movesWhole (stream : TcpStream) : StreamEvent → Bool
  | .attempt env =>
    match stream.phase, stream.socket? with
    | .writing chunk _, some (handle, socket) =>
      let socket := socket.polled (env.before handle)
      !socket.canSend || decide (chunk.length ≤ TcpSocket.bufferSize - socket.tx.length)
    | .reading room, some (handle, socket) =>
      let socket := socket.polled (env.before handle)
      decide ((NetResponse.data
        (socket.rx.take (min (min room (2 ^ 32 - 1)) 4096))).encodedLen ≤ ipcBufSize)
    | _, _ => true
  | _ => true

def MovesWhole (stream : TcpStream) (event : StreamEvent) : Prop := stream.movesWhole event = true

instance (stream : TcpStream) (event : StreamEvent) : Decidable (MovesWhole stream event) :=
  inferInstanceAs (Decidable (stream.movesWhole event = true))

end TcpStream

namespace TcpSocket

variable {socket : TcpSocket} {data : List Byte}

def take (socket : TcpSocket) (data : List Byte) : TcpSocket × Nat :=
  if socket.canSend then (socket.sendSlice data).getD (socket, 0) else (socket, 0)

theorem take_cases (whole : socket.canSend = false ∨ data.length ≤ bufferSize - socket.tx.length) :
    (socket.take data).2 = 0 ∧ (socket.take data).1 = socket ∨ (socket.take data).2 = data.length ∧
        (socket.take data).1.accepted = socket.accepted ++ data ∧
        (socket.take data).1.rx = socket.rx ∧ (socket.take data).1.received = socket.received := by
  unfold take
  rcases whole with refused | fits
  · left
    rw [refused]
    exact ⟨rfl, rfl⟩
  · by_cases able : socket.canSend = true
    · right
      have may : socket.maySend = true := (Bool.and_eq_true _ _ ▸ able : _ ∧ _).1
      have all : data.take (bufferSize - socket.tx.length) = data := take_of_length_le fits
      rw [if_pos able]
      unfold sendSlice
      rw [if_pos may]
      rw [all]
      exact ⟨rfl, rfl, rfl, rfl⟩
    · left
      rw [if_neg able]
      exact ⟨rfl, rfl⟩

theorem polled_accepted (wire : Wire) : (socket.polled wire).accepted = socket.accepted := rfl

theorem polled_received {returned : List Byte} (wire : Wire)
    (kept : socket.received = returned ++ socket.rx) :
    (socket.polled wire).received = returned ++ (socket.polled wire).rx := by
  unfold polled
  dsimp only
  rw [kept, append_assoc]

end TcpSocket

namespace NetState

variable {state : NetState} {env : Surroundings} {cap handle : Nat} {socket : TcpSocket}

structure HasTcp (state : NetState) (cap handle : Nat) (socket : TcpSocket) : Prop where
  held : state.table.get cap = some handle
  plain : state.table.isUdp cap = false
  isSocket : at? state.sockets handle = some (.tcp socket)

namespace HasTcp

section

variable (has : HasTcp state cap handle socket)
include has

theorem poll (wires : Nat → Wire) :
    HasTcp (state.poll wires) cap handle (socket.polled (wires handle)) where
  held := has.held
  plain := has.plain
  isSocket := by
    unfold NetState.poll
    rw [at_update, has.isSocket]
    rfl

theorem put (changed : TcpSocket) :
    HasTcp (state.putTcp handle changed) cap handle changed where
  held := has.held
  plain := has.plain
  isSocket := by
    unfold putTcp
    rw [at_put has.isSocket, if_pos rfl]

theorem set_state (next : SocketState) : HasTcp (state.setState cap next) cap handle socket := by
  unfold setState SocketTable.setState
  split
  · exact ⟨has.held, has.plain, has.isSocket⟩
  · exact has

theorem get_tcp : state.sockets.getTcp handle = .ok socket := by
  unfold SocketSet.getTcp
  rw [has.isSocket]

theorem try_promote :
    ∃ after, state.tryPromote cap = .ok after ∧ HasTcp after cap handle socket := by
  unfold tryPromote
  split
  · rw [has.held]
    dsimp only
    rw [has.get_tcp]
    dsimp only [bind, Except.bind]
    split
    · exact ⟨_, rfl, has.set_state .connected⟩
    · exact ⟨state, rfl, has⟩
  · exact ⟨state, rfl, has⟩

theorem tcp_send (data : List Byte) :
    ∃ after, state.tcpSend cap data = .ok (after, sendTyped (.data (le32 (socket.take data).2))) ∧
      HasTcp after cap handle (socket.take data).1 := by
  unfold tcpSend
  rw [has.plain]
  obtain ⟨_, ran, promotedHas⟩ := has.try_promote
  rw [ran]
  dsimp only [bind, Except.bind]
  rw [promotedHas.held]
  dsimp only
  rw [promotedHas.get_tcp]
  exact ⟨_, rfl, promotedHas.put _⟩

theorem tcp_recv (bufLen : Nat) :
    (∃ after, state.tcpRecv cap bufLen =
        .ok (after, sendTyped (.data (socket.rx.take (min bufLen 4096)))) ∧
      HasTcp after cap handle { socket with rx := socket.rx.drop (min bufLen 4096) }) ∨
    ∃ after response, state.tcpRecv cap bufLen = .ok (after, sendTyped response) ∧
      (response = .data [] ∨ response = .err 0xFF) ∧ HasTcp after cap handle socket := by
  unfold tcpRecv
  rw [has.plain, if_neg Bool.false_ne_true]
  obtain ⟨promoted, ran, promotedHas⟩ := has.try_promote
  rw [ran]
  dsimp only [bind, Except.bind]
  rw [promotedHas.held]
  dsimp only
  rw [promotedHas.get_tcp]
  dsimp only
  by_cases ready : socket.canRecv = true
  · left
    have may : socket.mayRecv = true := (Bool.and_eq_true _ _ ▸ ready : _ ∧ _).1
    rw [if_pos ready]
    unfold TcpSocket.recvSlice
    rw [if_pos may]
    exact ⟨_, rfl, promotedHas.put _⟩
  · right
    rw [if_neg ready]
    split
    · exact ⟨promoted, _, rfl, .inl rfl, promotedHas⟩
    · exact ⟨promoted, _, rfl, .inr rfl, promotedHas⟩

end

end HasTcp

end NetState

namespace TcpStream

variable {stream after : TcpStream} {handle : Nat} {socket : TcpSocket}

/-- The socket took exactly what was reported as written, and what reads have not
returned of its input is still in its queue. -/
structure Flows (stream : TcpStream) (handle : Nat) (socket : TcpSocket) : Prop where
  has : NetState.HasTcp stream.net stream.id handle socket
  sent : socket.accepted = stream.written.flatten
  got : socket.received = stream.returned ++ socket.rx
  chunk : ∀ chunk stalls, stream.phase = .writing chunk stalls →
    chunk ≠ [] ∧ chunk.length ≤ maxTcpWrite

theorem socket_of_has (has : NetState.HasTcp stream.net stream.id handle socket) :
    stream.socket? = some (handle, socket) := by
  unfold socket?
  rw [has.held]
  dsimp only
  rw [has.isSocket]

theorem send_count (count : Nat) :
    sendTyped (.data (le32 count)) = .typed (.data (le32 count)) := by
  have length : (le32 count).length = 4 := length_encode 4 count
  have fits : (NetResponse.data (le32 count)).encodedLen ≤ ipcBufSize := by
    change 1 + varintLen (le32 count).length + (le32 count).length ≤ ipcBufSize
    rw [length]
    decide
  exact if_pos fits

theorem client_send_count {chunk : List Byte} {count : Nat} (small : count < 2 ^ 32) :
    NetClient.tcpSend chunk (.data (le32 count)) =
      if count = chunk.length then .ok () else .error .wouldBlock := by
  have length : (le32 count).length = 4 := length_encode 4 count
  have decoded : decodeLE ((le32 count).take 4) = count := by
    exact (decode_encode 4 count).trans (Nat.mod_eq_of_lt small)
  unfold NetClient.tcpSend
  dsimp only
  rw [length, if_pos (le_refl 4), decoded]

theorem after_refused {chunk : List Byte} {stalls : Nat} (nonempty : chunk ≠ []) :
    ∃ phase, afterSend stream chunk stalls (sendTyped (.data (le32 0))) = { stream with phase } ∧
      (phase = .idle ∨ phase = .writing chunk (stalls + 1)) := by
  have short : ¬ 0 = chunk.length := fun same => nonempty (length_eq_zero_iff.mp same.symm)
  rw [send_count, afterSend, client_send_count (by decide), if_neg short]
  dsimp only
  split
  · exact ⟨_, rfl, .inl rfl⟩
  · exact ⟨_, rfl, .inr rfl⟩

theorem after_taken {chunk : List Byte} {stalls : Nat} (small : chunk.length ≤ maxTcpWrite) :
    afterSend stream chunk stalls (sendTyped (.data (le32 chunk.length))) =
      { stream with phase := .idle, written := stream.written ++ [chunk] } := by
  have bound : chunk.length < 2 ^ 32 := small.trans_lt (by decide)
  rw [send_count, afterSend, client_send_count bound, if_pos rfl]

theorem Flows.write_attempt (flows : Flows stream handle socket) {env : Surroundings}
    {chunk : List Byte} {stalls : Nat} (writing : stream.phase = .writing chunk stalls)
    (whole : MovesWhole stream (.attempt env)) (moved : stream.step (.attempt env) = some after) :
    ∃ socket, Flows after handle socket := by
  obtain ⟨nonempty, small⟩ := flows.chunk chunk stalls writing
  have polled := flows.has.poll env.before
  obtain ⟨served, ran, taken⟩ := polled.tcp_send chunk
  have answered : stream.net.handleRequest env (.typed (.tcpSend stream.id chunk)) =
      .ok (served.poll env.after,
        sendTyped (.data (le32 ((socket.polled (env.before handle)).take chunk).2))) := by
    rw [NetState.handleRequest, NetState.handleTyped, ran]
    rfl
  have fits : (socket.polled (env.before handle)).canSend = false ∨
      chunk.length ≤ TcpSocket.bufferSize - (socket.polled (env.before handle)).tx.length := by
    unfold MovesWhole movesWhole at whole
    rw [writing, socket_of_has flows.has] at whole
    simpa only [Bool.or_eq_true, Bool.not_eq_true', decide_eq_true_eq] using whole
  have settled := taken.poll env.after
  unfold step at moved
  rw [writing] at moved
  dsimp only at moved
  rw [answered] at moved
  have isAfter := Option.some.inj moved
  rcases TcpSocket.take_cases fits with ⟨none, same⟩ | ⟨all, accepted, rx, received⟩
  · rw [none] at isAfter
    rw [same] at settled
    obtain ⟨phase, out, isPhase⟩ := @after_refused
      { stream with net := served.poll env.after, phase := .writing chunk stalls } chunk stalls
      nonempty
    rw [out] at isAfter
    subst isAfter
    refine ⟨_, settled, flows.sent,
      TcpSocket.polled_received _ (TcpSocket.polled_received _ flows.got), ?_⟩
    intro other count isWriting
    rcases isPhase with idle | again
    · exact absurd (idle.symm.trans isWriting) (fun wrong => by cases wrong)
    · cases again.symm.trans isWriting
      exact ⟨nonempty, small⟩
  · rw [all, after_taken small] at isAfter
    subst isAfter
    have kept : ((socket.polled (env.before handle)).take chunk).1.received =
        stream.returned ++ ((socket.polled (env.before handle)).take chunk).1.rx := by
      rw [received, rx]
      exact TcpSocket.polled_received _ flows.got
    refine ⟨_, settled, ?_, TcpSocket.polled_received _ kept, fun other count isWriting => by
      cases isWriting⟩
    dsimp only
    rw [TcpSocket.polled_accepted, accepted, TcpSocket.polled_accepted, flows.sent,
      flatten_append, flatten_singleton]

theorem after_data {room : Nat} {data : List Byte} (fits : (NetResponse.data data).encodedLen ≤ ipcBufSize)
    (small : data.length ≤ room) :
    ∃ phase, afterRecv stream room (sendTyped (.data data)) =
        { stream with phase, returned := stream.returned ++ data } ∧
      (phase = .idle ∨ phase = stream.phase) := by
  have sent : sendTyped (.data data) = .typed (.data data) := if_pos fits
  rw [sent, afterRecv, NetClient.tcpRecv]
  dsimp only
  split
  next empty =>
    have isNil : data = [] := isEmpty_iff.mp empty
    rw [isNil, append_nil]
    exact ⟨stream.phase, rfl, .inr rfl⟩
  next =>
    rw [take_of_length_le small]
    exact ⟨.idle, rfl, .inl rfl⟩

theorem Flows.read_attempt (flows : Flows stream handle socket) {env : Surroundings} {room : Nat}
    (reading : stream.phase = .reading room) (whole : MovesWhole stream (.attempt env))
    (moved : stream.step (.attempt env) = some after) : ∃ socket, Flows after handle socket := by
  have polled := flows.has.poll env.before
  have got := TcpSocket.polled_received (env.before handle) flows.got
  have fits : (NetResponse.data ((socket.polled (env.before handle)).rx.take
      (min (min room (2 ^ 32 - 1)) 4096))).encodedLen ≤ ipcBufSize := by
    unfold MovesWhole movesWhole at whole
    rw [reading, socket_of_has flows.has] at whole
    exact of_decide_eq_true whole
  unfold step at moved
  rw [reading] at moved
  dsimp only at moved
  rw [NetState.handleRequest, NetState.handleTyped] at moved
  -- reads leave the phase at `reading` or `idle`, so no chunk is under way afterwards
  have noChunk : ∀ {phase : StreamPhase}, phase = .idle ∨ phase = .reading room →
      ∀ chunk stalls, phase = .writing chunk stalls → chunk ≠ [] ∧ chunk.length ≤ maxTcpWrite := by
    rintro phase (rfl | rfl) chunk stalls isWriting <;> cases isWriting
  rcases polled.tcp_recv (min room (2 ^ 32 - 1)) with
    ⟨served, ran, taken⟩ | ⟨served, response, ran, answer, same⟩
  · rw [ran] at moved
    have isAfter := Option.some.inj moved
    have small : ((socket.polled (env.before handle)).rx.take
        (min (min room (2 ^ 32 - 1)) 4096)).length ≤ room := by
      rw [length_take]
      omega
    obtain ⟨phase, out, isPhase⟩ := @after_data
      { stream with net := served.poll env.after, phase := .reading room } room _ fits small
    rw [out] at isAfter
    subst isAfter
    refine ⟨_, taken.poll env.after, flows.sent, TcpSocket.polled_received _ ?_, noChunk isPhase⟩
    dsimp only
    rw [append_assoc, take_append_drop]
    exact got
  · rw [ran] at moved
    have isAfter := Option.some.inj moved
    have settled := same.poll env.after
    have kept := TcpSocket.polled_received (env.after handle) got
    rcases answer with rfl | rfl
    · obtain ⟨phase, out, isPhase⟩ := @after_data
        { stream with net := served.poll env.after, phase := .reading room } room [] (by decide)
          (Nat.zero_le room)
      rw [out, append_nil] at isAfter
      subst isAfter
      exact ⟨_, settled, flows.sent, kept, noChunk isPhase⟩
    · subst isAfter
      exact ⟨_, settled, flows.sent, kept, noChunk (.inl rfl)⟩

theorem Flows.step {event : StreamEvent} (flows : Flows stream handle socket)
    (whole : MovesWhole stream event) (ran : stream.step event = some after) :
    ∃ socket, Flows after handle socket := by
  cases event with
  | write buf =>
    unfold TcpStream.step at ran
    dsimp only at ran
    split at ran
    · split at ran
      · cases ran
        exact ⟨socket, flows⟩
      next nonempty =>
        cases ran
        refine ⟨socket, flows.has, flows.sent, flows.got, ?_⟩
        intro chunk stalls isWriting
        cases isWriting
        have some : buf ≠ [] := fun isNil => nonempty (isEmpty_iff.mpr isNil)
        refine ⟨fun none => ?_, length_take_le _ _⟩
        rcases take_eq_nil_iff.mp none with zero | isNil
        · exact absurd zero (by decide)
        · exact some isNil
    · cases ran
  | read =>
    unfold TcpStream.step at ran
    dsimp only at ran
    split at ran
    · cases ran
      exact ⟨socket, flows.has, flows.sent, flows.got, fun _ _ isWriting => by cases isWriting⟩
    · cases ran
  | attempt =>
    cases phase : stream.phase with
    | writing => exact flows.write_attempt phase whole ran
    | reading => exact flows.read_attempt phase whole ran
    | idle =>
      unfold TcpStream.step at ran
      rw [phase] at ran
      cases ran
    | unanswered =>
      unfold TcpStream.step at ran
      rw [phase] at ran
      cases ran

/-- In a run whose attempts move their bytes whole, the socket took the written chunks
in order, and the returned bytes with those still queued are all it received. -/
theorem stream_moves_all_bytes {net : NetState} {id : Nat} {finish : TcpStream}
    (has : NetState.HasTcp net id handle socket) (unsent : socket.accepted = [])
    (unread : socket.received = socket.rx)
    (reached : Reaches TcpStream.step MovesWhole (opened net id) finish) :
    ∃ now, finish.socket? = some (handle, now) ∧ now.accepted = finish.written.flatten ∧
      now.received = finish.returned ++ now.rx := by
  have start : ∃ socket, Flows (opened net id) handle socket :=
    ⟨socket, has, unsent, unread, fun _ _ isWriting => by cases isWriting⟩
  have preserved : ∀ before event after, (∃ socket, Flows before handle socket) →
      MovesWhole before event → TcpStream.step before event = some after →
      ∃ socket, Flows after handle socket := by
    intro before event after flowing whole stepped
    obtain ⟨socket, flows⟩ := flowing
    exact flows.step whole stepped
  obtain ⟨now, flows⟩ := reached.invariant preserved start
  exact ⟨now, socket_of_has flows.has, flows.sent, flows.got⟩

def wired (wire : Wire) : Surroundings := { Surroundings.quiet with before := fun _ => wire }

def connected : NetState :=
  let answered : Surroundings :=
    { Surroundings.quiet with routable := true, after := fun _ => ⟨some .established, 0, []⟩ }
  match NetState.new.handleRequest answered (.typed (.tcpConnect [10, 0, 2, 2] 80)) with
  | .ok (net, _) => net
  | .error _ => .new

def exchange : List StreamEvent :=
  [.write [1, 2, 3], .attempt .quiet, .read 2, .attempt .quiet,
    .attempt (wired ⟨none, 3, [7, 8, 9]⟩)]

theorem exchange_moves_all_bytes :
    let finish := finalState TcpStream.step (opened connected 1) exchange
    finish.written = [[1, 2, 3]] ∧ finish.returned = [7, 8] ∧
      ∃ now, finish.socket? = some (1, now) ∧ now.accepted = finish.written.flatten ∧
        now.received = finish.returned ++ now.rx := by
  have has : NetState.HasTcp connected 1 1 ⟨.established, [], [], [], []⟩ :=
    ⟨by decide +kernel, by decide +kernel, by decide +kernel⟩
  refine ⟨by decide +kernel, by decide +kernel, ?_⟩
  exact stream_moves_all_bytes has rfl rfl
    (reaches_final (by decide +kernel) (by decide +kernel))

/-- The third attempt finds room for 256 of its 300 bytes and is made again. -/
def retried : List StreamEvent :=
  [.write (replicate 3840 0), .attempt .quiet, .write (replicate 300 1),
    .attempt .quiet, .attempt (wired ⟨none, 4096, []⟩)]

def fullRead : List StreamEvent :=
  [.read 4096, .attempt (wired ⟨none, 0, replicate 4096 7⟩)]

/-- A chunk taken in part is put into the socket again, and bytes read from the socket
are dropped with a response that does not fit its message. -/
theorem bytes_repeated_and_lost :
    (runEvents TcpStream.step (opened connected 1) retried).map (fun finish =>
        (finish.written.flatten.length, finish.socket?.map (fun held => held.2.accepted.length))) =
      some (4140, some 4396) ∧
    (runEvents TcpStream.step (opened connected 1) fullRead).map (fun finish =>
        (finish.returned, finish.socket?.map (fun held => (held.2.received.length, held.2.rx)))) =
      some ([], some (4096, [])) := by
  constructor <;> decide +kernel

end TcpStream

end ViCell.Net

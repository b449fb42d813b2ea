import ViCell.Net.Handlers

/-!
# Runs of the net service

Over whole runs: which requests reach a socket of the wrong kind, and that the
socket table stays in step with the sockets. Numbers of capabilities travel to
consumers in 32 bits, although the table counts in 64.
-/

namespace ViCell.Net

open Lib TreeMaps List Option Bytes SlotSet Std.TreeMap

structure NetCall where
  env : Surroundings
  message : Message

namespace NetState

variable {state : NetState} {cap handle : Nat}

def step (state : NetState) (call : NetCall) : Option NetState :=
  match state.handleRequest call.env call.message with
  | .ok (after, _) => some after
  | .error _ => none

theorem kind_at_new (handle : Nat) :
    NetState.new.sockets.kindAt handle = if handle = 0 then some .dhcp else none := by
  unfold SocketSet.kindAt
  rw [show at? NetState.new.sockets handle = _ from at_put_of_lt (by decide)]
  split
  · rfl
  · rw [at_empty]
    rfl

theorem consistent_new : Consistent NetState.new := by
  have none : ∀ cap, NetState.new.table.get cap = none := fun _ => getElem?_emptyc
  constructor
  · intro cap handle held
    cases held
  · intro cap other handle held
    cases held
  · intro handle kind isKind real
    rw [kind_at_new] at isKind
    split at isKind
    · exact absurd (some.inj isKind).symm real
    · cases isKind
  · intro cap kept held
    cases (getElem?_emptyc.symm.trans held)
  · intro cap kept held
    cases (getElem?_emptyc.symm.trans held)
  · intro cap isUdp
    unfold SocketTable.kindOf SocketTable.isUdp at isUdp
    cases isUdp
  · intro cap handle held
    cases (getElem?_emptyc.symm.trans held)
  · intro cap handle held
    cases (getElem?_emptyc.symm.trans held)
  · exact Nat.zero_le _

instance : Decidable (NamesUdp state cap) :=
  inferInstanceAs (Decidable (state.table.get cap ≠ none → state.table.kindOf cap = .udp))

instance (message : Message) : Decidable (NamesOwnKind state message) :=
  inferInstanceAs (Decidable (∀ cap ∈ message.udpCap, NamesUdp state cap))

/-- A UDP request names no TCP capability, and a new number is not in use. -/
def KeepsKinds (state : NetState) (call : NetCall) : Prop :=
  NamesOwnKind state call.message ∧
    (call.message.creates = true → state.table.get state.table.nextCap = none)

instance (call : NetCall) : Decidable (KeepsKinds state call) :=
  inferInstanceAs (Decidable (_ ∧ (_ → _)))

theorem udp_request_wrong (sound : Consistent state) {env : Surroundings} {msg : Message}
    (names : msg.udpCap = some cap) (held : state.table.get cap = some handle)
    (isTcp : state.table.kindOf cap = .tcp) :
    state.handleRequest env msg = .error .wrongKind := by
  have polled := (sound.poll env.before).owned cap handle held
  have wrong : (state.poll env.before).sockets.getUdp handle = .error .wrongKind := by
    apply SocketSet.get_udp_wrong
    rw [polled]
    exact congrArg some isTcp
  have here : (state.poll env.before).table.get cap = some handle := held
  cases msg with
  | raw => cases names
  | typed request =>
    cases request with
    | udpSend =>
      cases names
      rw [handleRequest, handleTyped, udpSend, here]
      dsimp only
      rw [wrong]
      rfl
    | udpRecv =>
      cases names
      rw [handleRequest, handleTyped, udpRecv, here]
      dsimp only
      rw [wrong]
      rfl
    | udpBind _ port =>
      cases names
      obtain ⟨_, _, choice⟩ := @bind_port_cases (state.poll env.before) port
      rw [handleRequest, handleTyped, udpBind, choice]
      dsimp only
      rw [here]
      dsimp only
      rw [wrong]
      rfl
    | _ => cases names

theorem reached_consistent (reached : Reaches step KeepsKinds NetState.new state) :
    Consistent state := by
  apply reached.invariant _ consistent_new
  intro was call after sound meets ran
  have safe := @handle_request_safe was call.env sound call.message meets.2 meets.1
  unfold step at ran
  cases outcome : was.handleRequest call.env call.message with
  | error =>
    rw [outcome] at ran
    cases ran
  | ok =>
    rw [outcome] at ran safe
    cases ran
    exact safe.consistent

/-- In a run whose UDP requests name no TCP capability, no message asks for a socket
of the wrong kind; one that does name a TCP capability stops the service. -/
theorem wrong_kind_only_by_name (reached : Reaches step KeepsKinds NetState.new state) :
    (∀ call, KeepsKinds state call →
      state.handleRequest call.env call.message ≠ .error .wrongKind) ∧
    ∀ call : NetCall, ¬ NamesOwnKind state call.message →
      state.handleRequest call.env call.message = .error .wrongKind := by
  have consistent := reached_consistent reached
  constructor
  · intro call meets wrong
    have safe := @handle_request_safe state call.env consistent call.message meets.2 meets.1
    rw [wrong] at safe
    exact safe rfl
  · intro call misnamed
    unfold NamesOwnKind at misnamed
    push Not at misnamed
    obtain ⟨cap, names, wrongName⟩ := misnamed
    unfold NamesUdp at wrongName
    push Not at wrongName
    obtain ⟨known, notUdp⟩ := wrongName
    obtain ⟨_, held⟩ := ne_none_iff_exists'.mp known
    have isTcp : state.table.kindOf cap = .tcp := by
      cases kind : state.table.kindOf cap with
      | tcp => rfl
      | udp => exact absurd kind notUdp
      | dhcp => exact absurd kind SocketTable.kind_of_ne_dhcp
    exact udp_request_wrong consistent names held isTcp

def quietly (request : NetRequest) : NetCall := ⟨.quiet, .typed request⟩

def listenAndBind : List NetCall :=
  [quietly (.tcpListen 80), quietly .udpCreate, quietly (.udpBind 2 53),
    quietly (.tcpSend 2 [1]), quietly (.tcpAccept 1), quietly (.tcpClose 1)]

theorem listen_and_bind_stays :
    let state := finalState step NetState.new listenAndBind
    KeepsKinds state (quietly (.udpRecv 2 16)) ∧
      state.handleRequest .quiet (.typed (.udpRecv 2 16)) ≠ .error .wrongKind := by
  intro state
  have reached : Reaches step KeepsKinds NetState.new state :=
    reaches_final (by decide +kernel) (by decide +kernel)
  have meets : KeepsKinds state (quietly (.udpRecv 2 16)) := by decide +kernel
  exact ⟨meets, (wrong_kind_only_by_name reached).1 _ meets⟩

/-- Binding the capability of a listener as a UDP socket stops the service. -/
theorem listener_bound_as_udp :
    (step NetState.new (quietly (.tcpListen 80))).map (fun state =>
      match state.handleRequest .quiet (.typed (.udpBind 1 53)) with
      | .ok _ => none
      | .error panic => some panic) = some (some .wrongKind) := by
  decide +kernel

end NetState

/-- The service beside the numbers that it has given out. -/
structure TracedNet where
  net : NetState
  given : List Nat

namespace TracedNet

def new : TracedNet := ⟨NetState.new, []⟩

def step (state : TracedNet) (call : NetCall) : Option TracedNet :=
  match state.net.handleRequest call.env call.message with
  | .ok (after, reply) =>
    some ⟨after, state.given ++ (NetState.numberGiven call.message reply).toList⟩
  | .error _ => none

def CounterFits (state : TracedNet) (call : NetCall) : Prop :=
  call.message.creates = true → state.net.table.nextCap < 2 ^ 32

instance (state : TracedNet) (call : NetCall) : Decidable (CounterFits state call) :=
  inferInstanceAs (Decidable (_ → _))

/-- Beside consistency: numbers in use and numbers given out lie below the counter. -/
structure Counted (state : TracedNet) : Prop where
  consistent : Consistent state.net
  bound : state.net.table.nextCap ≤ 2 ^ 32
  caps : ∀ cap, state.net.table.get cap ≠ none → cap < state.net.table.nextCap
  below : ∀ number ∈ state.given, number < state.net.table.nextCap
  distinct : state.given.Nodup

theorem counted_new : Counted new where
  consistent := NetState.consistent_new
  bound := by decide
  caps cap held := absurd getElem?_emptyc held
  below _ member := absurd member not_mem_nil
  distinct := nodup_nil

variable {state after : TracedNet} {call : NetCall}

theorem Counted.free (counted : Counted state) :
    state.net.table.get state.net.table.nextCap = none := by
  by_contra held
  exact absurd (counted.caps _ held) (Nat.lt_irrefl _)

theorem names_own_kind (sound : Consistent state.net)
    (returned : ∀ panic, state.net.handleRequest call.env call.message ≠ .error panic) :
    NetState.NamesOwnKind state.net call.message := by
  intro cap names known
  obtain ⟨_, held⟩ := ne_none_iff_exists'.mp known
  cases kind : state.net.table.kindOf cap with
  | udp => rfl
  | tcp => exact absurd (NetState.udp_request_wrong sound names held kind) (returned _)
  | dhcp => exact absurd kind SocketTable.kind_of_ne_dhcp

theorem Counted.handled {final : NetState} {number : Option Nat} (counted : Counted state)
    (fits : CounterFits state call)
    (handled : Handled call.message.creates state.net final number) :
    Counted ⟨final, state.given ++ number.toList⟩ := by
  have bound := counted.bound
  have next : (state.net.table.nextCap + 1) % 2 ^ 64 = state.net.table.nextCap + 1 := by omega
  have given := handled.given
  have caps := handled.caps
  have counter := handled.counter
  rw [next] at given caps counter
  -- The counter moves for a request that creates, and then it fitted 32 bits before.
  have small : final.table.nextCap = state.net.table.nextCap + 1 →
      state.net.table.nextCap < 2 ^ 32 := by
    intro moved
    cases creates : call.message.creates with
    | true => exact fits creates
    | false =>
      have same := handled.quiet creates
      omega
  constructor
  · exact handled.consistent
  · rcases counter with same | moved
    · exact same.le.trans bound
    · exact moved.le.trans (small moved)
  · intro cap held
    rcases caps cap held with known | ⟨same, moved⟩
    · have earlier := counted.caps cap known
      dsimp only
      omega
    · dsimp only
      omega
  · intro shown mem
    dsimp only
    rcases mem_append.mp mem with was | now
    · have earlier := counted.below shown was
      omega
    · rw [mem_toList] at now
      obtain ⟨value, moved⟩ := given shown now
      omega
  · rw [nodup_append]
    have single : number.toList.Nodup := by cases number <;> simp
    refine ⟨counted.distinct, single, ?_⟩
    intro earlier was shown now
    rw [mem_toList] at now
    obtain ⟨value, moved⟩ := given shown now
    have below := counted.below earlier was
    omega

theorem Counted.step (counted : Counted state) (fits : CounterFits state call)
    (ran : TracedNet.step state call = some after) : Counted after := by
  unfold TracedNet.step at ran
  cases outcome : state.net.handleRequest call.env call.message with
  | error =>
    rw [outcome] at ran
    cases ran
  | ok out =>
    obtain ⟨final, reply⟩ := out
    rw [outcome] at ran
    cases ran
    have named : NetState.NamesOwnKind state.net call.message :=
      names_own_kind counted.consistent (fun panic same => by rw [outcome] at same; cases same)
    have safe := @NetState.handle_request_safe state.net call.env counted.consistent
      call.message (fun _ => counted.free) named
    rw [outcome] at safe
    have handled : Handled call.message.creates state.net final
      (NetState.numberGiven call.message reply) := safe
    exact counted.handled fits handled

/-- In a run whose requests for new capabilities find a counter of 32 bits, the table
and the sockets stay in step and no number is given out twice. -/
theorem table_consistent (reached : Reaches TracedNet.step CounterFits new state) :
    Consistent state.net ∧ state.given.Nodup := by
  have counted : Counted state := by
    apply reached.invariant _ counted_new
    intro before call after counted fits stepped
    exact counted.step fits stepped
  exact ⟨counted.consistent, counted.distinct⟩

/-- An established listener is accepted, a connection is refused for its port, a UDP
socket is made and the listener closed. -/
def mixedCalls : List NetCall :=
  [NetState.quietly (.tcpListen 80),
    ⟨{ Surroundings.quiet with before := fun _ => ⟨some .established, 0, []⟩ },
      .typed (.tcpAccept 1)⟩,
    NetState.quietly (.tcpConnect [10, 0, 2, 2] 0),
    NetState.quietly .udpCreate,
    NetState.quietly (.tcpClose 1),
    ⟨.quiet, .raw ([0x30, 0, 0, 0, 0, 0, 0, 0, 0, 10, 0, 2, 2, 187, 1, 104])⟩]

theorem mixed_calls_consistent : (finalState TracedNet.step new mixedCalls).given = [1, 2, 4, 5] ∧
    Consistent (finalState TracedNet.step new mixedCalls).net ∧
    (finalState TracedNet.step new mixedCalls).given.Nodup := by
  have reached : Reaches TracedNet.step CounterFits new (finalState TracedNet.step new mixedCalls) :=
    reaches_final (by decide +kernel) (by decide +kernel)
  exact ⟨by decide +kernel, table_consistent reached⟩

def rawClose (cap : Nat) : NetCall := ⟨.quiet, .raw (0x15 :: encodeLE 8 cap)⟩

def cycles : Nat → List NetCall
  | 0 => []
  | count + 1 => cycles count ++ [NetState.quietly .udpCreate, rawClose (count + 1)]

structure Idle (count : Nat) (net : NetState) : Prop where
  sockets : net.sockets = NetState.new.sockets
  empty : net.table.entries.size = 0
  counter : net.table.nextCap = count + 1

structure Busy (count : Nat) (net : NetState) : Prop where
  sockets : net.sockets = put NetState.new.sockets 1 (.udp none)
  held : net.table.entries[count + 1]? = some 1
  single : (net.table.entries.erase (count + 1)).size = 0
  counter : net.table.nextCap = count + 2

theorem send_cap_id {id : Nat} (small : id < 2 ^ 32) :
    sendTyped (.capId id) = .typed (.capId id) := by
  have bits : Nat.log2 id < 32 := by
    by_cases zero : id = 0
    · rw [zero]
      decide
    · exact (Nat.log2_lt zero).mpr small
  have fits : 1 + varintLen id ≤ ipcBufSize := by
    unfold varintLen ipcBufSize
    omega
  exact if_pos fits

theorem idle_create {count : Nat} {state : TracedNet} (idle : Idle count state.net)
    (small : count < 2 ^ 62) :
    ∃ net, TracedNet.step state (NetState.quietly .udpCreate) =
      some ⟨net, state.given ++ [(count + 1) % 2 ^ 32]⟩ ∧ Busy count net := by
  have sockets : (state.net.poll fun _ => .quiet).sockets = NetState.new.sockets := by
    unfold NetState.poll
    rw [idle.sockets]
    rfl
  have added : SocketSet.add (state.net.poll fun _ => .quiet).sockets (.udp none) =
      .ok (SlotSet.put NetState.new.sockets 1 (.udp none), 1) := by
    rw [sockets]
    rfl
  have roomy : ¬ state.net.table.entries.size ≥ maxSockets := by
    rw [idle.empty]
    decide
  have inserted : (state.net.poll fun _ => .quiet).table.insert 1 = some ({ state.net.table with
        nextCap := (count + 2) % 2 ^ 64
        entries := state.net.table.entries.insert (count + 1) 1
        states := state.net.table.states.insert (count + 1) .created }, count + 1) := by
    unfold SocketTable.insert SocketTable.insertWithState
    rw [show (state.net.poll fun _ => .quiet).table = state.net.table from rfl, if_neg roomy,
      idle.counter]
  have answered : ∃ net, state.net.handleRequest .quiet (.typed .udpCreate) =
      .ok (net, sendTyped (.capId ((count + 1) % 2 ^ 32))) ∧ Busy count net := by
    rw [NetState.handleRequest, NetState.handleTyped, NetState.udpCreate,
      show Surroundings.quiet.before = fun _ => Wire.quiet from rfl, added]
    dsimp only [bind, Except.bind]
    rw [inserted]
    refine ⟨_, rfl, rfl, ?_, ?_, ?_⟩
    · exact getElem?_insert_self
    · have grown := @size_insert_le _ _ _ state.net.table.entries _ (count + 1) 1
      rw [idle.empty] at grown
      change ((state.net.table.entries.insert (count + 1) 1).erase (count + 1)).size = 0
      rw [size_erase, if_pos contains_insert_self]
      omega
    · exact Nat.mod_eq_of_lt (by omega)
  obtain ⟨net, answer, busy⟩ := answered
  refine ⟨net, ?_, busy⟩
  unfold TracedNet.step NetState.quietly
  rw [answer]
  rw [send_cap_id (Nat.mod_lt _ (by decide))]
  rfl

theorem busy_close {count : Nat} {state : TracedNet} (busy : Busy count state.net)
    (small : count < 2 ^ 62) :
    ∃ net, TracedNet.step state (rawClose (count + 1)) = some ⟨net, state.given⟩ ∧
      Idle (count + 1) net := by
  have sockets : (state.net.poll fun _ => .quiet).sockets =
      put NetState.new.sockets 1 (.udp none) := by
    unfold NetState.poll
    rw [busy.sockets]
    rfl
  have removed : SocketSet.remove (state.net.poll fun _ => .quiet).sockets 1 =
      .ok NetState.new.sockets := by
    rw [sockets]
    rfl
  have named : decodeLE
      (((0x15 :: encodeLE 8 (count + 1)).drop 1).take 8) = count + 1 := by
    rw [drop_one, tail_cons, take_of_length_le (by rw [length_encode]), decode_encode]
    exact Nat.mod_eq_of_lt (by omega)
  have answered : ∃ net, state.net.handleRequest .quiet
      (.raw (0x15 :: encodeLE 8 (count + 1))) = .ok (net, .raw [0x00]) ∧ Idle (count + 1) net := by
    rw [NetState.handleRequest, headD_cons, if_pos (by decide), NetState.handleTlsRaw]
    rw [headD_cons, if_pos rfl, named, NetState.close]
    dsimp only
    rw [show ((state.net.poll Surroundings.quiet.before).table.remove (count + 1)).2 = some 1 from
      busy.held]
    dsimp only
    rw [show Surroundings.quiet.before = fun _ => Wire.quiet from rfl, removed]
    refine ⟨_, rfl, rfl, ?_, ?_⟩
    · exact busy.single
    · exact busy.counter
  obtain ⟨net, answer, idle⟩ := answered
  refine ⟨net, ?_, idle⟩
  unfold TracedNet.step rawClose
  rw [answer]
  dsimp only
  rw [show NetState.numberGiven (.raw (0x15 :: encodeLE 8 (count + 1))) (.raw [0x00]) = none
    from rfl, toList_none, append_nil]

theorem cycles_idle {count : Nat} (small : count < 2 ^ 62) :
    ∃ state, runEvents TracedNet.step new (cycles count) = some state ∧ Idle count state.net ∧
      (0 < count → 1 ∈ state.given) := by
  induction count with
  | zero => exact ⟨new, rfl, ⟨rfl, rfl, rfl⟩, fun pos => absurd pos (Nat.lt_irrefl 0)⟩
  | succ count ih =>
    obtain ⟨was, ran, idle, first⟩ := ih (by omega)
    obtain ⟨opened, created, busy⟩ := idle_create idle (by omega)
    obtain ⟨closed, released, later⟩ := @busy_close count
      ⟨opened, was.given ++ [(count + 1) % 2 ^ 32]⟩ busy (by omega)
    refine ⟨⟨closed, was.given ++ [(count + 1) % 2 ^ 32]⟩, ?_, later, ?_⟩
    · rw [cycles, run_append, ran, bind_some, runEvents, created, bind_some,
        runEvents, released, bind_some, runEvents]
    · intro _
      rw [mem_append]
      by_cases start : count = 0
      · right
        rw [start]
        decide
      · exact .inl (first (by omega))

/-- After 2^32 sockets the next capability goes out as number 1 again. -/
theorem number_given_twice :
    ∃ state, runEvents TracedNet.step new (cycles (2 ^ 32) ++ [NetState.quietly .udpCreate]) =
      some state ∧ ¬ state.given.Nodup := by
  obtain ⟨before, ran, idle, first⟩ := @cycles_idle (2 ^ 32) (by decide)
  obtain ⟨opened, created, _⟩ := idle_create idle (by decide)
  refine ⟨⟨opened, before.given ++ [(2 ^ 32 + 1) % 2 ^ 32]⟩, ?_, ?_⟩
  · rw [run_append, ran, bind_some, runEvents, created, bind_some, runEvents]
  · intro distinct
    have again : 1 ∈ [(2 ^ 32 + 1) % 2 ^ 32] := by decide
    exact (nodup_append.mp distinct).2.2 1 (first (by decide)) 1 again rfl

end TracedNet

end ViCell.Net

import ViCell.Net.Ownership

/-!
# What every handler leaves behind

One lemma per handler of the service. In a consistent state whose next number is
free where the message needs one, a handler that returns leaves a consistent state,
moves the counter by at most one and gives out no number but the one it took.
-/

namespace ViCell.Net

open Lib TreeMaps Option Bytes SocketTable SocketSet

def typedNumber : Reply → Option Nat
  | .typed (.capId id) => some id
  | _ => none

def rawNumber : Reply → Option Nat
  | .raw bytes => if decodeLE bytes = 0 then none else some (decodeLE bytes)
  | _ => none

theorem typed_number_send {response : NetResponse} {number : Nat}
    (given : typedNumber (sendTyped response) = some number) : response = .capId number := by
  unfold sendTyped at given
  split at given
  · cases response with
    | capId =>
      cases given
      rfl
    | data => cases given
    | addr => cases given
    | state => cases given
    | ok => cases given
    | err => cases given
  · cases given

def NetResponse.isCapId : NetResponse → Bool
  | .capId _ => true
  | _ => false

structure Kept (before after : SocketTable) : Prop where
  counter : after.nextCap = before.nextCap
  caps : ∀ cap, after.get cap ≠ none → before.get cap ≠ none

theorem Kept.refl (table : SocketTable) : Kept table table := ⟨rfl, fun _ => id⟩

/-- What a handler does beyond its own request. -/
structure Handled (creates : Bool) (before after : NetState) (number : Option Nat) : Prop where
  consistent : Consistent after
  counter : after.table.nextCap = before.table.nextCap ∨
    after.table.nextCap = (before.table.nextCap + 1) % 2 ^ 64
  caps : ∀ cap, after.table.get cap ≠ none → before.table.get cap ≠ none ∨
    (cap = before.table.nextCap ∧ after.table.nextCap = (before.table.nextCap + 1) % 2 ^ 64)
  given : ∀ given, number = some given →
    (given = before.table.nextCap % 2 ^ 32 ∨ given = before.table.nextCap % 2 ^ 64) ∧
      after.table.nextCap = (before.table.nextCap + 1) % 2 ^ 64
  quiet : creates = false → after.table.nextCap = before.table.nextCap

theorem SocketTable.kind_of_tcp {table : SocketTable} {cap : Nat} (plain : ¬ table.isUdp cap = true) :
    table.kindOf cap = .tcp :=
  if_neg plain

namespace NetState

variable {state : NetState} {env : Surroundings} {cap handle : Nat}

variable {next : SocketState} {other : Nat}

structure SameCaps (before after : SocketTable) : Prop where
  get (cap : Nat) : after.get cap = before.get cap
  kind (cap : Nat) : after.kindOf cap = before.kindOf cap
  next : after.nextCap = before.nextCap

theorem set_state_same : SameCaps state.table (state.setState cap next).table := by
  unfold setState SocketTable.setState
  split <;> exact ⟨fun _ => rfl, fun _ => rfl, rfl⟩

variable {table : SocketTable} {port : Nat}

theorem set_listen_port_same : SameCaps table (table.setListenPort cap port) := by
  unfold setListenPort
  split <;> exact ⟨fun _ => rfl, fun _ => rfl, rfl⟩

theorem set_state_kept : Kept state.table (state.setState cap next).table :=
  ⟨set_state_same.next, fun other held => set_state_same.get other ▸ held⟩

structure Made (before after : NetState) (handle cap : Nat) : Prop where
  consistent : Consistent after
  held : after.table.get cap = some handle
  isTcp : after.table.kindOf cap = .tcp
  noTls : after.tls[cap]? = none
  isNext : cap = before.table.nextCap
  counter : after.table.nextCap = (before.table.nextCap + 1) % 2 ^ 64
  caps : ∀ other, after.table.get other ≠ none → before.table.get other ≠ none ∨ other = cap

variable {after : NetState}

theorem Made.kind_at (made : Made state after handle cap) :
    after.sockets.kindAt handle = some .tcp := by
  have kind := made.consistent.owned cap handle made.held
  rw [made.isTcp] at kind
  exact kind

theorem release_kinds (held : state.table.get cap = some handle) (other : Nat) :
    kindAt (SlotSet.remove state.sockets handle) other =
      if state.table.get cap = some other then none else state.sockets.kindAt other := by
  rw [kind_at_remove, held]
  by_cases same : other = handle
  · rw [if_pos same, if_pos (congrArg some same.symm)]
  · rw [if_neg same, if_neg (fun equal => same (some.inj equal).symm)]

theorem handled_created {number : Option Nat} (consistent : Consistent after)
    (counter : after.table.nextCap = (state.table.nextCap + 1) % 2 ^ 64)
    (caps : ∀ other, after.table.get other ≠ none →
      state.table.get other ≠ none ∨ other = state.table.nextCap)
    (shown : ∀ given, number = some given →
      given = state.table.nextCap % 2 ^ 32 ∨ given = state.table.nextCap % 2 ^ 64) :
    Handled true state after number :=
  ⟨consistent, .inr counter, fun other held => (caps other held).imp_right (⟨·, counter⟩),
    fun given isGiven => ⟨shown given isGiven, counter⟩, fun plain => by cases plain⟩

theorem Made.discard_safe (made : Made state after handle cap) :
    Safely (fun final => Handled true state final none) (after.discard handle cap) := by
  apply remove_safe.bind
  rintro sockets rfl
  refine handled_created (made.consistent.release (release_kinds made.held) ?_) made.counter ?_ nofun
  · intro other found isTls
    refine ⟨?_, isTls⟩
    rintro rfl
    rw [made.noTls] at isTls
    cases isTls
  · intro other held
    obtain ⟨found, isFound⟩ := ne_none_iff_exists'.mp held
    obtain ⟨ne, was⟩ := get_remove_eq_some.mp isFound
    rcases made.caps other (by rw [was]; exact some_ne_none found) with known | same
    · exact .inl known
    · exact absurd same ne

section

variable (made : Made state after handle cap)
include made

theorem Made.put_tcp (socket : TcpSocket) : Made state (after.putTcp handle socket) handle cap :=
  { made with consistent := made.consistent.put_tcp made.kind_at }

theorem Made.poll (wires : Nat → Wire) : Made state (after.poll wires) handle cap :=
  { made with consistent := made.consistent.poll wires }

theorem Made.same {later : NetState} (same : SameCaps after.table later.table)
    (consistent : Consistent later) (tls : later.tls = after.tls) :
    Made state later handle cap where
  consistent := consistent
  held := (same.get cap).trans made.held
  isTcp := (same.kind cap).trans made.isTcp
  noTls := tls ▸ made.noTls
  isNext := made.isNext
  counter := same.next.trans made.counter
  caps other held := made.caps other (same.get other ▸ held)

theorem Made.set_state (next : SocketState) : Made state (after.setState cap next) handle cap :=
  made.same set_state_same (made.consistent.set_state (fun _ => made.noTls)) rfl

theorem Made.next_ephemeral_port : Made state after.nextEphemeralPort.1 handle cap :=
  { made with consistent := made.consistent.next_ephemeral_port }

theorem Made.set_listen_port (port : Nat) :
    Made state { after with table := after.table.setListenPort cap port } handle cap :=
  made.same set_listen_port_same (made.consistent.set_listen_port port) rfl

theorem Made.handled {number : Option Nat}
    (shown : ∀ given, number = some given → given = cap % 2 ^ 32 ∨ given = cap % 2 ^ 64) :
    Handled true state after number :=
  handled_created made.consistent made.counter
    (fun other held => made.isNext ▸ made.caps other held) (made.isNext ▸ shown)

end

variable {creates : Bool}

theorem handled_kept (consistent : Consistent after) (kept : Kept state.table after.table) :
    Handled creates state after none :=
  ⟨consistent, .inl kept.counter, fun cap held => .inl (kept.caps cap held),
    fun _ isGiven => (by cases isGiven), fun _ => kept.counter⟩

theorem cap_id_shown {cap given : Nat}
    (isGiven : typedNumber (sendTyped (.capId (cap % 2 ^ 32))) = some given) :
    given = cap % 2 ^ 32 ∨ given = cap % 2 ^ 64 := by
  have same := typed_number_send isGiven
  exact .inl (NetResponse.capId.inj same).symm

def Served (creates : Bool) (before : NetState) (result : NetState × Reply) : Prop :=
  Handled creates before result.1 (typedNumber result.2)

theorem served_silent {response : NetResponse} (handled : Handled creates state after none)
    (noCap : response.isCapId = false) :
    Safely (Served creates state) (.ok (after, sendTyped response)) := by
  refine ⟨handled.consistent, handled.counter, handled.caps, ?_, handled.quiet⟩
  intro number isGiven
  rw [typed_number_send isGiven] at noCap
  cases noCap

theorem served_plain {response : NetResponse} (consistent : Consistent after)
    (kept : Kept state.table after.table) (noCap : response.isCapId = false) :
    Safely (Served creates state) (.ok (after, sendTyped response)) :=
  served_silent (handled_kept consistent kept) noCap

theorem remove_kept : Kept state.table (state.table.remove cap).1 := by
  refine ⟨rfl, ?_⟩
  intro other held
  obtain ⟨found, isFound⟩ := ne_none_iff_exists'.mp held
  rw [(get_remove_eq_some.mp isFound).2]
  exact some_ne_none found

theorem update_handle_next {newHandle : Nat} :
    (table.updateHandle cap newHandle).nextCap = table.nextCap := by
  unfold updateHandle
  split <;> rfl

theorem update_handle_caps {newHandle : Nat}
    (known : (table.updateHandle cap newHandle).get other ≠ none) :
    table.get other ≠ none ∨ other = cap := by
  unfold updateHandle at known
  split at known
  · obtain ⟨found, isFound⟩ := ne_none_iff_exists'.mp known
    rcases get_insert_eq_some.mp isFound with ⟨same, _⟩ | ⟨_, was⟩
    · exact .inr same
    · left
      rw [show table.get other = some found from was]
      exact some_ne_none found
  · exact .inl known

/-- A capability that a UDP request may name: none in the table, or a marked one. -/
def NamesUdp (state : NetState) (cap : Nat) : Prop :=
  state.table.get cap ≠ none → state.table.kindOf cap = .udp

theorem NamesUdp.kind_at (named : NamesUdp state cap) (consistent : Consistent state)
    (held : state.table.get cap = some handle) : state.sockets.kindAt handle = some .udp := by
  have kind := consistent.owned cap handle held
  rw [named (by rw [held]; exact some_ne_none handle)] at kind
  exact kind

theorem bind_port_cases (port : Nat) :
    ∃ nextPort chosen, (if port = 0 then state.nextEphemeralPort else (state, port)) =
      ({ state with nextPort }, chosen) := by
  by_cases auto : port = 0
  · rw [if_pos auto]
    exact ⟨_, _, rfl⟩
  · rw [if_neg auto]
    exact ⟨state.nextPort, port, rfl⟩

section Consistency

variable (consistent : Consistent state)
include consistent

theorem served_same {response : NetResponse} (noCap : response.isCapId = false) :
    Safely (Served creates state) (.ok (state, sendTyped response)) :=
  served_plain consistent (.refl _) noCap

theorem try_promote_safe (isTcp : state.table.kindOf cap = .tcp) :
    Safely (fun after => Consistent after ∧ after.table.kindOf cap = .tcp ∧
      Kept state.table after.table) (state.tryPromote cap) := by
  have unchanged : Consistent state ∧ state.table.kindOf cap = .tcp ∧
      Kept state.table state.table := ⟨consistent, isTcp, .refl _⟩
  unfold tryPromote
  split
  · cases held : state.table.get cap with
    | none => exact unchanged
    | some handle =>
      have kind := consistent.owned cap handle held
      rw [isTcp] at kind
      apply (get_tcp_safe kind).bind
      intro socket _
      split
      · exact ⟨consistent.set_state (fun same => by cases same),
          (set_state_same.kind cap).trans isTcp, set_state_kept⟩
      · exact unchanged
  · exact unchanged

theorem tcp_send_safe (data : List Byte) :
    Safely (Served false state) (state.tcpSend cap data) := by
  unfold tcpSend
  split
  · exact served_same consistent rfl
  · next plain =>
    apply (try_promote_safe consistent (kind_of_tcp plain)).bind
    rintro after ⟨consistent, isTcp, kept⟩
    cases held : after.table.get cap with
    | none => exact served_plain consistent kept rfl
    | some handle =>
      have kind := consistent.owned cap handle held
      rw [isTcp] at kind
      apply (get_tcp_safe kind).bind
      intro socket _
      exact served_plain (consistent.put_tcp kind) kept rfl

theorem tcp_recv_safe (bufLen : Nat) : Safely (Served false state) (state.tcpRecv cap bufLen) := by
  unfold tcpRecv
  split
  · exact served_same consistent rfl
  · next plain =>
    apply (try_promote_safe consistent (kind_of_tcp plain)).bind
    rintro after ⟨consistent, isTcp, kept⟩
    cases held : after.table.get cap with
    | none => exact served_plain consistent kept rfl
    | some handle =>
      have kind := consistent.owned cap handle held
      rw [isTcp] at kind
      apply (get_tcp_safe kind).bind
      intro socket _
      split
      · exact served_plain (consistent.put_tcp kind) kept rfl
      · split <;> exact served_plain consistent kept rfl

theorem close_safe :
    Safely (fun after => Consistent after ∧ Kept state.table after.table) (state.close cap) := by
  have rest : ∀ other found : Nat, (state.tls.erase cap)[other]? = some found →
      other ≠ cap ∧ state.tls[other]? = some found := fun _ _ => get_erase_eq_some.mp
  unfold close
  cases held : state.table.get cap with
  | none =>
    have removed : (state.table.remove cap).2 = none := held
    dsimp only
    rw [removed]
    refine ⟨consistent.release ?_ rest, remove_kept⟩
    intro other
    rw [held, if_neg (some_ne_none other).symm]
  | some handle =>
    have removed : (state.table.remove cap).2 = some handle := held
    dsimp only
    rw [removed]
    apply remove_safe.bind
    rintro sockets rfl
    exact ⟨consistent.release (release_kinds held) rest, remove_kept⟩

theorem socket_state_safe : Safely (Served false state) (state.socketState cap) := by
  unfold socketState
  split
  · exact served_same consistent rfl
  · next plain =>
    cases held : state.table.get cap with
    | none => exact served_same consistent rfl
    | some handle =>
      have kind := consistent.owned cap handle held
      rw [kind_of_tcp plain] at kind
      apply (get_tcp_safe kind).bind
      intro _ _
      exact served_same consistent rfl

theorem udp_bind_safe (named : NamesUdp state cap) (port : Nat) :
    Safely (Served false state) (state.udpBind cap port) := by
  unfold udpBind
  obtain ⟨nextPort, chosen, choice⟩ := @bind_port_cases state port
  rw [choice]
  dsimp only
  have kept : Consistent { state with nextPort } := { consistent with }
  cases held : state.table.get cap with
  | none => exact served_plain kept (.refl _) rfl
  | some handle =>
    have kind : state.sockets.kindAt handle = some .udp := named.kind_at consistent held
    apply (get_udp_safe kind).bind
    intro boundPort _
    split
    · exact served_plain kept (.refl _) rfl
    · have bound : Consistent { state with
          nextPort, sockets := SlotSet.put state.sockets handle (.udp (some chosen)) } :=
        kept.of_kinds (fun _ => kind_at_put kind)
      have noTls : state.tls[cap]? = none := by
        cases isTls : state.tls[cap]? with
        | none => rfl
        | some found =>
          have isTcp := (consistent.tls cap found isTls).2
          rw [named (by rw [held]; exact some_ne_none handle)] at isTcp
          cases isTcp
      exact served_plain (bound.set_state (fun _ => noTls)) set_state_kept rfl

theorem udp_send_safe (named : NamesUdp state cap)
    (data : List Byte) : Safely (Served false state) (state.udpSend env cap data) := by
  unfold udpSend
  cases held : state.table.get cap with
  | none => exact served_same consistent rfl
  | some =>
    apply (get_udp_safe (named.kind_at consistent held)).bind
    intro _ _
    split
    · exact served_plain (consistent.poll env.during) (.refl _) rfl
    · exact served_same consistent rfl

theorem udp_recv_safe (named : NamesUdp state cap)
    (bufLen : Nat) : Safely (Served false state) (state.udpRecv env cap bufLen) := by
  unfold udpRecv
  cases held : state.table.get cap with
  | none => exact served_same consistent rfl
  | some =>
    apply (get_udp_safe (named.kind_at consistent held)).bind
    intro _ _
    split <;> exact served_same consistent rfl

section Creating

variable (free : state.table.get state.table.nextCap = none)
include free

theorem make_tcp_safe :
    Safely (fun out =>
      match out.2 with
      | none => Consistent out.1 ∧ Kept state.table out.1.table
      | some (handle, cap) => Made state out.1 handle cap) state.makeTcp := by
  apply (add_safe _).bind
  rintro ⟨sockets, handle⟩ added
  dsimp only
  cases success : state.table.insert handle with
  | none =>
    apply remove_safe.bind
    rintro removed rfl
    exact ⟨consistent.of_kinds (kind_at_undo added), .refl _⟩
  | some made =>
    obtain ⟨table, cap⟩ := made
    have inserted := inserted success
    have cap_eq : cap = state.table.nextCap := inserted.isNext
    have newTcp : state.table.kindOf cap = .tcp := by
      rw [cap_eq]
      exact consistent.free_tcp free
    exact {
      consistent := consistent.claim free added inserted rfl rfl rfl (by
        intro other
        rw [inserted.kind_of]
        split
        · next here => rw [here, newTcp]; rfl
        · rfl)
      held := inserted.get_self
      isTcp := inserted.kind_of.trans newTcp
      noTls := by
        rw [cap_eq]
        exact consistent.free_tls free
      isNext := cap_eq
      counter := inserted.counter
      caps := fun _ => inserted.caps }

theorem start_connect_safe (port : Nat) :
    Safely (fun out =>
      match out.2 with
      | none => Handled true state out.1 none
      | some (handle, cap) => Made state out.1 handle cap) (state.startConnect env port) := by
  apply (make_tcp_safe consistent free).bind
  rintro ⟨after, made⟩ isMade
  cases made with
  | none =>
    obtain ⟨consistent, kept⟩ := isMade
    exact handled_kept consistent kept
  | some pair =>
    obtain ⟨handle, cap⟩ := pair
    have ready : Made state after.nextEphemeralPort.1 handle cap := Made.next_ephemeral_port isMade
    apply (get_tcp_safe ready.kind_at).bind
    intro socket _
    cases socket.connect env.routable port with
    | none =>
      apply ready.discard_safe.bind
      intro final handled
      exact handled
    | some connecting => exact (ready.put_tcp connecting).set_state .connecting

theorem tcp_connect_safe (port : Nat) : Safely (Served true state) (state.tcpConnect env port) := by
  apply (start_connect_safe consistent free port).bind
  rintro ⟨after, started⟩ outcome
  cases started with
  | none => exact served_silent outcome rfl
  | some => exact Made.handled outcome (fun _ isGiven => cap_id_shown isGiven)

theorem tcp_listen_safe (port : Nat) : Safely (Served true state) (state.tcpListen port) := by
  apply (make_tcp_safe consistent free).bind
  rintro ⟨after, made⟩ isMade
  cases made with
  | none =>
    obtain ⟨consistent, kept⟩ := isMade
    exact served_plain consistent kept rfl
  | some pair =>
    obtain ⟨handle, cap⟩ := pair
    have ready : Made state after handle cap := isMade
    apply (get_tcp_safe ready.kind_at).bind
    intro socket _
    cases socket.listen port with
    | none =>
      apply ready.discard_safe.bind
      intro final handled
      exact served_silent handled rfl
    | some listening =>
      have named := ((ready.put_tcp listening).set_state .listening).set_listen_port port
      exact named.handled (fun _ isGiven => cap_id_shown isGiven)

theorem tcp_accept_safe : Safely (Served true state) (state.tcpAccept cap) := by
  unfold tcpAccept
  split
  · exact served_same consistent rfl
  · next accepts =>
    rw [Bool.or_eq_true, decide_eq_true_eq, not_or, not_not] at accepts
    obtain ⟨plain, listens⟩ := accepts
    have isTcp := kind_of_tcp plain
    cases held : state.table.get cap with
    | none => exact served_same consistent rfl
    | some handle =>
      have kind := consistent.owned cap handle held
      rw [isTcp] at kind
      apply (get_tcp_safe kind).bind
      intro socket _
      split
      · exact served_same consistent rfl
      · cases state.table.getListenPort cap with
        | none => exact served_same consistent rfl
        | some listenPort =>
          cases success : state.table.insertWithState handle .connected with
          | none => exact served_same consistent rfl
          | some made =>
            obtain ⟨table, _⟩ := made
            have inserted := inserted success
            apply (add_safe _).bind
            rintro ⟨sockets, newHandle⟩ added
            have noTls : state.tls[cap]? = none := by
              cases isTls : state.tls[cap]? with
              | none => rfl
              | some found => exact absurd listens (consistent.streams cap found isTls)
            let swapped : NetState :=
              { state with sockets, table := table.updateHandle cap newHandle }
            have isSwapped : Consistent swapped :=
              consistent.accept free held isTcp noTls inserted added
            have listening : Consistent (swapped.setState cap .listening) :=
              isSwapped.set_state (fun _ => noTls)
            have moved : (swapped.setState cap .listening).table.nextCap =
                (state.table.nextCap + 1) % 2 ^ 64 :=
              set_state_same.next.trans (update_handle_next.trans inserted.counter)
            refine handled_created (listening.set_listen_port listenPort)
              (set_listen_port_same.next.trans moved) ?_
              (inserted.isNext ▸ fun _ isGiven => cap_id_shown isGiven)
            intro other known
            rw [set_listen_port_same.get] at known
            change (swapped.setState cap .listening).table.get other ≠ none at known
            rw [set_state_same.get] at known
            rcases update_handle_caps known with earlier | same
            · exact inserted.isNext ▸ inserted.caps earlier
            · rw [same, held]
              exact .inl (some_ne_none handle)

theorem udp_create_safe : Safely (Served true state) state.udpCreate := by
  apply (add_safe _).bind
  rintro ⟨sockets, handle⟩ added
  dsimp only
  cases success : state.table.insert handle with
  | none =>
    apply remove_safe.bind
    rintro removed rfl
    exact served_plain (consistent.of_kinds (kind_at_undo added)) (.refl _) rfl
  | some made =>
    obtain ⟨table, cap⟩ := made
    have inserted := inserted success
    have claimed : Consistent { state with sockets, table := table.markUdp cap } :=
      consistent.claim free added inserted rfl rfl rfl (by
        intro other
        rw [kind_of_mark, inserted.kind_of]
        rfl)
    exact handled_created claimed inserted.counter
      (fun _ held => inserted.isNext ▸ inserted.caps held)
      (inserted.isNext ▸ fun _ isGiven => cap_id_shown isGiven)

end Creating

end Consistency

end NetState

def Message.creates : Message → Bool
  | .typed (.tcpConnect _ _) => true
  | .typed (.tcpListen _) => true
  | .typed (.tcpAccept _) => true
  | .typed .udpCreate => true
  | .raw buf => buf.headD 0 = 0x30
  | _ => false

def Message.udpCap : Message → Option Nat
  | .typed (.udpSend capId _ _ _) => some capId
  | .typed (.udpRecv capId _) => some capId
  | .typed (.udpBind capId _) => some capId
  | _ => none

namespace NetState

variable {state : NetState} {env : Surroundings} {cap handle : Nat}

theorem set_state_self {next : SocketState} (held : state.table.get cap = some handle) :
    (state.setState cap next).table.getState cap = some next := by
  have contains : state.table.entries.contains cap = true := by
    rw [← Std.TreeMap.isSome_getElem?_eq_contains, isSome_iff_exists]
    exact ⟨handle, held⟩
  unfold setState SocketTable.setState
  rw [if_pos contains]
  exact Std.TreeMap.getElem?_insert_self

def RawServed (before : NetState) (result : NetState × Reply) : Prop :=
  Handled true before result.1 (rawNumber result.2)

theorem raw_number_cap {given : Nat}
    (isGiven : rawNumber (.raw (encodeLE 8 cap)) = some given) : given = cap % 2 ^ 64 := by
  unfold rawNumber at isGiven
  dsimp only at isGiven
  rw [decode_encode] at isGiven
  split at isGiven
  · cases isGiven
  · exact (some.inj isGiven).symm

theorem raw_served_zero {after : NetState} (handled : Handled true state after none) :
    Safely (RawServed state) (.ok (after, .raw (encodeLE 8 0))) :=
  handled

def numberGiven : Message → Reply → Option Nat
  | .typed _, reply => typedNumber reply
  | .raw buf, reply => if buf.headD 0 = 0x30 then rawNumber reply else none

def NamesOwnKind (state : NetState) (message : Message) : Prop :=
  ∀ cap, message.udpCap = some cap → NamesUdp state cap

section

variable (consistent : Consistent state)
include consistent

theorem handle_typed_safe (request : NetRequest)
    (free : (Message.typed request).creates = true → state.table.get state.table.nextCap = none)
    (named : ∀ cap, (Message.typed request).udpCap = some cap → NamesUdp state cap) :
    Safely (Served (Message.typed request).creates state) (state.handleTyped env request) := by
  cases request with
  | tcpConnect _ port => exact tcp_connect_safe consistent (free rfl) port
  | tcpSend _ data => exact tcp_send_safe consistent data
  | tcpRecv _ bufLen => exact tcp_recv_safe consistent bufLen
  | tcpClose =>
    apply (close_safe consistent).bind
    rintro after ⟨consistent, kept⟩
    exact served_plain consistent kept rfl
  | tcpListen port => exact tcp_listen_safe consistent (free rfl) port
  | tcpAccept => exact tcp_accept_safe consistent (free rfl)
  | udpCreate => exact udp_create_safe consistent (free rfl)
  | udpSend capId _ _ data => exact udp_send_safe consistent (named capId rfl) data
  | udpRecv capId bufLen => exact udp_recv_safe consistent (named capId rfl) bufLen
  | resolve hostname | getLocalIp | l2Send data => exact served_same consistent rfl
  | socketState => exact socket_state_safe consistent
  | udpBind capId port => exact udp_bind_safe consistent (named capId rfl) port
  | multicastJoin capId group | multicastLeave capId group =>
    refine served_plain consistent (.refl _) ?_
    split <;> rfl
  | l2Recv =>
    unfold handleTyped
    cases env.frame with
    | none => exact served_same consistent rfl
    | some => exact served_same consistent rfl

theorem tls_connect_safe (free : state.table.get state.table.nextCap = none) (payload : List Byte) :
    Safely (RawServed state) (state.tlsConnect env payload) := by
  unfold tlsConnect
  split
  · exact raw_served_zero (handled_kept consistent (.refl _))
  · apply (start_connect_safe consistent free _).bind
    rintro ⟨after, started⟩ outcome
    cases started with
    | none => exact raw_served_zero outcome
    | some pair =>
      obtain ⟨handle, cap⟩ := pair
      have made : Made state (after.poll env.during) handle cap := Made.poll outcome env.during
      apply (get_tcp_safe made.kind_at).bind
      intro _ _
      split
      · have connected := made.set_state .connected
        have stream : ((after.poll env.during).setState cap .connected).table.getState cap ≠
            some .listening := by
          rw [set_state_self made.held]
          exact fun same => by cases same
        have live := connected.consistent.insert_tls connected.held connected.isTcp stream
        exact { connected.handled (fun _ isGiven => .inr (raw_number_cap isGiven)) with
          consistent := live }
      · apply made.discard_safe.bind
        intro final handled
        exact raw_served_zero handled

theorem tls_access_safe {creates : Bool} (given gone : Reply) :
    Safely (fun out => Handled creates state out.1 none) (state.tlsAccess env cap given gone) := by
  unfold tlsAccess
  cases isTls : state.tls[cap]? with
  | none => exact handled_kept consistent (.refl _)
  | some handle =>
    obtain ⟨held, isTcp⟩ := consistent.tls cap handle isTls
    have polled := consistent.poll env.during
    have kind : (state.poll env.during).sockets.kindAt handle = some .tcp := by
      rw [show (state.poll env.during).sockets.kindAt handle = _ from
        polled.owned cap handle held]
      exact congrArg some isTcp
    apply (get_tcp_safe kind).bind
    intro socket _
    exact handled_kept (polled.put_tcp kind) (.refl _)

theorem handle_tls_raw_safe (buf : List Byte)
    (free : (Message.raw buf).creates = true → state.table.get state.table.nextCap = none) :
    Safely (fun out =>
        Handled (Message.raw buf).creates state out.1 (numberGiven (.raw buf) out.2))
      (state.handleTlsRaw env buf) := by
  have untouched : ∀ creates, Handled creates state state none :=
    fun _ => handled_kept consistent (.refl _)
  unfold handleTlsRaw
  split
  · change Handled _ state state (if buf.headD 0 = 0x30 then none else none)
    rw [ite_self]
    exact untouched _
  · by_cases connects : buf.headD 0 = 0x30
    · have isClose : ¬ buf.headD 0 = 0x15 := by
        rw [connects]
        decide
      rw [if_neg isClose, if_pos connects]
      apply (tls_connect_safe consistent (free (decide_eq_true connects)) _).mono
      intro out served
      unfold numberGiven
      dsimp only
      rw [if_pos connects, show (Message.raw buf).creates = true from decide_eq_true connects]
      exact served
    · have silent : ∀ reply, numberGiven (.raw buf) reply = none := fun reply => if_neg connects
      simp only [silent]
      split
      · apply (close_safe consistent).bind
        rintro after ⟨consistent, kept⟩
        exact handled_kept consistent kept
      · split
        · exact tls_access_safe consistent _ _
        · split
          · exact tls_access_safe consistent _ _
          · exact untouched _

theorem handle_request_safe (msg : Message)
    (free : msg.creates = true → state.table.get state.table.nextCap = none)
    (named : NamesOwnKind state msg) :
    Safely (fun out => Handled msg.creates state out.1 (numberGiven msg out.2))
      (state.handleRequest env msg) := by
  have polled := consistent.poll env.before
  have settle : ∀ {creates : Bool} {after : NetState} {number : Option Nat},
      Handled creates (state.poll env.before) after number →
        Handled creates state (after.poll env.after) number :=
    fun handled => { handled with consistent := handled.consistent.poll env.after }
  cases msg with
  | typed request =>
    apply (handle_typed_safe polled request free named).bind
    rintro ⟨after, reply⟩ served
    exact settle served
  | raw buf =>
    rw [handleRequest]
    split
    · apply (handle_tls_raw_safe polled buf free).bind
      rintro ⟨after, reply⟩ served
      exact settle served
    · change Handled _ state state (if buf.headD 0 = 0x30 then none else none)
      rw [ite_self]
      exact handled_kept consistent (.refl _)

end

end NetState

end ViCell.Net

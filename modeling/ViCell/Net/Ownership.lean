import ViCell.Lib.Runs
import ViCell.Net.Service

/-!
# Capabilities and their sockets

`Consistent` says that capabilities and sockets belong together one to one, that
the mark of a capability tells the kind of its socket, and that the side tables
speak of capabilities in the table only. `Safely` is the rule for handlers: they
end in a state that satisfies a postcondition, or stop the service for another
reason than a socket of the wrong kind.
-/

namespace ViCell.Net

open Lib TreeMaps Option SlotSet SocketTable SocketSet Std.TreeMap

inductive SocketKind where
  | tcp
  | udp
  | dhcp
  deriving DecidableEq, Repr

def Socket.kind : Socket → SocketKind
  | .tcp _ => .tcp
  | .udp _ => .udp
  | .dhcp => .dhcp

def SocketSet.kindAt (sockets : SocketSet) (handle : Nat) : Option SocketKind :=
  (at? sockets handle).map Socket.kind

/-- The kind that the mark of a capability promises. -/
def SocketTable.kindOf (table : SocketTable) (cap : Nat) : SocketKind :=
  if table.isUdp cap then .udp else .tcp

structure Consistent (state : NetState) : Prop where
  owned : ∀ cap handle, state.table.get cap = some handle →
    state.sockets.kindAt handle = some (state.table.kindOf cap)
  injective : ∀ cap other handle, state.table.get cap = some handle →
    state.table.get other = some handle → cap = other
  complete : ∀ handle kind, state.sockets.kindAt handle = some kind → kind ≠ .dhcp →
    ∃ cap, state.table.get cap = some handle
  states : ∀ cap held, state.table.getState cap = some held →
    ∃ handle, state.table.get cap = some handle
  ports : ∀ cap port, state.table.getListenPort cap = some port →
    ∃ handle, state.table.get cap = some handle
  marks : ∀ cap, state.table.kindOf cap = .udp → ∃ handle, state.table.get cap = some handle
  tls : ∀ cap handle : Nat, state.tls[cap]? = some handle →
    state.table.get cap = some handle ∧ state.table.kindOf cap = .tcp
  streams : ∀ cap handle : Nat, state.tls[cap]? = some handle →
    state.table.getState cap ≠ some .listening
  capacity : state.table.entries.size ≤ maxSockets

/-- The handler ends in the postcondition or stops for another reason than a wrong
kind of socket. -/
def Safely {Result : Type} (post : Result → Prop) : Except Panic Result → Prop
  | .ok result => post result
  | .error panic => panic ≠ .wrongKind

theorem Safely.bind {First Second : Type} {post : First → Prop} {final : Second → Prop}
    {first : Except Panic First} {next : First → Except Panic Second}
    (begins : Safely post first) (goesOn : ∀ out, post out → Safely final (next out)) :
    Safely final (first >>= next) := by
  cases first with
  | ok out => exact goesOn out begins
  | error => exact begins

theorem Safely.mono {Result : Type} {post weaker : Result → Prop} {outcome : Except Panic Result}
    (safe : Safely post outcome) (implies : ∀ out, post out → weaker out) :
    Safely weaker outcome := by
  cases outcome with
  | ok out => exact implies out safe
  | error => exact safe

namespace SocketSet

variable {sockets after : SocketSet} {handle other : Nat}

variable {socket : Socket}

theorem kind_at_add (added : SlotSet.add sockets socket = some (after, handle)) :
    sockets.kindAt handle = none ∧
      ∀ other, after.kindAt other =
        if other = handle then some socket.kind else sockets.kindAt other := by
  obtain ⟨free, afterAt⟩ := at_add added
  constructor
  · unfold kindAt
    rw [free]
    rfl
  · intro other
    unfold kindAt
    rw [afterAt other]
    split <;> rfl

theorem kind_at_remove :
    SocketSet.kindAt (SlotSet.remove sockets handle) other =
      if other = handle then none else sockets.kindAt other := by
  unfold kindAt
  rw [at_remove]
  split <;> rfl

theorem kind_at_undo (added : SlotSet.add sockets socket = some (after, handle)) (other : Nat) :
    SocketSet.kindAt (SlotSet.remove after handle) other = sockets.kindAt other := by
  obtain ⟨empty, kindAfter⟩ := kind_at_add added
  rw [kind_at_remove, kindAfter]
  by_cases here : other = handle
  · rw [if_pos here, here, empty]
  · rw [if_neg here, if_neg here]

theorem kind_at_put (same : sockets.kindAt handle = some socket.kind) :
    kindAt (put sockets handle socket) other = sockets.kindAt other := by
  obtain ⟨_, isHeld, _⟩ := map_eq_some_iff.mp same
  unfold kindAt
  rw [at_put isHeld]
  by_cases here : other = handle
  · rw [if_pos here, here]
    exact same.symm
  · rw [if_neg here]

theorem kind_at_poll (wires : Nat → Wire) :
    kindAt (update sockets (fun slot => Socket.polled (wires slot))) other =
      sockets.kindAt other := by
  unfold kindAt
  rw [at_update, map_map]
  congr 1
  funext socket
  cases socket <;> rfl

theorem get_tcp_safe (isTcp : sockets.kindAt handle = some .tcp) :
    Safely (fun socket => at? sockets handle = some (.tcp socket)) (sockets.getTcp handle) := by
  obtain ⟨held, isHeld, kind⟩ := map_eq_some_iff.mp isTcp
  unfold getTcp
  rw [isHeld]
  cases held with
  | tcp => rfl
  | udp => cases kind
  | dhcp => cases kind

theorem get_udp_safe (isUdp : sockets.kindAt handle = some .udp) :
    Safely (fun boundPort => at? sockets handle = some (.udp boundPort))
      (sockets.getUdp handle) := by
  obtain ⟨held, isHeld, kind⟩ := map_eq_some_iff.mp isUdp
  unfold getUdp
  rw [isHeld]
  cases held with
  | udp => rfl
  | tcp => cases kind
  | dhcp => cases kind

theorem get_udp_wrong (isTcp : sockets.kindAt handle = some .tcp) :
    sockets.getUdp handle = .error .wrongKind := by
  obtain ⟨held, isHeld, kind⟩ := map_eq_some_iff.mp isTcp
  unfold getUdp
  rw [isHeld]
  cases held with
  | udp => cases kind
  | tcp => rfl
  | dhcp => rfl

theorem add_safe (socket : Socket) :
    Safely (fun added => SlotSet.add sockets socket = some added) (sockets.add socket) := by
  unfold add
  cases added : SlotSet.add sockets socket with
  | none => exact fun same => by cases same
  | some => rfl

theorem remove_safe :
    Safely (fun removed => removed = SlotSet.remove sockets handle) (sockets.remove handle) := by
  unfold remove
  cases at? sockets handle with
  | none => exact fun same => by cases same
  | some => rfl

end SocketSet

namespace SocketTable

variable {table after : SocketTable} {cap other handle : Nat}

structure Inserted (table after : SocketTable) (handle cap : Nat) (held : SocketState) : Prop where
  room : table.entries.size < maxSockets
  isNext : cap = table.nextCap
  after_eq : after = { table with
    nextCap := (table.nextCap + 1) % 2 ^ 64
    entries := table.entries.insert cap handle
    states := table.states.insert cap held }

variable {held : SocketState}

theorem inserted (success : table.insertWithState handle held = some (after, cap)) :
    Inserted table after handle cap held := by
  unfold insertWithState at success
  split at success
  · cases success
  · next room =>
    cases success
    exact ⟨Nat.lt_of_not_le room, rfl, rfl⟩

section

variable (inserted : Inserted table after handle cap held)
include inserted

theorem Inserted.kind_of : after.kindOf other = table.kindOf other := by
  rw [inserted.after_eq]
  rfl

theorem Inserted.get_self : after.get cap = some handle := by
  rw [inserted.after_eq]
  exact getElem?_insert_self

theorem Inserted.caps (known : after.get other ≠ none) : table.get other ≠ none ∨ other = cap := by
  rw [inserted.after_eq] at known
  obtain ⟨found, isFound⟩ := ne_none_iff_exists'.mp known
  rcases get_insert_eq_some.mp isFound with ⟨same, _⟩ | ⟨_, was⟩
  · exact .inr same
  · left
    rw [show table.get other = some found from was]
    exact some_ne_none found

theorem Inserted.counter : after.nextCap = (table.nextCap + 1) % 2 ^ 64 := by
  rw [inserted.after_eq]

end

theorem kind_of_mark :
    (table.markUdp cap).kindOf other = if other = cap then .udp else table.kindOf other := by
  unfold kindOf markUdp isUdp
  by_cases same : other = cap
  · simp [same]
  · simp [same, Ne.symm same]

theorem kind_of_remove :
    (table.remove cap).1.kindOf other = if other = cap then .tcp else table.kindOf other := by
  unfold kindOf remove isUdp
  by_cases same : other = cap
  · simp [same]
  · simp [same, Ne.symm same]

theorem get_remove_eq_some {found : Nat} :
    (table.remove cap).1.get other = some found ↔ other ≠ cap ∧ table.get other = some found :=
  get_erase_eq_some

theorem get_ne {found : Nat} (free : table.get cap = none) (known : table.get other = some found) :
    other ≠ cap := by
  rintro rfl
  rw [free] at known
  cases known

theorem kind_of_ne_dhcp : table.kindOf cap ≠ .dhcp := by
  unfold kindOf
  split <;> exact fun same => by cases same

end SocketTable

namespace Consistent

variable {state : NetState} {cap handle : Nat}

variable {sockets : SocketSet}

section

variable (sound : Consistent state)
include sound

theorem of_kinds (same : ∀ handle, sockets.kindAt handle = state.sockets.kindAt handle) :
    Consistent { state with sockets } where
  owned cap handle found := (same handle).trans (sound.owned cap handle found)
  injective := sound.injective
  complete handle kind isKind := sound.complete handle kind ((same handle).symm.trans isKind)
  states := sound.states
  ports := sound.ports
  marks := sound.marks
  tls := sound.tls
  streams := sound.streams
  capacity := sound.capacity

theorem poll (wires : Nat → Wire) : Consistent (state.poll wires) :=
  sound.of_kinds (fun _ => kind_at_poll wires)

theorem next_ephemeral_port : Consistent state.nextEphemeralPort.1 :=
  { sound with }

theorem put_tcp {socket : TcpSocket} (isTcp : state.sockets.kindAt handle = some .tcp) :
    Consistent (state.putTcp handle socket) :=
  sound.of_kinds (fun _ => kind_at_put isTcp)

theorem set_state {next : SocketState} (allowed : next = .listening → state.tls[cap]? = none) :
    Consistent (state.setState cap next) := by
  unfold NetState.setState setState
  split
  · next held =>
    refine { sound with states := ?_, streams := ?_ }
    · intro other kept found
      rcases get_insert_eq_some.mp found with ⟨rfl, _⟩ | ⟨_, was⟩
      · exact isSome_iff_exists.mp (isSome_getElem?_eq_contains.trans held)
      · exact sound.states other kept was
    · intro other found isTls listens
      rcases get_insert_eq_some.mp listens with ⟨rfl, same⟩ | ⟨_, was⟩
      · rw [allowed same] at isTls
        cases isTls
      · exact sound.streams other found isTls was
  · exact sound

theorem set_listen_port (port : Nat) :
    Consistent { state with table := state.table.setListenPort cap port } := by
  unfold setListenPort
  split
  · next held =>
    refine { sound with ports := ?_ }
    intro other kept found
    rcases get_insert_eq_some.mp found with ⟨rfl, _⟩ | ⟨_, was⟩
    · exact isSome_iff_exists.mp (isSome_getElem?_eq_contains.trans held)
    · exact sound.ports other kept was
  · exact sound

theorem insert_tls (held : state.table.get cap = some handle)
    (isTcp : state.table.kindOf cap = .tcp) (stream : state.table.getState cap ≠ some .listening) :
    Consistent { state with tls := state.tls.insert cap handle } := by
  refine { sound with tls := ?_, streams := ?_ }
  · intro other found isTls
    rcases get_insert_eq_some.mp isTls with ⟨rfl, rfl⟩ | ⟨_, was⟩
    · exact ⟨held, isTcp⟩
    · exact sound.tls other found was
  · intro other found isTls
    rcases get_insert_eq_some.mp isTls with ⟨rfl, _⟩ | ⟨_, was⟩
    · exact stream
    · exact sound.streams other found was

theorem free_tcp (free : state.table.get cap = none) : state.table.kindOf cap = .tcp := by
  cases kind : state.table.kindOf cap with
  | tcp => rfl
  | udp =>
    obtain ⟨_, isFound⟩ := sound.marks cap kind
    rw [free] at isFound
    cases isFound
  | dhcp => exact absurd kind kind_of_ne_dhcp

theorem free_tls (free : state.table.get cap = none) : state.tls[cap]? = none := by
  cases isTls : state.tls[cap]? with
  | none => rfl
  | some found =>
    have held := (sound.tls cap found isTls).1
    rw [free] at held
    cases held

theorem claim (free : state.table.get state.table.nextCap = none) {table after : SocketTable}
    {socket : Socket} {held : SocketState}
    (added : SlotSet.add state.sockets socket = some (sockets, handle))
    (inserted : SocketTable.Inserted state.table table handle cap held)
    (entries : after.entries = table.entries) (states : after.states = table.states)
    (ports : after.listenPorts = table.listenPorts) (kinds : ∀ other, after.kindOf other =
      if other = cap then socket.kind else state.table.kindOf other) :
    Consistent { state with sockets, table := after } := by
  obtain ⟨room, rfl, rfl⟩ := inserted
  obtain ⟨empty, kindAfter⟩ := kind_at_add added
  have afterGet : ∀ {other found : Nat}, after.get other = some found ↔
      (other = state.table.nextCap ∧ handle = found) ∨
        (other ≠ state.table.nextCap ∧ state.table.get other = some found) := by
    unfold SocketTable.get
    rw [entries]
    exact get_insert_eq_some
  have known : ∀ {other found : Nat}, state.table.get other = some found →
      other ≠ state.table.nextCap ∧ after.get other = some found := by
    intro other found was
    have ne := get_ne free was
    exact ⟨ne, afterGet.mpr (.inr ⟨ne, was⟩)⟩
  have unused : ∀ {other}, state.table.get other ≠ some handle := by
    intro other was
    have kind := sound.owned other handle was
    rw [empty] at kind
    cases kind
  constructor
  · intro other found isFound
    rw [kindAfter, kinds]
    rcases afterGet.mp isFound with ⟨rfl, rfl⟩ | ⟨ne, was⟩
    · rw [if_pos rfl, if_pos rfl]
    · have apart : found ≠ handle := by
        rintro rfl
        exact unused was
      rw [if_neg apart, if_neg ne]
      exact sound.owned other found was
  · intro left right found isLeft isRight
    rcases afterGet.mp isLeft with ⟨rfl, rfl⟩ | ⟨_, beforeLeft⟩
    · rcases afterGet.mp isRight with ⟨rfl, _⟩ | ⟨_, beforeRight⟩
      · rfl
      · exact absurd beforeRight unused
    · rcases afterGet.mp isRight with ⟨_, rfl⟩ | ⟨_, beforeRight⟩
      · exact absurd beforeLeft unused
      · exact sound.injective left right found beforeLeft beforeRight
  · intro found kind isKind real
    rw [kindAfter] at isKind
    by_cases here : found = handle
    · exact ⟨state.table.nextCap, afterGet.mpr (.inl ⟨rfl, here.symm⟩)⟩
    · rw [if_neg here] at isKind
      obtain ⟨other, was⟩ := sound.complete found kind isKind real
      exact ⟨other, (known was).2⟩
  · intro other kept found
    unfold getState at found
    rw [states] at found
    rcases get_insert_eq_some.mp found with ⟨rfl, _⟩ | ⟨_, was⟩
    · exact ⟨handle, afterGet.mpr (.inl ⟨rfl, rfl⟩)⟩
    · obtain ⟨held, isHeld⟩ := sound.states other kept was
      exact ⟨held, (known isHeld).2⟩
  · intro other port found
    unfold getListenPort at found
    rw [ports] at found
    obtain ⟨held, isHeld⟩ := sound.ports other port found
    exact ⟨held, (known isHeld).2⟩
  · intro other isUdp
    rw [kinds] at isUdp
    by_cases here : other = state.table.nextCap
    · exact ⟨handle, afterGet.mpr (.inl ⟨here, rfl⟩)⟩
    · rw [if_neg here] at isUdp
      obtain ⟨held, isHeld⟩ := sound.marks other isUdp
      exact ⟨held, (known isHeld).2⟩
  · intro other found isTls
    obtain ⟨was, kind⟩ := sound.tls other found isTls
    refine ⟨(known was).2, ?_⟩
    rw [kinds, if_neg (known was).1]
    exact kind
  · intro other found isTls listens
    unfold getState at listens
    rw [states] at listens
    obtain ⟨was, _⟩ := sound.tls other found isTls
    rcases get_insert_eq_some.mp listens with ⟨same, _⟩ | ⟨_, listened⟩
    · exact (known was).1 same
    · exact sound.streams other found isTls listened
  · rw [entries]
    have size := @size_insert_le _ _ _ state.table.entries _ state.table.nextCap handle
    exact size.trans room

theorem release {tls : Std.TreeMap Nat Nat} (kinds : ∀ other, sockets.kindAt other =
      if state.table.get cap = some other then none else state.sockets.kindAt other)
    (rest : ∀ other found : Nat, tls[other]? = some found →
      other ≠ cap ∧ state.tls[other]? = some found) :
    Consistent { state with sockets, table := (state.table.remove cap).1, tls } := by
  have stays : ∀ {other found : Nat}, other ≠ cap → state.table.get other = some found →
      (state.table.remove cap).1.get other = some found :=
    fun ne was => get_remove_eq_some.mpr ⟨ne, was⟩
  constructor
  · intro other found isFound
    obtain ⟨ne, was⟩ := get_remove_eq_some.mp isFound
    have apart : state.table.get cap ≠ some found :=
      fun held => ne (sound.injective other cap found was held)
    rw [kinds, if_neg apart, kind_of_remove, if_neg ne]
    exact sound.owned other found was
  · intro left right found isLeft isRight
    exact sound.injective left right found (get_remove_eq_some.mp isLeft).2
      (get_remove_eq_some.mp isRight).2
  · intro found kind isKind real
    rw [kinds] at isKind
    split at isKind
    · cases isKind
    · next apart =>
      obtain ⟨other, was⟩ := sound.complete found kind isKind real
      refine ⟨other, stays ?_ was⟩
      rintro rfl
      exact apart was
  · intro other kept found
    obtain ⟨ne, was⟩ := get_erase_eq_some.mp found
    obtain ⟨found, isFound⟩ := sound.states other kept was
    exact ⟨found, stays ne isFound⟩
  · intro other port found
    obtain ⟨ne, was⟩ := get_erase_eq_some.mp found
    obtain ⟨found, isFound⟩ := sound.ports other port was
    exact ⟨found, stays ne isFound⟩
  · intro other isUdp
    rw [kind_of_remove] at isUdp
    split at isUdp
    · cases isUdp
    · next ne =>
      obtain ⟨found, isFound⟩ := sound.marks other isUdp
      exact ⟨found, stays ne isFound⟩
  · intro other found isTls
    obtain ⟨ne, was⟩ := rest other found isTls
    obtain ⟨isFound, kind⟩ := sound.tls other found was
    refine ⟨stays ne isFound, ?_⟩
    rw [kind_of_remove, if_neg ne]
    exact kind
  · intro other found isTls listens
    obtain ⟨_, was⟩ := rest other found isTls
    exact sound.streams other found was (get_erase_eq_some.mp listens).2
  · exact size_erase_le.trans sound.capacity

theorem exchange {first second : Nat} {entries : Std.TreeMap Nat Nat}
    (known : ∀ other, other = first ∨ other = second →
      (∃ found, state.table.get other = some found) ∧ state.tls[other]? = none)
    (alike : state.table.kindOf first = state.table.kindOf second)
    (traded : ∀ other, entries[other]? = state.table.get (Equiv.swap first second other))
    (room : entries.size ≤ maxSockets) :
    Consistent { state with table := { state.table with entries } } := by
  have kinds : ∀ other, state.table.kindOf other =
      state.table.kindOf (Equiv.swap first second other) := by
    intro other
    rw [Equiv.swap_apply_def]
    split_ifs with isFirst isSecond
    · rw [isFirst, alike]
    · rw [isSecond, alike]
    · rfl
  have stays : ∀ other, (∃ found, state.table.get other = some found) →
      ∃ found, entries[other]? = some found := by
    intro other has
    rw [traded, Equiv.swap_apply_def]
    split_ifs
    · exact (known second (.inr rfl)).1
    · exact (known first (.inl rfl)).1
    · exact has
  have untouched : ∀ other found, state.tls[other]? = some found →
      Equiv.swap first second other = other := by
    intro other found isTls
    apply Equiv.swap_apply_of_ne_of_ne
    · rintro rfl
      cases (known other (.inl rfl)).2.symm.trans isTls
    · rintro rfl
      cases (known other (.inr rfl)).2.symm.trans isTls
  constructor
  · intro other found isFound
    exact (sound.owned _ found ((traded other).symm.trans isFound)).trans
      (congrArg some (kinds other).symm)
  · intro left right found isLeft isRight
    apply (Equiv.swap first second).injective
    exact sound.injective _ _ found ((traded left).symm.trans isLeft)
      ((traded right).symm.trans isRight)
  · intro found kind isKind real
    obtain ⟨other, was⟩ := sound.complete found kind isKind real
    refine ⟨Equiv.swap first second other, (traded _).trans ?_⟩
    rw [Equiv.swap_apply_self, was]
  · exact fun other held isHeld => stays other (sound.states other held isHeld)
  · exact fun other port isPort => stays other (sound.ports other port isPort)
  · exact fun other isUdp => stays other (sound.marks other isUdp)
  · intro other found isTls
    obtain ⟨was, isTcp⟩ := sound.tls other found isTls
    refine ⟨(traded other).trans ?_, isTcp⟩
    rw [untouched other found isTls, was]
  · exact sound.streams
  · exact room

/-- An accept: the socket of `cap` goes to a new number, and a new TCP socket takes
its place. -/
theorem accept (free : state.table.get state.table.nextCap = none)
    (held : state.table.get cap = some handle) (isTcp : state.table.kindOf cap = .tcp)
    (plain : state.tls[cap]? = none) {table : SocketTable} {socket : TcpSocket}
    {newHandle streamCap : Nat}
    (inserted : SocketTable.Inserted state.table table handle streamCap .connected)
    (added : SlotSet.add state.sockets (.tcp socket) = some (sockets, newHandle)) :
    Consistent { state with sockets, table := table.updateHandle cap newHandle } := by
  obtain ⟨room, rfl, rfl⟩ := inserted
  have capKnown := get_ne free held
  have newTcp := sound.free_tcp free
  -- As if the stream had got the new socket and traded it with the listener.
  have claimed := @claim _ _ _ _ sound free _ _ _ .connected added ⟨room, rfl, rfl⟩ rfl rfl rfl
    (by
      intro other
      by_cases same : other = state.table.nextCap
      · rw [if_pos same, same]
        exact newTcp
      · exact (if_neg same).symm)
  have contains : (state.table.entries.insert state.table.nextCap handle).contains cap = true := by
    rw [← isSome_getElem?_eq_contains, isSome_iff_exists]
    exact ⟨handle, get_insert_eq_some.mpr (.inr ⟨capKnown, held⟩)⟩
  unfold updateHandle
  rw [if_pos contains]
  refine @exchange _ claimed cap state.table.nextCap _ ?_ (isTcp.trans newTcp.symm) ?_ ?_
  · rintro other (rfl | rfl)
    · exact ⟨⟨handle, get_insert_eq_some.mpr (.inr ⟨capKnown, held⟩)⟩, plain⟩
    · exact ⟨⟨newHandle, getElem?_insert_self⟩, sound.free_tls free⟩
  · intro other
    have listener : state.table.entries[cap]? = some handle := held
    unfold SocketTable.get
    by_cases isCap : other = cap
    · simp [isCap]
    · by_cases isNext : other = state.table.nextCap
      · rw [isNext, Equiv.swap_apply_right]
        simp only [getElem?_insert, listener]
        simp [capKnown, capKnown.symm]
      · simp [isCap, isNext, Ne.symm isCap, Ne.symm isNext, Equiv.swap_apply_of_ne_of_ne,
          getElem?_insert]
  · have inserted := @size_insert_le _ _ _ state.table.entries _ state.table.nextCap handle
    rw [size_insert, if_pos contains]
    exact inserted.trans room

end

end Consistent

end ViCell.Net

import ViCell.Api
import ViCell.Lib.SlotSet
import ViCell.Lib.TreeMaps

/-!
# Sockets of the net service

The sockets of the network stack live in a fixed set of slots. A TCP socket has a
send and a receive queue of 4096 bytes; what the wire does to them between two
accesses is a `Wire`. Asking the set for a socket of the wrong kind, for an empty
slot, or for room it does not have stops the service.

The stack is smoltcp. Of what it documents the proofs use that a handle names its
socket until it is removed and is not given twice before, that a lookup of another kind
or of a removed handle panics, that `send_slice` takes what fits of its bytes and
`recv_slice` hands out received bytes once and in order, and when each is refused.

`SocketTable` maps the capability numbers that consumers hold to slots.
-/

namespace ViCell.Net

open Lib

inductive TcpState where
  | closed
  | listen
  | synSent
  | synReceived
  | established
  | finWait1
  | finWait2
  | closeWait
  | closing
  | lastAck
  | timeWait
  deriving DecidableEq, Repr

/-- `accepted` and `received` keep every byte that went into the two queues. -/
structure TcpSocket where
  state : TcpState
  tx : List Byte
  rx : List Byte
  accepted : List Byte
  received : List Byte
  deriving DecidableEq, Repr

/-- What the wire does to a socket: its new state if it changes, how many sent
bytes were acknowledged, and the bytes that arrived. -/
structure Wire where
  state : Option TcpState
  drained : Nat
  arrived : List Byte

def Wire.quiet : Wire := ⟨none, 0, []⟩

namespace TcpSocket

def bufferSize : Nat := 4096

def new : TcpSocket := ⟨.closed, [], [], [], []⟩

def isOpen (socket : TcpSocket) : Bool :=
  socket.state ≠ .closed && socket.state ≠ .timeWait

def maySend (socket : TcpSocket) : Bool :=
  socket.state = .established || socket.state = .closeWait

def canSend (socket : TcpSocket) : Bool :=
  socket.maySend && decide (socket.tx.length < bufferSize)

def mayRecv (socket : TcpSocket) : Bool :=
  socket.state = .established || socket.state = .finWait1 || socket.state = .finWait2 ||
    !socket.rx.isEmpty

def canRecv (socket : TcpSocket) : Bool := socket.mayRecv && !socket.rx.isEmpty

def connect (socket : TcpSocket) (routable : Bool) (port : Nat) : Option TcpSocket :=
  if socket.isOpen || port = 0 || !routable then none else some { socket with state := .synSent }

def listen (socket : TcpSocket) (port : Nat) : Option TcpSocket :=
  if socket.isOpen || port = 0 then none else some { socket with state := .listen }

def sendSlice (socket : TcpSocket) (data : List Byte) : Option (TcpSocket × Nat) :=
  if socket.maySend then
    let taken := data.take (bufferSize - socket.tx.length)
    some ({ socket with tx := socket.tx ++ taken, accepted := socket.accepted ++ taken },
      taken.length)
  else none

def recvSlice (socket : TcpSocket) (room : Nat) : Option (TcpSocket × List Byte) :=
  if socket.mayRecv then some ({ socket with rx := socket.rx.drop room }, socket.rx.take room)
  else none

def polled (socket : TcpSocket) (wire : Wire) : TcpSocket :=
  let taken := wire.arrived.take (bufferSize - socket.rx.length)
  { socket with
    state := wire.state.getD socket.state
    tx := socket.tx.drop wire.drained
    rx := socket.rx ++ taken
    received := socket.received ++ taken }

end TcpSocket

inductive Socket where
  | tcp (socket : TcpSocket)
  | udp (boundPort : Option Nat)
  | dhcp
  deriving DecidableEq, Repr

namespace Socket

def polled (wire : Wire) : Socket → Socket
  | .tcp socket => .tcp (socket.polled wire)
  | other => other

end Socket

/-- How the network stack can stop the service. -/
inductive Panic where
  | wrongKind
  | noSocket
  | fullSet
  deriving DecidableEq, Repr

def maxSockets : Nat := 18

abbrev SocketSet := SlotSet Socket

namespace SocketSet

def add (sockets : SocketSet) (socket : Socket) : Except Panic (SocketSet × Nat) :=
  match SlotSet.add sockets socket with
  | some added => .ok added
  | none => .error .fullSet

def remove (sockets : SocketSet) (handle : Nat) : Except Panic SocketSet :=
  match SlotSet.at? sockets handle with
  | some _ => .ok (SlotSet.remove sockets handle)
  | none => .error .noSocket

def getTcp (sockets : SocketSet) (handle : Nat) : Except Panic TcpSocket :=
  match SlotSet.at? sockets handle with
  | some (.tcp socket) => .ok socket
  | some _ => .error .wrongKind
  | none => .error .noSocket

def getUdp (sockets : SocketSet) (handle : Nat) : Except Panic (Option Nat) :=
  match SlotSet.at? sockets handle with
  | some (.udp boundPort) => .ok boundPort
  | some _ => .error .wrongKind
  | none => .error .noSocket

end SocketSet

inductive SocketState where
  | created
  | connecting
  | connected
  | listening
  | closed
  deriving DecidableEq, Repr

structure SocketTable where
  entries : Std.TreeMap Nat Nat
  states : Std.TreeMap Nat SocketState
  listenPorts : Std.TreeMap Nat Nat
  udpCaps : Std.TreeSet Nat
  nextCap : Nat

namespace SocketTable

def new : SocketTable := ⟨∅, ∅, ∅, ∅, 1⟩

def insertWithState (table : SocketTable) (handle : Nat) (state : SocketState) :
    Option (SocketTable × Nat) :=
  if table.entries.size ≥ maxSockets then none
  else
    let cap := table.nextCap
    some ({ table with
      nextCap := (table.nextCap + 1) % 2 ^ 64
      entries := table.entries.insert cap handle
      states := table.states.insert cap state }, cap)

def insert (table : SocketTable) (handle : Nat) : Option (SocketTable × Nat) :=
  table.insertWithState handle .created

def get (table : SocketTable) (cap : Nat) : Option Nat := table.entries[cap]?

def getState (table : SocketTable) (cap : Nat) : Option SocketState := table.states[cap]?

def setState (table : SocketTable) (cap : Nat) (state : SocketState) : SocketTable :=
  if table.entries.contains cap then { table with states := table.states.insert cap state }
  else table

def setListenPort (table : SocketTable) (cap port : Nat) : SocketTable :=
  if table.entries.contains cap then
    { table with listenPorts := table.listenPorts.insert cap port }
  else table

def getListenPort (table : SocketTable) (cap : Nat) : Option Nat := table.listenPorts[cap]?

def updateHandle (table : SocketTable) (cap newHandle : Nat) : SocketTable :=
  if table.entries.contains cap then { table with entries := table.entries.insert cap newHandle }
  else table

def markUdp (table : SocketTable) (cap : Nat) : SocketTable :=
  { table with udpCaps := table.udpCaps.insert cap }

def isUdp (table : SocketTable) (cap : Nat) : Bool := table.udpCaps.contains cap

def remove (table : SocketTable) (cap : Nat) : SocketTable × Option Nat :=
  ({ table with
      states := table.states.erase cap
      listenPorts := table.listenPorts.erase cap
      udpCaps := table.udpCaps.erase cap
      entries := table.entries.erase cap }, table.entries[cap]?)

end SocketTable

end ViCell.Net

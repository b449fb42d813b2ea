import ViCell.Lib.Bytes
import ViCell.Net.Sockets

/-!
# Requests of the net service

One message is answered by `handleRequest`, between two polls of the interface.
What the network and the TLS library decide during it is its `Surroundings`.
-/

namespace ViCell.Net

open Lib Bytes SlotSet

/-- The live TLS connections map a capability to the slot of its socket. -/
structure NetState where
  sockets : SocketSet
  table : SocketTable
  tls : Std.TreeMap Nat Nat
  nextPort : Nat
  localIp : List Byte

inductive NetRequest where
  | tcpConnect (addr : List Byte) (port : Nat)
  | tcpSend (capId : Nat) (data : List Byte)
  | tcpRecv (capId bufLen : Nat)
  | tcpClose (capId : Nat)
  | tcpListen (port : Nat)
  | tcpAccept (capId : Nat)
  | udpCreate
  | udpSend (capId : Nat) (addr : List Byte) (port : Nat) (data : List Byte)
  | udpRecv (capId bufLen : Nat)
  | resolve (hostname : List Byte)
  | socketState (capId : Nat)
  | udpBind (capId port : Nat)
  | getLocalIp
  | multicastJoin (capId : Nat) (group : List Byte)
  | multicastLeave (capId : Nat) (group : List Byte)
  | l2Send (data : List Byte)
  | l2Recv (guestMac : List Byte)

inductive NetResponse where
  | capId (id : Nat)
  | data (bytes : List Byte)
  | addr (bytes : List Byte)
  | state (byte : Byte)
  | ok
  | err (code : Byte)
  deriving DecidableEq, Repr

/-- A message as `handle_request` sees it: decoded, or left to the raw TLS format. -/
inductive Message where
  | typed (request : NetRequest)
  | raw (buf : List Byte)

/-- What the sender gets; a response that does not fit the buffer is not sent. -/
inductive Reply where
  | typed (response : NetResponse)
  | raw (bytes : List Byte)
  | silent
  deriving DecidableEq, Repr

/-- What the network, the TLS library and the device do during one message. -/
structure Surroundings where
  before : Nat → Wire
  during : Nat → Wire
  after : Nat → Wire
  routable : Bool
  udpSent : Bool
  /-- The source address, source port and content of the next datagram. -/
  datagram : Option (List Byte × Nat × List Byte)
  joined : Bool
  frame : Option (List Byte)
  /-- The states seen while waiting for a connection, until the deadline. -/
  waited : List TcpState
  handshake : List Byte → Bool
  tlsIo : TcpSocket → TcpSocket
  tlsSent : Option Nat
  tlsReceived : Option (List Byte)

def Surroundings.quiet : Surroundings where
  before _ := .quiet
  during _ := .quiet
  after _ := .quiet
  routable := true
  udpSent := true
  datagram := none
  joined := true
  frame := none
  waited := [.established]
  handshake _ := true
  tlsIo socket := socket
  tlsSent := none
  tlsReceived := none

def NetResponse.encodedLen : NetResponse → Nat
  | .capId id => 1 + varintLen id
  | .data bytes => 1 + varintLen bytes.length + bytes.length
  | .addr bytes => 1 + bytes.length
  | .state _ => 2
  | .ok => 1
  | .err _ => 2

def sendTyped (response : NetResponse) : Reply :=
  if response.encodedLen ≤ ipcBufSize then .typed response else .silent

def le32 (value : Nat) : List Byte := encodeLE 4 value

def tcpStateByte : TcpState → Byte
  | .closed => 0x00
  | .synSent => 0x01
  | .synReceived => 0x02
  | .established => 0x03
  | .finWait1 => 0x04
  | .finWait2 => 0x05
  | .closeWait => 0x06
  | .closing => 0x07
  | .lastAck => 0x08
  | .timeWait => 0x09
  | .listen => 0x0A

namespace NetState

/-- The service after its start: the DHCP client has taken the first slot. -/
def new : NetState where
  sockets := (empty Socket maxSockets).put 0 .dhcp
  table := .new
  tls := ∅
  nextPort := 49152
  localIp := [0, 0, 0, 0]

def nextEphemeralPort (state : NetState) : NetState × Nat :=
  let port := state.nextPort
  ({ state with nextPort := if port ≥ 65534 then 49152 else (port + 1) % 2 ^ 16 }, port)

def poll (state : NetState) (wires : Nat → Wire) : NetState :=
  { state with sockets := update state.sockets (fun handle => Socket.polled (wires handle)) }

def putTcp (state : NetState) (handle : Nat) (socket : TcpSocket) : NetState :=
  { state with sockets := put state.sockets handle (.tcp socket) }

def setState (state : NetState) (cap : Nat) (next : SocketState) : NetState :=
  { state with table := state.table.setState cap next }

/-- Promote a connecting socket once the stack has established the connection. -/
def tryPromote (state : NetState) (cap : Nat) : Except Panic NetState :=
  if state.table.getState cap = some .connecting then
    match state.table.get cap with
    | none => .ok state
    | some handle => do
      let socket ← state.sockets.getTcp handle
      if socket.state = .established then .ok (state.setState cap .connected) else .ok state
  else .ok state

def makeTcp (state : NetState) : Except Panic (NetState × Option (Nat × Nat)) := do
  let (sockets, handle) ← state.sockets.add (.tcp .new)
  match state.table.insert handle with
  | some (table, cap) => .ok ({ state with sockets, table }, some (handle, cap))
  | none => do
    let sockets ← sockets.remove handle
    .ok ({ state with sockets }, none)

def discard (state : NetState) (handle cap : Nat) : Except Panic NetState := do
  let sockets ← state.sockets.remove handle
  .ok { state with sockets, table := (state.table.remove cap).1 }

/-- A new socket on its way to the peer, for `TcpConnect` and the TLS connect. -/
def startConnect (env : Surroundings) (state : NetState) (port : Nat) :
    Except Panic (NetState × Option (Nat × Nat)) := do
  let (state, made) ← state.makeTcp
  match made with
  | none => .ok (state, none)
  | some (handle, cap) => do
    let (state, _) := state.nextEphemeralPort
    let socket ← state.sockets.getTcp handle
    match socket.connect env.routable port with
    | none => do
      let state ← state.discard handle cap
      .ok (state, none)
    | some connecting =>
      .ok ((state.putTcp handle connecting).setState cap .connecting, some (handle, cap))

def tcpConnect (env : Surroundings) (state : NetState) (port : Nat) :
    Except Panic (NetState × Reply) := do
  let (state, started) ← state.startConnect env port
  match started with
  | none => .ok (state, sendTyped (.err 0xFF))
  | some (_, cap) => .ok (state, sendTyped (.capId (cap % 2 ^ 32)))

def tcpSend (state : NetState) (cap : Nat) (data : List Byte) : Except Panic (NetState × Reply) :=
  if state.table.isUdp cap then .ok (state, sendTyped (.data (le32 0)))
  else do
    let state ← state.tryPromote cap
    match state.table.get cap with
    | none => .ok (state, sendTyped (.data (le32 0)))
    | some handle => do
      let socket ← state.sockets.getTcp handle
      let (socket, count) :=
        if socket.canSend then (socket.sendSlice data).getD (socket, 0) else (socket, 0)
      .ok (state.putTcp handle socket, sendTyped (.data (le32 count)))

def tcpRecv (state : NetState) (cap bufLen : Nat) : Except Panic (NetState × Reply) :=
  if state.table.isUdp cap then .ok (state, sendTyped (.data []))
  else do
    let state ← state.tryPromote cap
    match state.table.get cap with
    | none => .ok (state, sendTyped (.data []))
    | some handle => do
      let socket ← state.sockets.getTcp handle
      if socket.canRecv then
        let (socket, data) := (socket.recvSlice (min bufLen 4096)).getD (socket, [])
        .ok (state.putTcp handle socket, sendTyped (.data data))
      else if socket.mayRecv then .ok (state, sendTyped (.data []))
      else .ok (state, sendTyped (.err 0xFF))

def close (state : NetState) (cap : Nat) : Except Panic NetState :=
  let (table, removed) := state.table.remove cap
  match removed with
  | none => .ok { state with table, tls := state.tls.erase cap }
  | some handle => do
    let sockets ← state.sockets.remove handle
    .ok { state with sockets, table, tls := state.tls.erase cap }

def tcpListen (state : NetState) (port : Nat) : Except Panic (NetState × Reply) := do
  let (state, made) ← state.makeTcp
  match made with
  | none => .ok (state, sendTyped (.err 0xFF))
  | some (handle, cap) => do
    let socket ← state.sockets.getTcp handle
    match socket.listen port with
    | none => do
      let state ← state.discard handle cap
      .ok (state, sendTyped (.err 0xFF))
    | some listening =>
      let state := (state.putTcp handle listening).setState cap .listening
      .ok ({ state with table := state.table.setListenPort cap port },
        sendTyped (.capId (cap % 2 ^ 32)))

/-- The established socket goes to a new capability, and a fresh listener takes its
place under the old one. -/
def tcpAccept (state : NetState) (cap : Nat) : Except Panic (NetState × Reply) :=
  if state.table.isUdp cap || state.table.getState cap ≠ some .listening then
    .ok (state, sendTyped (.err 0xFF))
  else
    match state.table.get cap with
    | none => .ok (state, sendTyped (.err 0xFF))
    | some handle => do
      let socket ← state.sockets.getTcp handle
      if socket.state ≠ .established then .ok (state, sendTyped (.err 0xFE))
      else
        match state.table.getListenPort cap with
        | none => .ok (state, sendTyped (.err 0xFF))
        | some listenPort =>
          match state.table.insertWithState handle .connected with
          | none => .ok (state, sendTyped (.err 0xFF))
          | some (table, streamCap) => do
            let renewed := (TcpSocket.new.listen listenPort).getD TcpSocket.new
            let (sockets, newHandle) ← state.sockets.add (.tcp renewed)
            let table := ((table.updateHandle cap newHandle).setState cap .listening)
            .ok ({ state with sockets, table := table.setListenPort cap listenPort },
              sendTyped (.capId (streamCap % 2 ^ 32)))

def udpCreate (state : NetState) : Except Panic (NetState × Reply) := do
  let (sockets, handle) ← state.sockets.add (.udp none)
  match state.table.insert handle with
  | some (table, cap) =>
    .ok ({ state with sockets, table := table.markUdp cap }, sendTyped (.capId (cap % 2 ^ 32)))
  | none => do
    let sockets ← sockets.remove handle
    .ok ({ state with sockets }, sendTyped (.err 0xFF))

-- Unlike the TCP requests, the three UDP requests below do not ask the table for the
-- kind of the capability.
def udpBind (state : NetState) (cap port : Nat) : Except Panic (NetState × Reply) :=
  let (state, port) := if port = 0 then state.nextEphemeralPort else (state, port)
  match state.table.get cap with
  | none => .ok (state, sendTyped (.err 0xFF))
  | some handle => do
    let boundPort ← state.sockets.getUdp handle
    if port = 0 || boundPort.isSome then .ok (state, sendTyped (.err 0xFF))
    else
      let state := { state with sockets := put state.sockets handle (.udp (some port)) }
      .ok (state.setState cap .listening, sendTyped .ok)

def udpSend (env : Surroundings) (state : NetState) (cap : Nat) (data : List Byte) :
    Except Panic (NetState × Reply) :=
  match state.table.get cap with
  | none => .ok (state, sendTyped (.data (le32 0)))
  | some handle => do
    let _ ← state.sockets.getUdp handle
    if env.udpSent then .ok (state.poll env.during, sendTyped (.data (le32 data.length)))
    else .ok (state, sendTyped (.data (le32 0)))

def udpRecv (env : Surroundings) (state : NetState) (cap bufLen : Nat) :
    Except Panic (NetState × Reply) :=
  match state.table.get cap with
  | none => .ok (state, sendTyped (.data []))
  | some handle => do
    let _ ← state.sockets.getUdp handle
    match env.datagram with
    | none => .ok (state, sendTyped (.data []))
    | some (source, port, content) =>
      .ok (state, sendTyped
        (.data (source ++ encodeLE 2 port ++ content.take (min bufLen 512))))

def socketState (state : NetState) (cap : Nat) : Except Panic (NetState × Reply) :=
  if state.table.isUdp cap then .ok (state, sendTyped (.state 0x00))
  else
    match state.table.get cap with
    | none => .ok (state, sendTyped (.state 0x00))
    | some handle => do
      let socket ← state.sockets.getTcp handle
      .ok (state, sendTyped (.state (tcpStateByte socket.state)))

def handleTyped (env : Surroundings) (state : NetState) :
    NetRequest → Except Panic (NetState × Reply)
  | .tcpConnect _ port => state.tcpConnect env port
  | .tcpSend capId data => state.tcpSend capId data
  | .tcpRecv capId bufLen => state.tcpRecv capId bufLen
  | .tcpClose capId => do
    let state ← state.close capId
    .ok (state, sendTyped .ok)
  | .tcpListen port => state.tcpListen port
  | .tcpAccept capId => state.tcpAccept capId
  | .udpCreate => state.udpCreate
  | .udpSend capId _ _ data => state.udpSend env capId data
  | .udpRecv capId bufLen => state.udpRecv env capId bufLen
  | .udpBind capId port => state.udpBind capId port
  | .socketState capId => state.socketState capId
  | .getLocalIp => .ok (state, sendTyped (.addr state.localIp))
  | .multicastJoin _ _ => .ok (state, sendTyped (if env.joined then .ok else .err 0xFF))
  | .multicastLeave _ _ => .ok (state, sendTyped (if env.joined then .ok else .err 0xFF))
  | .resolve _ => .ok (state, sendTyped (.err 0xFF))
  | .l2Send _ => .ok (state, sendTyped .ok)
  | .l2Recv _ =>
    match env.frame with
    | some frame => .ok (state, sendTyped (.data frame))
    | none => .ok (state, sendTyped .ok)

def established : List TcpState → Bool
  | [] => false
  | .established :: _ => true
  | .closed :: _ => false
  | .closeWait :: _ => false
  | _ :: later => established later

def tlsConnect (env : Surroundings) (state : NetState) (payload : List Byte) :
    Except Panic (NetState × Reply) :=
  if payload.length < 6 then .ok (state, .raw (encodeLE 8 0))
  else do
    let (state, started) ← state.startConnect env (decodeLE ((payload.drop 4).take 2))
    match started with
    | none => .ok (state, .raw (encodeLE 8 0))
    | some (handle, cap) => do
      let state := state.poll env.during
      let _ ← state.sockets.getTcp handle
      if established env.waited && env.handshake (payload.drop 6) then
        let state := state.setState cap .connected
        .ok ({ state with tls := state.tls.insert cap handle }, .raw (encodeLE 8 cap))
      else do
        let state ← state.discard handle cap
        .ok (state, .raw (encodeLE 8 0))

/-- Reading and writing through a TLS entry uses the socket of that entry. -/
def tlsAccess (env : Surroundings) (state : NetState) (cap : Nat) (given missing : Reply) :
    Except Panic (NetState × Reply) :=
  match state.tls[cap]? with
  | none => .ok (state, missing)
  | some handle => do
    let state := state.poll env.during
    let socket ← state.sockets.getTcp handle
    .ok (state.putTcp handle (env.tlsIo socket), given)

/-- Without its trailing zeros: the raw format has no length, and the buffer was
cleared before the message came. -/
def trimZeros (buf : List Byte) : List Byte := (buf.reverse.dropWhile (· = 0)).reverse

def handleTlsRaw (env : Surroundings) (state : NetState) (buf : List Byte) :
    Except Panic (NetState × Reply) :=
  if buf.length < 9 then .ok (state, .raw (encodeLE 8 0))
  else
    let opcode := buf.headD 0
    let cap := decodeLE ((buf.drop 1).take 8)
    let payload := (trimZeros buf).drop 9
    if opcode = 0x15 then do
      let state ← state.close cap
      .ok (state, .raw [0x00])
    else if opcode = 0x30 then state.tlsConnect env payload
    else if opcode = 0x31 then
      state.tlsAccess env cap (.raw (le32 (env.tlsSent.getD 0))) (.raw (le32 0))
    else if opcode = 0x32 then
      let bufLen := min (if payload.length ≥ 4 then decodeLE (payload.take 4) else 512) 4096
      state.tlsAccess env cap (.raw ((env.tlsReceived.getD []).take bufLen)) (.raw [])
    else .ok (state, .raw [])

def handleRequest (env : Surroundings) (state : NetState) :
    Message → Except Panic (NetState × Reply)
  | .typed request => do
    let (state, reply) ← (state.poll env.before).handleTyped env request
    .ok (state.poll env.after, reply)
  | .raw buf =>
    if buf.headD 0 ≥ 0x15 then do
      let (state, reply) ← (state.poll env.before).handleTlsRaw env buf
      .ok (state.poll env.after, reply)
    else .ok (state, .silent)

end NetState

end ViCell.Net

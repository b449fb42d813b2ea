import ViCell.Lib.Bytes
import ViCell.Lib.ReceiveLoop

/-!
# The silo service

Requests are relayed to the guest through a mailbox page.  The guest and its memory
are a parameter; what the service reads of a request and makes of the guest's answer
is modelled as in the source.
-/

namespace ViCell.Services

open Lib

inductive SiloRunResult where
  | done
  | fault (code : BitVec 8)
  | guestError
  deriving DecidableEq, Repr

/-- The guest as the service sees it. A failing access leaves it as it is. -/
structure SiloGuest (Guest : Type) where
  writeMailbox : Guest → List (BitVec 8) → Option Guest
  runUntilDone : Guest → Guest × SiloRunResult
  readMailbox : Guest → Option (List (BitVec 8))

structure SiloRequest where
  opcode : BitVec 8
  data : List (BitVec 8)
  deriving DecidableEq, Repr

structure SiloState (Guest : Type) where
  guest : Guest
  seq : Nat

namespace Silo

def ipcMsgSize : Nat := 4096

def reqOffData : Nat := 32

def reqDataLen : Nat := 96

def respDataLen : Nat := 124

def faultCode : BitVec 8 := 0xFF

def decodeRequest (buf : List (BitVec 8)) : SiloRequest where
  opcode := buf.getD 0 0
  data := (buf.drop reqOffData).take reqDataLen

/-- The mailbox page: sequence number, command, response code, padding, data. -/
def mailbox (seq : Nat) (request : SiloRequest) : List (BitVec 8) :=
  Bytes.encodeLE 4 seq ++ [request.opcode, faultCode, 0, 0] ++ request.data ++
    List.replicate (4088 - reqDataLen) 0

/-- A response of 128 bytes: status, length, padding, data. -/
def response (status len : BitVec 8) (data : List (BitVec 8)) : List (BitVec 8) :=
  [status, len, 0, 0] ++ data.take respDataLen ++ List.replicate (respDataLen - data.length) 0

def buildResponseData (data : List (BitVec 8)) (respCode : BitVec 8) : List (BitVec 8) :=
  if respCode = 1 then
    let copyLen := min (data.getD 0 0).toNat (respDataLen - 1)
    response 0 (BitVec.ofNat 8 copyLen) ((data.drop 1).take copyLen)
  else if respCode = 2 then response 0 32 (data.take 32)
  else if respCode = 0 ∨ respCode = 3 then response 0 65 (data.take 65)
  else response 0xFF 0 [0xFB]

def errorResponse (code : BitVec 8) : List (BitVec 8) := response 0xFF 0 [code]

variable {Guest : Type}

def handle (guest : SiloGuest Guest) (state : SiloState Guest) (request : SiloRequest) :
    SiloState Guest × List (BitVec 8) :=
  let seq := (state.seq + 1) % 2 ^ 32
  match guest.writeMailbox state.guest (mailbox state.seq request) with
  | none => (⟨state.guest, seq⟩, errorResponse 0xFD)
  | some written =>
    let (ran, result) := guest.runUntilDone written
    match guest.readMailbox ran with
    | none => (⟨ran, seq⟩, errorResponse 0xFC)
    | some page =>
      match result with
      | .done => (⟨ran, seq⟩, buildResponseData (page.drop 8) (page.getD 5 0))
      | .fault code => (⟨ran, seq⟩, errorResponse code)
      | .guestError => (⟨ran, seq⟩, errorResponse 0xFE)

def run (guest : SiloGuest Guest) :
    ReceiveLoop (SiloState Guest) SiloRequest (List (BitVec 8)) where
  size := ipcMsgSize
  accepts sender := decide (sender > 0)
  decode _ buf := decodeRequest buf
  handle state _ request := handle guest state request
  idle state := state

end Silo

end ViCell.Services

import ViCell.Api
import ViCell.Lib.Readers
import ViCell.Lib.ReceiveLoop

/-!
# `run_service`

The loop of a typed service: receive, decode from the front of the buffer, handle,
encode the response.  The request's type decides how it is decoded; any such decoder
is a `Reader`.
-/

namespace ViCell.Ostd

open Lib

/-- A service's own part: its decoder, its handler, and the encoding of its responses. -/
structure MessageHandler (Logical Request Response : Type) where
  request : Reader Request
  handle : Logical → Request → Nat → Logical × Response
  encode : Response → List (BitVec 8)

namespace MessageHandler

variable {Logical Request Response : Type} (handler : MessageHandler Logical Request Response)

/-- A response that does not fit is not sent. -/
def encoded (response : Response) : Option (List (BitVec 8)) :=
  if (handler.encode response).length ≤ ipcBufSize then some (handler.encode response) else none

/-- The reply is what is sent back, if anything is. -/
def runService : ReceiveLoop Logical (Option Request) (Option (List (BitVec 8))) where
  size := ipcBufSize
  accepts sender := decide (sender > 0)
  decode _ buf := handler.request.decode buf
  handle logical sender
    | none => (logical, none)
    | some request =>
      let (logical, response) := handler.handle logical request sender
      (logical, handler.encoded response)
  idle logical := logical

end MessageHandler

end ViCell.Ostd

import Mathlib

/-!
# What the kernel and the cells share

Words that several parts of the system take from `libs/api` and `libs/types`, and the
arithmetic of a `usize`.
-/

namespace ViCell

abbrev Byte := BitVec 8

def usizeMax : Nat := 2 ^ 64 - 1

/-- `wrapping_sub`, and a plain subtraction in the release profile. -/
def wrappingSub (left right : Nat) : Nat := (left + (2 ^ 64 - right)) % 2 ^ 64

/-- `IPC_BUF_SIZE`, the buffer of a service's receive loop and of a typed reply. -/
def ipcBufSize : Nat := 4096

/-- The bytes of a postcard integer: seven bits each. -/
def varintLen (value : Nat) : Nat := Nat.log2 value / 7 + 1

/-- The errors of the modelled calls. -/
inductive SyscallError where
  | permissionDenied
  | invalidInput
  deriving DecidableEq, Repr

/-- The errors of `types::ViError`. -/
inductive ViError where
  | outOfMemory
  | invalidArgument
  | notFound
  | permissionDenied
  | alreadyExists
  | wouldBlock
  | notSupported
  | io
  | invalidInput
  | isADirectory
  | notADirectory
  | unknown
  deriving DecidableEq, Repr

end ViCell

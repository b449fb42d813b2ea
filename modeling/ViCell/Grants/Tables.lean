import ViCell.Memory.FreeFrames

/-!
# Grant tables

The zero-copy grants of `task/syscall.rs`: pages that a task allocates for the
length of its life or until it frees them, and may share with one other task.
`PAGE_GRANT_TABLE` and `REG_GRANT_TABLE` are created on first use. Between grant
calls the rest of the kernel makes and drops stacks and loads and unloads
segments; those are the other calls of `KernelMemory`.
-/

namespace ViCell.Grants

open Lib Memory

inductive GrantPerm where
  | readOnly
  | writeOnly
  | readWrite
  deriving DecidableEq, Repr

def GrantPerm.tryFrom (perm : Nat) : Option GrantPerm :=
  match perm % 256 with
  | 0 => some .readOnly
  | 1 => some .writeOnly
  | 2 => some .readWrite
  | _ => none

/-- `PageGrant` and `RegGrant`, which have the same fields. -/
structure Grant where
  base : Nat
  size : Nat
  owner : Nat
  sharedTo : Option (Nat × GrantPerm)
  deriving DecidableEq, Repr

namespace Grant

def pages (grant : Grant) : Nat := grant.size / pageSize

def sharedWith (grant : Grant) (task : Nat) : Bool :=
  match grant.sharedTo with
  | none => false
  | some (grantee, _) => grantee = task

def allows (grant : Grant) (task : Nat) : Bool := grant.owner = task || grant.sharedWith task

def unshare (dead : Nat) (grant : Grant) : Grant :=
  if grant.sharedWith dead then { grant with sharedTo := none } else grant

end Grant

abbrev GrantTable := Std.TreeMap Nat Grant

structure GrantKernel where
  memory : KernelMemory
  pageGrants : Option GrantTable
  regGrants : Option GrantTable

def GrantKernel.start (machine : Machine) : GrantKernel where
  memory := { machine := machine, held := [] }
  pageGrants := none
  regGrants := none

def maxGrantPages : Nat := 4096

/-- `alloc_grant_pages`, and the new holder. -/
def reservePages (root : Nat) (memory : KernelMemory) (pages : Nat) :
    Option (KernelMemory × Option Nat) :=
  match allocGrantPages root memory.machine pages with
  | none => none
  | some (machine, none) => some ({ memory with machine := machine }, none)
  | some (machine, some base) =>
    some ({ machine := machine, held := .grant base pages :: memory.held }, some base)

def releaseGrant (root : Nat) (memory : KernelMemory) (grant : Grant) : KernelMemory where
  machine := freeGrantPages root grant.base grant.pages memory.machine
  held := memory.held.erase (.grant grant.base grant.pages)

/-- `GrantAlloc` and `GrantRegister`, on the table each of them fills. -/
def allocInto (root caller size : Nat) (memory : KernelMemory) (table : Option GrantTable) :
    Option (KernelMemory × Option GrantTable × Nat) :=
  if size = 0 ∨ maxGrantPages * pageSize < size then some (memory, table, 0)
  else
    let pages := (size + pageSize - 1) / pageSize
    match reservePages root memory pages with
    | none => none
    | some (memory, none) => some (memory, table, 0)
    | some (memory, some base) =>
      let grant : Grant :=
        { base := base, size := pages * pageSize, owner := caller, sharedTo := none }
      some (memory, some ((table.getD ∅).insert base grant), base)

def lookup (id : Nat) (table : Option GrantTable) : Option Grant :=
  table.bind (fun map => map[id]?)

/-- The entry that `GrantFree` and `GrantUnregister` take out: the caller's own. -/
def ownEntry (caller id : Nat) (table : Option GrantTable) : Option Grant :=
  (lookup id table).filter (fun grant => grant.owner = caller)

namespace GrantKernel

def grantAlloc (root caller size : Nat) (kernel : GrantKernel) :
    Option (GrantKernel × Except SyscallError Nat) :=
  (allocInto root caller size kernel.memory kernel.pageGrants).map
    (fun (memory, table, reply) =>
      ({ kernel with memory := memory, pageGrants := table }, .ok reply))

def grantRegister (root caller size : Nat) (kernel : GrantKernel) :
    Option (GrantKernel × Except SyscallError Nat) :=
  (allocInto root caller size kernel.memory kernel.regGrants).map
    (fun (memory, table, reply) =>
      ({ kernel with memory := memory, regGrants := table }, .ok reply))

/-- The page table is created before it is searched, the register table is not. -/
def grantShare (caller id target perm : Nat) (kernel : GrantKernel) :
    GrantKernel × Except SyscallError Nat :=
  match GrantPerm.tryFrom perm with
  | none => (kernel, .error .invalidInput)
  | some perm =>
    let pageTable := kernel.pageGrants.getD ∅
    let kernel := { kernel with pageGrants := some pageTable }
    match pageTable[id]? with
    | some grant =>
      if grant.owner ≠ caller then (kernel, .error .permissionDenied)
      else
        let shared := { grant with sharedTo := some (target, perm) }
        ({ kernel with pageGrants := some (pageTable.insert id shared) }, .ok 0)
    | none =>
      match lookup id kernel.regGrants with
      | none => (kernel, .error .invalidInput)
      | some grant =>
        if grant.owner ≠ caller then (kernel, .error .permissionDenied)
        else
          let shared := { grant with sharedTo := some (target, perm) }
          ({ kernel with
              regGrants := kernel.regGrants.map (fun map => map.insert id shared) }, .ok 0)

def grantSlice (caller id : Nat) (kernel : GrantKernel) : Nat :=
  match lookup id kernel.pageGrants with
  | some grant => if grant.allows caller then grant.base else usizeMax
  | none =>
    match lookup id kernel.regGrants with
    | none => usizeMax
    | some grant => if grant.allows caller then grant.base else usizeMax

def grantFree (root caller id : Nat) (kernel : GrantKernel) :
    GrantKernel × Except SyscallError Nat :=
  match ownEntry caller id kernel.pageGrants with
  | none => (kernel, .error .permissionDenied)
  | some grant =>
    ({ kernel with
        pageGrants := kernel.pageGrants.map (fun map => map.erase id)
        memory := releaseGrant root kernel.memory grant }, .ok 0)

def grantUnregister (root caller id : Nat) (kernel : GrantKernel) :
    GrantKernel × Except SyscallError Nat :=
  match ownEntry caller id kernel.regGrants with
  | none => (kernel, .error .permissionDenied)
  | some grant =>
    ({ kernel with
        regGrants := kernel.regGrants.map (fun map => map.erase id)
        memory := releaseGrant root kernel.memory grant }, .ok 0)

end GrantKernel

/-- One pass of `reap_grants_for_task`: the shares to the dead task are cleared,
its own entries are taken out, and then their pages go back. -/
def reapTable (root dead : Nat) (memory : KernelMemory) (table : GrantTable) :
    KernelMemory × GrantTable :=
  let cleared := table.map (fun _ grant => grant.unshare dead)
  let owned := (cleared.filter (fun _ grant => grant.owner = dead)).toList.map Prod.snd
  (owned.foldl (releaseGrant root) memory, cleared.filter (fun _ grant => grant.owner ≠ dead))

/-- A table that was never created ends the reaper. -/
def GrantKernel.reap (root dead : Nat) (kernel : GrantKernel) : GrantKernel :=
  match kernel.pageGrants with
  | none => kernel
  | some pageTable =>
    let pagePass := reapTable root dead kernel.memory pageTable
    let kernel := { kernel with memory := pagePass.1, pageGrants := some pagePass.2 }
    match kernel.regGrants with
    | none => kernel
    | some regTable =>
      let regPass := reapTable root dead kernel.memory regTable
      { kernel with memory := regPass.1, regGrants := some regPass.2 }

inductive GrantCall where
  | grantAlloc (size : Nat)
  | grantShare (id target perm : Nat)
  | grantSlice (id : Nat)
  | grantFree (id : Nat)
  | grantRegister (size : Nat)
  | grantUnregister (id : Nat)
  deriving DecidableEq, Repr

/-- `none` is the allocator's index panic. -/
def GrantKernel.perform (root caller : Nat) (kernel : GrantKernel) :
    GrantCall → Option (GrantKernel × Except SyscallError Nat)
  | .grantAlloc size => kernel.grantAlloc root caller size
  | .grantShare id target perm => some (kernel.grantShare caller id target perm)
  | .grantSlice id => some (kernel, .ok (kernel.grantSlice caller id))
  | .grantFree id => some (kernel.grantFree root caller id)
  | .grantRegister size => kernel.grantRegister root caller size
  | .grantUnregister id => some (kernel.grantUnregister root caller id)

def isForeign : MemoryCall → Bool
  | .newKernelStack _ => true
  | .newUserStack _ => true
  | .dropStack _ => true
  | .loadSegments _ _ => true
  | .eagerUnmap _ => true
  | .dropSegments _ => true
  | _ => false

inductive GrantEvent where
  | call (caller : Nat) (call : GrantCall)
  | death (task : Nat)
  | foreign (call : MemoryCall)
  deriving DecidableEq, Repr

def GrantKernel.step (root : Nat) (kernel : GrantKernel) : GrantEvent → Option GrantKernel
  | .call caller call => (kernel.perform root caller call).map Prod.fst
  | .death task => some (kernel.reap root task)
  | .foreign call =>
    if isForeign call then
      (kernel.memory.step root call).map (fun memory => { kernel with memory := memory })
    else none

end ViCell.Grants

import ViCell.Memory.Machine

/-!
# Tables of what cells hold

File capabilities (`cell/cap_registry.rs`), memory quotas (`memory/cell_quota.rs`),
MMIO regions and PCIe devices (`resource_registry.rs`). Capabilities and quotas
are keyed by cell id, devices by task id; an MMIO region is kept under the task
id of its holder, written as a cell id.
-/

namespace ViCell.Cells

open Memory

/-- `file` names the open file; it is absent while a call does I/O on it. -/
structure CapEntry where
  owner : Nat
  file : Option Nat
  perms : Nat
  expiresAt : Option Nat
  grantDepth : Nat
  deriving DecidableEq, Repr

structure CapTable where
  entries : Std.TreeMap Nat CapEntry
  nextId : Nat

namespace CapTable

def maxGrantDepth : Nat := 4

def fileRw : Nat := 7

def alloc (table : CapTable) (owner file perms : Nat) : CapTable × Nat :=
  let next := usize (table.nextId + 1)
  ({ entries := table.entries.insert table.nextId
       { owner := owner, file := some file, perms := perms, expiresAt := none,
         grantDepth := maxGrantDepth }
     nextId := if next = 0 then 1 else next }, table.nextId)

def allocWithLease (table : CapTable) (owner file perms expiresAt : Nat) : CapTable × Nat :=
  let allocated := table.alloc owner file perms
  match allocated.1.entries[allocated.2]? with
  | none => allocated
  | some entry =>
    ({ allocated.1 with
        entries := allocated.1.entries.insert allocated.2
          { entry with expiresAt := some expiresAt } }, allocated.2)

/-- An expired lease is revoked by the check that finds it. -/
def verify (table : CapTable) (now id caller : Nat) : CapTable × Except ViError Unit :=
  match table.entries[id]? with
  | none => (table, .error .notFound)
  | some entry =>
    if entry.owner = caller then
      match entry.expiresAt with
      | some expiry =>
        if expiry ≤ now then
          ({ table with entries := table.entries.erase id }, .error .permissionDenied)
        else (table, .ok ())
      | none => (table, .ok ())
    else (table, .error .permissionDenied)

/-- The new entry has no file of its own. -/
def grantTo (table : CapTable) (now id fromCell toCell : Nat) : CapTable × Except ViError Nat :=
  match table.verify now id fromCell with
  | (table, .error error) => (table, .error error)
  | (table, .ok ()) =>
    match table.entries[id]? with
    | none => (table, .error .notFound)
    | some entry =>
      if entry.grantDepth = 0 then (table, .error .notSupported)
      else
        ({ entries := table.entries.insert table.nextId
             { owner := toCell, file := none, perms := entry.perms,
               expiresAt := entry.expiresAt, grantDepth := entry.grantDepth - 1 }
           nextId := max (usize (table.nextId + 1)) 1 }, .ok table.nextId)

def revoke (table : CapTable) (id : Nat) : CapTable :=
  { table with entries := table.entries.erase id }

def revokeAllFor (table : CapTable) (owner : Nat) : CapTable :=
  { table with entries := table.entries.filter (fun _ entry => entry.owner ≠ owner) }

def parkFile (table : CapTable) (now id owner : Nat) : CapTable × Except ViError Nat :=
  match table.verify now id owner with
  | (table, .error error) => (table, .error error)
  | (table, .ok ()) =>
    match table.entries[id]? with
    | none => (table, .error .notFound)
    | some entry =>
      match entry.file with
      | none => (table, .error .invalidInput)
      | some file =>
        ({ table with entries := table.entries.insert id { entry with file := none } }, .ok file)

/-- A capability revoked in the meantime stays revoked. -/
def unparkFile (table : CapTable) (id file : Nat) : CapTable :=
  match table.entries[id]? with
  | none => table
  | some entry =>
    { table with entries := table.entries.insert id { entry with file := some file } }

end CapTable

/-- The limits, and the bytes each of the first cells has mapped for DMA. -/
structure CellQuota where
  limits : Std.TreeMap Nat Nat
  dmaInUse : Nat → Nat

namespace CellQuota

def maxCells : Nat := 64

def defaultQuotaBytes : Nat := 16 * 1024 * 1024

def register (quota : CellQuota) (cell limit : Nat) : CellQuota :=
  { quota with limits := quota.limits.insert cell limit }

def deregister (quota : CellQuota) (cell : Nat) : CellQuota where
  limits := quota.limits.erase cell
  dmaInUse := if cell < maxCells then Function.update quota.dmaInUse cell 0 else quota.dmaInUse

def canMapDma (quota : CellQuota) (cell size : Nat) : Bool :=
  if cell = 0 ∨ maxCells ≤ cell then true
  else
    min (quota.dmaInUse cell + size) (2 ^ 64 - 1) ≤ (quota.limits[cell]?).getD defaultQuotaBytes

def recordDmaMapped (quota : CellQuota) (cell size : Nat) : CellQuota :=
  if cell = 0 ∨ maxCells ≤ cell then quota
  else
    { quota with
      dmaInUse := Function.update quota.dmaInUse cell (usize (quota.dmaInUse cell + size)) }

end CellQuota

/-- A device window that a cell may ask for, with the class of the device. -/
structure MmioWindow where
  base : Nat
  length : Nat
  deviceClass : Nat
  deriving DecidableEq, Repr

def riscvWindows : List MmioWindow := [{ base := 0x10012000, length := 0x1000, deviceClass := 2 }]

def aarch64Windows : List MmioWindow :=
  [{ base := 0x09000000, length := 0x1000, deviceClass := 1 },
    { base := 0x09030000, length := 0x1000, deviceClass := 2 }]

abbrev MmioRegistry := Std.TreeMap Nat (Nat × Nat)

inductive MmioError where
  | invalidInput
  | permissionDenied
  | alreadyExists
  deriving DecidableEq, Repr

def requestMmio (windows : List MmioWindow) (registry : MmioRegistry)
    (owner base length devices : Nat) : MmioRegistry × Except MmioError Unit :=
  if 2 ^ 64 ≤ base + length then (registry, .error .invalidInput)
  else if windows.any (fun window =>
      window.base ≤ base && base + length ≤ window.base + window.length &&
        window.deviceClass &&& devices != 0) then
    if registry.toList.any (fun region =>
        !(base + length ≤ region.1 || region.1 + region.2.1 ≤ base)) then
      (registry, .error .alreadyExists)
    else (registry.insert base (length, owner), .ok ())
  else (registry, .error .permissionDenied)

def releaseFor (registry : MmioRegistry) (owner : Nat) : MmioRegistry :=
  registry.filter (fun _ region => region.2 ≠ owner)

abbrev BdfOwners := Std.TreeMap Nat Nat

def registerBdfOwner (owners : BdfOwners) (bdf task : Nat) : BdfOwners := owners.insert bdf task

def ownerOfBdf (owners : BdfOwners) (bdf : Nat) : Option Nat := owners[bdf]?

def releaseBdfsFor (owners : BdfOwners) (task : Nat) : BdfOwners :=
  owners.filter (fun _ owner => owner ≠ task)

end ViCell.Cells

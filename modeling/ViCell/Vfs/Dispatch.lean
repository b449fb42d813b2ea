import ViCell.Api
import ViCell.Lib.Runs
import ViCell.Vfs.Backends

/-!
# Request dispatch of the file service

One request at a time is decoded, checked against the access table and the
quota where its arm does so, and handed to the backend that its path is mounted on.
-/

namespace ViCell.Vfs

open Lib StoredFile

structure QuotaTracker where
  used : Std.TreeMap Nat Nat
  limit : Nat

namespace QuotaTracker

def defaultQuotaBytes : Nat := 32 * 1024 * 1024

def new : QuotaTracker := ⟨∅, defaultQuotaBytes⟩

def usedBy (quota : QuotaTracker) (owner : Nat) : Nat := (quota.used[owner]?).getD 0

def canCharge (quota : QuotaTracker) (owner bytes : Nat) : Bool :=
  decide (quota.usedBy owner + bytes ≤ quota.limit)

/-- Every caller ignores that a charge was refused. -/
def charge (quota : QuotaTracker) (owner bytes : Nat) : QuotaTracker :=
  if quota.usedBy owner + bytes > quota.limit then
    { quota with used := quota.used.insert owner (quota.usedBy owner) }
  else { quota with used := quota.used.insert owner (quota.usedBy owner + bytes) }

def release (quota : QuotaTracker) (owner bytes : Nat) : QuotaTracker :=
  match quota.used[owner]? with
  | some used => { quota with used := quota.used.insert owner (used - bytes) }
  | none => quota

def total (quota : QuotaTracker) : Nat := (quota.used.toList.map Prod.snd).sum

end QuotaTracker

structure PendingTable where
  slots : Std.TreeMap Nat (List UInt8)
  nextId : Nat

namespace PendingTable

def new : PendingTable := ⟨∅, 1⟩

def insert (table : PendingTable) (data : List UInt8) : PendingTable × Nat :=
  (⟨table.slots.insert table.nextId data, max ((table.nextId + 1) % 2 ^ 32) 1⟩, table.nextId)

def poll (table : PendingTable) (handle : Nat) : PendingTable × Option (List UInt8) :=
  ({ table with slots := table.slots.erase handle }, table.slots[handle]?)

end PendingTable

structure VfsManager where
  ram : Tree
  fat : Option Tree
  lfs : Option Tree
  srv : Option Tree
  quota : QuotaTracker
  pending : PendingTable

inductive VfsRequest where
  | malformed
  | getFile (path : Text)
  | listDir (path : Text)
  | stat (path : Text)
  | write (path : Text) (content : List UInt8)
  | append (path : Text) (content : List UInt8)
  | mkdir (path : Text)
  | rmdir (path : Text)
  | unlink (path : Text)
  | rmdirRecursive (path : Text)
  | readAsync (path : Text)
  | poll (handle : Nat)
  | readGrant (shared : Bool)
  | writeGrant (shared : Bool) (bytes : Nat)
  deriving DecidableEq, Repr

inductive VfsResponse where
  | data (bytes : List UInt8)
  | listed (lines : Text)
  | dataPtr (length : Nat)
  | stat (size : Nat) (isDir : Bool)
  | ok
  | err (code : Nat)
  | pendingHandle (handle : Nat)
  | grantDone (bytes : Nat)
  deriving DecidableEq, Repr

namespace VfsManager

/-- The volumes are what the disks held at boot. -/
def new (fat lfs srv : Option Tree) : VfsManager :=
  ⟨RamFs.new, fat, lfs, srv, QuotaTracker.new, PendingTable.new⟩

def treeOf (vfs : VfsManager) : Backend → Option Tree
  | .ram => some vfs.ram
  | .fat => vfs.fat
  | .lfs => vfs.lfs
  | .boot => none
  | .srv => vfs.srv

def setTree (vfs : VfsManager) (backend : Backend) (tree : Tree) : VfsManager :=
  match backend with
  | .ram => { vfs with ram := tree }
  | .fat => { vfs with fat := some tree }
  | .lfs => { vfs with lfs := some tree }
  | .boot => vfs
  | .srv => { vfs with srv := some tree }

/-- A volume that was not mounted refuses, and so does the boot volume. -/
def mutate (vfs : VfsManager) (path : Text) (change : Backend → Tree → Tree × Bool) :
    VfsManager × Bool :=
  match resolve path with
  | none => (vfs, false)
  | some backend =>
    match vfs.treeOf backend with
    | none => (vfs, false)
    | some tree => (vfs.setTree backend (change backend tree).1, (change backend tree).2)

theorem mutate_cases {vfs : VfsManager} {path : Text} {change : Backend → Tree → Tree × Bool}
    (Holds : VfsManager × Bool → Prop) (refused : Holds (vfs, false))
    (changed : ∀ backend tree, resolve path = some backend → vfs.treeOf backend = some tree →
      Holds (vfs.setTree backend (change backend tree).1, (change backend tree).2)) :
    Holds (vfs.mutate path change) := by
  unfold mutate
  split
  · exact refused
  · next found =>
    split
    · exact refused
    · next mounted => exact changed _ _ found mounted

section Operations

variable (lib : Libraries) (path : Text)

def writeIn (file : StoredFile) : Backend → Tree → Tree × Bool
  | .ram, tree => RamFs.write tree path file
  | .fat, tree => Fat.write lib tree path file
  | .lfs, tree => Lfs.write lib tree path file
  | .boot, tree => (tree, false)
  | .srv, tree => Redox.write lib tree path file

def appendIn (file : StoredFile) : Backend → Tree → Tree × Bool
  | .ram, tree => RamFs.append tree path file
  | .fat, tree => Fat.append lib tree path file
  | .lfs, tree => Lfs.append lib tree path file
  | .boot, tree => (tree, false)
  | .srv, tree => Redox.append lib tree path file

def mkdirIn : Backend → Tree → Tree × Bool
  | .ram, tree => RamFs.mkdir tree path
  | .fat, tree => Fat.mkdir lib tree path
  | .lfs, tree => Lfs.mkdir lib tree path
  | .boot, tree => (tree, false)
  | .srv, tree => Redox.mkdir lib tree path

def rmdirIn : Backend → Tree → Tree × Bool
  | .ram, tree => RamFs.rmdir tree path
  | .fat, tree => Fat.rmdir lib tree path
  | .lfs, tree => Lfs.rmdir lib tree path
  | .boot, tree => (tree, false)
  | .srv, tree => Redox.rmdir lib tree path

def unlinkIn : Backend → Tree → Tree × Bool
  | .ram, tree => RamFs.unlink tree path
  | .fat, tree => Fat.unlink lib tree path
  | .lfs, tree => Lfs.unlink lib tree path
  | .boot, tree => (tree, false)
  | .srv, tree => Redox.unlink lib tree path

def rmdirRecursiveIn : Backend → Tree → Tree × Bool
  | .ram, tree => RamFs.rmdirRecursive tree path
  | .fat, tree => Fat.rmdirRecursive lib tree path
  | .lfs, tree => Lfs.rmdirRecursive lib tree path
  | .boot, tree => (tree, false)
  | .srv, tree => Redox.rmdirRecursive lib tree path

end Operations

section Reads

variable (lib : Libraries) (vfs : VfsManager) (path : Text)

def getFilePtr : Option Nat :=
  if resolve path = some .ram then (RamFs.read vfs.ram path).map size else none

def listDir (out : Nat) : Text :=
  match resolve path with
  | none => []
  | some .ram => RamFs.list vfs.ram path out
  | some .fat => (vfs.fat.map (fun tree => Fat.list lib tree path out)).getD []
  | some .lfs => (vfs.lfs.map (fun tree => Lfs.list lib tree path out)).getD []
  | some .boot => listing out 0 (lib.bootEntries path)
  | some .srv => (vfs.srv.map (fun tree => Redox.list lib tree path out)).getD []

def stat : Option (Nat × Bool) :=
  match resolve path with
  | none => none
  | some .ram => RamFs.stat vfs.ram path
  | some .fat => vfs.fat.bind (fun tree => Fat.stat lib tree path)
  | some .lfs => vfs.lfs.bind (fun tree => Lfs.stat lib tree path)
  | some .boot => lib.bootStat path
  | some .srv => vfs.srv.bind (fun tree => Redox.stat lib tree path)

/-- RAM and FAT look for a file; the others report the size of whatever they find. -/
def fileSize : Nat :=
  match resolve path with
  | none => 0
  | some .ram => ((RamFs.read vfs.ram path).map size).getD 0
  | some .fat => (vfs.fat.map (fun tree => Fat.fileSize lib tree path)).getD 0
  | some _ => ((stat lib vfs path).map Prod.fst).getD 0

def readToVec : List UInt8 :=
  match resolve path with
  | none => []
  | some .ram => ((RamFs.read vfs.ram path).map data).getD []
  | some .fat => (vfs.fat.map (fun tree => Fat.readToVec lib tree path)).getD []
  | some .lfs => (vfs.lfs.map (fun tree => Lfs.readToVec lib tree path)).getD []
  | some .boot => lib.bootRead path
  | some .srv => ((vfs.srv.bind (fun tree => Redox.read lib tree path)).map data).getD []

end Reads

/-- What one line of a listing adds: a file its size, a directory what is below. -/
def lineBytes (sizeOf below : Text → Nat) (base line : Text) : Nat :=
  match line.dropPrefix? "f:".toList with
  | some name => sizeOf (base ++ '/' :: name)
  | none =>
    match line.dropPrefix? "d:".toList with
    | some name => below (base ++ '/' :: name)
    | none => 0

/-- The bytes of the files that a walk over the listings comes across. -/
def collectDirBytes (lib : Libraries) (vfs : VfsManager) : Nat → Text → Nat
  | 0, _ => 0
  | depth + 1, path =>
    (((vfs.listDir lib path 512).splitOnP (fun symbol => symbol == '\n')).map
      (lineBytes (vfs.fileSize lib) (collectDirBytes lib vfs depth) (trimEnd path))).sum

section Arms

variable (lib : Libraries) (sender : Nat) (vfs : VfsManager) (path : Text)

def handleWrite (content : List UInt8) : VfsManager × VfsResponse :=
  if canWrite sender path = false then (vfs, .err 3)
  else
    let oldSize := vfs.fileSize lib path
    let newSize := content.length
    let netCharge := newSize - oldSize
    if netCharge > 0 ∧ vfs.quota.canCharge sender netCharge = false then (vfs, .err 2)
    else
      let (after, done) := vfs.mutate path (writeIn lib path ⟨content, some sender⟩)
      if done then
        ({ after with quota := (after.quota.release sender oldSize).charge sender newSize }, .ok)
      else (after, .err 1)

def handleAppend (content : List UInt8) : VfsManager × VfsResponse :=
  if canWrite sender path = false then (vfs, .err 3)
  else if vfs.quota.canCharge sender content.length = false then (vfs, .err 2)
  else
    let (after, done) := vfs.mutate path (appendIn lib path ⟨content, some sender⟩)
    if done then ({ after with quota := after.quota.charge sender content.length }, .ok)
    else (after, .err 1)

def handleMkdir : VfsManager × VfsResponse :=
  if canWrite sender path = false then (vfs, .err 3)
  else
    let (after, done) := vfs.mutate path (mkdirIn lib path)
    (after, if done then .ok else .err 1)

/-- No access check, here and in the next two. -/
def handleRmdir : VfsManager × VfsResponse :=
  let (after, done) := vfs.mutate path (rmdirIn lib path)
  (after, if done then .ok else .err 1)

def handleUnlink : VfsManager × VfsResponse :=
  let fileSize := vfs.fileSize lib path
  let (after, done) := vfs.mutate path (unlinkIn lib path)
  if done then ({ after with quota := after.quota.release sender fileSize }, .ok)
  else (after, .err 1)

def handleRmdirRecursive : VfsManager × VfsResponse :=
  let freed := collectDirBytes lib vfs 32 path
  let (after, done) := vfs.mutate path (rmdirRecursiveIn lib path)
  if done then ({ after with quota := after.quota.release sender freed }, .ok)
  else (after, .err 1)

end Arms

/-- Grants reach no file: no handle is ever registered, and what is written to one
goes nowhere. -/
def handleRequest (lib : Libraries) (sender : Nat) (vfs : VfsManager) :
    VfsRequest → VfsManager × VfsResponse
  | .malformed => (vfs, .err 0xFF)
  | .getFile path =>
    match vfs.getFilePtr path with
    | some length => (vfs, .dataPtr length)
    | none => (vfs, .err 1)
  | .listDir path => (vfs, .listed (vfs.listDir lib path ipcBufSize))
  | .stat path =>
    match vfs.stat lib path with
    | some (size, isDir) => (vfs, .stat size isDir)
    | none => (vfs, .err 1)
  | .write path content => handleWrite lib sender vfs path content
  | .append path content => handleAppend lib sender vfs path content
  | .mkdir path => handleMkdir lib sender vfs path
  | .rmdir path => handleRmdir lib vfs path
  | .unlink path => handleUnlink lib sender vfs path
  | .rmdirRecursive path => handleRmdirRecursive lib sender vfs path
  | .readAsync path =>
    let (pending, handle) := vfs.pending.insert (vfs.readToVec lib path)
    ({ vfs with pending := pending }, .pendingHandle handle)
  | .poll handle =>
    match vfs.pending.poll handle with
    | (pending, some data) => ({ vfs with pending := pending }, .data (data.take 480))
    | (_, none) => (vfs, .err 4)
  | .readGrant shared => (vfs, if shared then .grantDone 0 else .err 1)
  | .writeGrant shared bytes => (vfs, if shared then .grantDone (min bytes 4096) else .err 1)

end VfsManager

structure VfsCall where
  sender : Nat
  request : VfsRequest
  /-- How the libraries answer this request if a disk access of it fails. -/
  faulty : Option Libraries

def serve (lib : Libraries) (vfs : VfsManager) (call : VfsCall) : Option VfsManager :=
  some (vfs.handleRequest (call.faulty.getD lib) call.sender call.request).1

end ViCell.Vfs

import ViCell.Memory.Sv39

/-!
# Stacks, grants and segments

The three users of frames that change page-table entries: `Stack` in
`task/stack.rs`, the grant pages of `task/syscall.rs`, and the segment pages of
`loader/elf.rs` with `CellSegments`. Frame contents (zeroing, copying the ELF
bytes) are left out: no table lies in a frame these functions write.
-/

namespace ViCell.Memory

open Lib

namespace Flags

def kernelRw : Word := valid ||| read ||| write ||| accessed ||| dirty
def kernelRwx : Word := valid ||| read ||| write ||| execute ||| accessed ||| dirty
def userRw : Word := valid ||| read ||| write ||| user ||| accessed ||| dirty

end Flags

def pageAt (base i : Nat) : Nat := usize (base + i * pageSize)

/-- Pages `i, …, i + count - 1` of a run mapped to themselves until one fails;
returns how many were mapped. -/
def mapRun (root : Nat) (flags : Word) (base : Nat) : Nat → Nat → Machine → Machine × Nat
  | _, 0, machine => (machine, 0)
  | i, count + 1, machine =>
    match PageTable.map root machine (pageAt base i) (pageAt base i) flags with
    | (machine, .error _) => (machine, 0)
    | (machine, .ok ()) =>
      let rest := mapRun root flags base (i + 1) count machine
      (rest.1, rest.2 + 1)

/-- Back to the boot mapping: unmap, then map kernel RWX, errors ignored. -/
def restore (root : Nat) (machine : Machine) (frame : Nat) : Machine :=
  (PageTable.map root (PageTable.unmap root machine frame) frame frame Flags.kernelRwx).1

def deallocate (machine : Machine) (frame : Nat) : Machine :=
  { machine with allocator := machine.allocator.deallocateFrame frame }

def releaseRun (root base : Nat) : Nat → Nat → Machine → Machine
  | _, 0, machine => machine
  | i, count + 1, machine =>
    releaseRun root base (i + 1) count
      (deallocate (restore root machine (pageAt base i)) (pageAt base i))

def restoreRun (root base : Nat) : Nat → Nat → Machine → Machine
  | _, 0, machine => machine
  | i, count + 1, machine => restoreRun root base (i + 1) count (restore root machine (pageAt base i))

def deallocateRun (base : Nat) : Nat → Nat → Machine → Machine
  | _, 0, machine => machine
  | i, count + 1, machine => deallocateRun base (i + 1) count (deallocate machine (pageAt base i))

structure Stack where
  base : Nat
  pages : Nat
  hasGuard : Bool
  top : Nat
  deriving DecidableEq, Repr

namespace Stack

def totalPages (pages : Nat) (guard : Bool) : Nat := if guard then usize (pages + 1) else pages

/-- A failed mapping returns without giving the frames back; `none` is the
allocator's index panic. -/
def allocate (root : Nat) (machine : Machine) (pages : Nat) (guard userMode : Bool) :
    Option (Machine × Except ViError Stack) :=
  let total := totalPages pages guard
  match machine.allocator.allocateContiguous total with
  | none => none
  | some (allocator, none) => some ({ machine with allocator := allocator }, .error .outOfMemory)
  | some (allocator, some base) =>
    let first := if guard then 1 else 0
    let flags := if userMode then Flags.userRw else Flags.kernelRw
    let mapped := mapRun root flags base first (total - first)
      { machine with allocator := allocator }
    if mapped.2 < total - first then some (mapped.1, .error .outOfMemory)
    else
      some (if guard then PageTable.unmap root mapped.1 base else mapped.1,
        .ok { base := base, pages := pages, hasGuard := guard,
              top := usize (base + total * pageSize) })

def newKernel (root : Nat) (machine : Machine) (pages : Nat) :
    Option (Machine × Except ViError Stack) := allocate root machine pages true false

def newUser (root : Nat) (machine : Machine) (pages : Nat) :
    Option (Machine × Except ViError Stack) := allocate root machine pages true true

def drop (root : Nat) (machine : Machine) (stack : Stack) : Machine :=
  releaseRun root stack.base 0 (totalPages stack.pages stack.hasGuard) machine

end Stack

/-- The three lock holds of `alloc_grant_pages`, one after the other: the
frames, the mapping, and giving back after a partial mapping. -/
def mapGrantPages (root base pages : Nat) (machine : Machine) : Machine × Nat :=
  mapRun root Flags.userRw base 0 pages machine

def undoGrantPages (root base pages mapped : Nat) (machine : Machine) : Machine :=
  deallocateRun base 0 pages (restoreRun root base 0 mapped machine)

def allocGrantPages (root : Nat) (machine : Machine) (pages : Nat) :
    Option (Machine × Option Nat) :=
  match machine.allocator.allocateContiguous pages with
  | none => none
  | some (allocator, none) => some ({ machine with allocator := allocator }, none)
  | some (allocator, some base) =>
    let mapped := mapGrantPages root base pages { machine with allocator := allocator }
    if mapped.2 < pages then some (undoGrantPages root base pages mapped.2 mapped.1, none)
    else some (mapped.1, some base)

def freeGrantPages (root base pages : Nat) (machine : Machine) : Machine :=
  releaseRun root base 0 pages machine

/-- A loadable program header, its address already moved by `load_base`. -/
structure ProgramHeader where
  vaddr : Nat
  memSize : Nat
  fileOffset : Nat
  fileSize : Nat
  isRead : Bool
  isWrite : Bool
  isExecute : Bool
  deriving DecidableEq, Repr

/-- A page of a cell's segments: its address, its frame and its permissions. -/
structure MappedPage where
  va : Nat
  frame : Nat
  flags : Word
  deriving DecidableEq, Repr

def userVaddrMax : Nat := 0x4000000000

namespace ElfLoader

def segmentFlags (header : ProgramHeader) : Word :=
  Flags.valid ||| Flags.user ||| Flags.accessed |||
    (if header.isRead then Flags.read else 0) |||
    (if header.isWrite then Flags.write ||| Flags.dirty else 0) |||
    (if header.isExecute then Flags.execute else 0)

/-- The collision path: every page mapped so far is unmapped and freed. -/
def unwind (root : Nat) (mapped : List MappedPage) (machine : Machine) : Machine :=
  mapped.foldl (fun machine page => deallocate (PageTable.unmap root machine page.va) page.frame)
    machine

/-- A page that an earlier segment of this cell mapped: permissions are merged.
`none` is the `expect` panic. -/
def sharePage (root : Nat) (flags : Word) (machine : Machine) (mapped : List MappedPage)
    (page : MappedPage) : Option (Machine × List MappedPage) :=
  match PageTable.translate root machine page.va with
  | none => none
  | some phys =>
    let merged := page.flags ||| flags
    if merged = page.flags then some (machine, mapped)
    else
      some ((PageTable.map root machine page.va phys merged).1, mapped.map (fun other =>
          if other.va = page.va then { other with flags := merged } else other))

def loadPage (root : Nat) (flags : Word) (machine : Machine) (mapped : List MappedPage)
    (current : Nat) : Option (Machine × Except ViError (List MappedPage)) :=
  match mapped.find? (fun page => page.va = current) with
  | some page =>
    (sharePage root flags machine mapped page).map (fun shared => (shared.1, .ok shared.2))
  | none =>
    if (PageTable.translate root machine current).isSome then
      some (unwind root mapped machine, .error .permissionDenied)
    else
      match machine.allocator.allocateFrame with
      | (allocator, none) => some ({ machine with allocator := allocator }, .error .outOfMemory)
      | (allocator, some frame) =>
        match PageTable.map root { machine with allocator := allocator } current frame flags with
        | (machine, .error _) => some (machine, .error .outOfMemory)
        | (machine, .ok ()) =>
          some (machine, .ok (mapped ++ [{ va := current, frame := frame, flags := flags }]))

def loadPages (root : Nat) (flags : Word) :
    Nat → Nat → Machine → List MappedPage → Option (Machine × Except ViError (List MappedPage))
  | 0, _, machine, mapped => some (machine, .ok mapped)
  | count + 1, current, machine, mapped =>
    match loadPage root flags machine mapped current with
    | none => none
    | some (machine, .error error) => some (machine, .error error)
    | some (machine, .ok mapped) =>
      loadPages root flags count (current + pageSize) machine mapped

/-- The header checks, in order; the result is the number of the first page and
the page count. -/
def checkHeader (dataLen : Nat) (header : ProgramHeader) : Except ViError (Nat × Nat) :=
  if header.memSize < header.fileSize then .error .invalidInput
  else if 2 ^ 64 ≤ header.fileOffset + header.fileSize then .error .invalidInput
  else if dataLen < header.fileOffset + header.fileSize then .error .invalidInput
  else if 2 ^ 64 ≤ header.vaddr + header.memSize then .error .invalidInput
  else if userVaddrMax ≤ header.vaddr ∨ userVaddrMax < header.vaddr + header.memSize then
    .error .permissionDenied
  else
    .ok (header.vaddr / pageSize,
      (header.vaddr + header.memSize + pageSize - 1) / pageSize - header.vaddr / pageSize)

def loadHeaders (root dataLen : Nat) :
    List ProgramHeader → Machine → List MappedPage →
      Option (Machine × Except ViError (List MappedPage))
  | [], machine, mapped => some (machine, .ok mapped)
  | header :: rest, machine, mapped =>
    match checkHeader dataLen header with
    | .error error => some (machine, .error error)
    | .ok (first, count) =>
      match loadPages root (segmentFlags header) count (first * pageSize) machine mapped with
      | none => none
      | some (machine, .error error) => some (machine, .error error)
      | some (machine, .ok mapped) => loadHeaders root dataLen rest machine mapped

def loadSegments (root dataLen : Nat) (headers : List ProgramHeader) (machine : Machine) :
    Option (Machine × Except ViError (List MappedPage)) :=
  loadHeaders root dataLen headers machine []

end ElfLoader

namespace CellSegments

/-- Unmap a segment page only while it still resolves to the cell's own frame. -/
def unmapOwn (root : Nat) (machine : Machine) (page : MappedPage) : Machine :=
  if PageTable.translate root machine page.va = some page.frame then
    PageTable.unmap root machine page.va
  else machine

def eagerUnmap (root : Nat) (pages : List MappedPage) (machine : Machine) : Machine :=
  pages.foldl (unmapOwn root) machine

def drop (root : Nat) (pages : List MappedPage) (machine : Machine) : Machine :=
  pages.foldl (fun machine page => deallocate (unmapOwn root machine page) page.frame) machine

end CellSegments

end ViCell.Memory

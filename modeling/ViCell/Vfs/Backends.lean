import ViCell.Lib.FileTree
import ViCell.Vfs.Paths

/-!
# Backends of the file service

Each mounted file system reads an absolute path in its own way. The volumes are
file trees. The calls of the disk libraries (fatfs, littlefs2) and of the kernel's
boot volume are parameters.
-/

namespace ViCell.Vfs

open Lib

structure StoredFile where
  data : List UInt8
  /-- The cell whose request last wrote the file; nobody for what was found at boot. -/
  writer : Option Nat
  deriving DecidableEq, Repr

def StoredFile.size (file : StoredFile) : Nat := file.data.length

abbrev Tree := FileTree Text StoredFile

/-- What the disk libraries answer. An open directory or file is its stored path, and
a call that changes a volume gives the changed one back; the loops that read a file
to its end are one call. -/
structure Libraries where
  fatOpenDir : Tree → List Text → Text → Option (List Text)
  fatOpenFile : Tree → List Text → Text → Option (List Text)
  /-- The entries of a directory, those that cannot be read included. -/
  fatIter : Tree → List Text → List (Option (Text × Bool))
  fatSeekEnd : Tree → List Text → Option Nat
  fatReadToEnd : Tree → List Text → List UInt8
  fatRemove : Tree → List Text → Text → Tree × Bool
  fatCreateDir : Tree → List Text → Text → Tree × Option (List Text)
  fatCreateFile : Tree → List Text → Text → Option Nat → Tree × Option (List Text)
  fatWriteAll : Tree → List Text → Nat → StoredFile → Tree × Bool
  /-- Whether a text can be a path of littlefs. -/
  lfsPathBuf : Text → Bool
  lfsReadDir : Tree → Text → Option (List (Option (Text × Bool)))
  lfsMetadata : Tree → Text → Option (Nat × Bool)
  lfsReadToEnd : Tree → Text → Option (List UInt8)
  /-- Opened for writing, truncated or at its end, and written. -/
  lfsWriteAll : Tree → Text → Bool → StoredFile → Tree × Bool
  lfsCreateDirAll : Tree → Text → Tree × Bool
  lfsRemoveDir : Tree → Text → Tree × Bool
  lfsRemove : Tree → Text → Tree × Bool
  lfsRemoveDirAll : Tree → Text → Tree × Bool
  /-- A disk access of the service volume's transaction fails. -/
  srvFails : Bool
  bootEntries : Text → List (Text × Bool)
  bootStat : Text → Option (Nat × Bool)
  bootRead : Text → List UInt8

def dot : Text := ".".toList

def dotDot : Text := "..".toList

def hasDotDot (rel : Text) : Bool := (rel.splitOnP isSlash).contains dotDot

def byteLength (text : Text) : Nat := (text.map Char.utf8Size).sum

def entryLine (entry : Text × Bool) : Text :=
  (if entry.2 then "d:".toList else "f:".toList) ++ entry.1 ++ ['\n']

/-- Lines are written while they fit; the first that does not ends the listing. -/
def listing (capacity : Nat) : Nat → List (Text × Bool) → Text
  | _, [] => []
  | position, entry :: rest =>
    let next := position + byteLength (entryLine entry)
    if next > capacity then [] else entryLine entry ++ listing capacity next rest

def dirEntries (tree : Tree) (dir : List Text) : List (Text × Bool) :=
  (tree.children dir).map (fun child => (child.1, child.2.isDir))

def settle (tree : Tree) (result : Option Tree) : Tree × Bool :=
  match result with
  | some after => (after, true)
  | none => (tree, false)

def fileAt (tree : Tree) (path : List Text) : Option StoredFile :=
  match tree.lookup path with
  | some (.file file) => some file
  | _ => none

def removeFile (tree : Tree) (path : List Text) : Option Tree :=
  if tree.lookup path = some .dir then none else tree.remove path

def removeDir (tree : Tree) (path : List Text) : Option Tree :=
  if tree.lookup path = some .dir then tree.remove path else none

namespace RamFs

/-- The catalogue and the scratch directory that the service starts with. -/
def new : Tree :=
  ((FileTree.empty.writeFile ["readme.txt".toList]
    ⟨"Welcome to ViCell!\n".toList.map (fun symbol => symbol.toNat.toUInt8), none⟩).bind
      (fun tree => tree.makeDir ["tmp".toList])).getD FileTree.empty

/-- Where the parent and the name of a path lead. -/
def target (path : Text) : Option (List Text) :=
  (splitParentName path).map (fun cut => components cut.1 ++ [cut.2])

def list (tree : Tree) (path : Text) (out : Nat) : Text :=
  if tree.lookup (components path) = some .dir then
    listing (min out 480) 0
      ((dirEntries tree (components path)).insertionSort (fun first second => first.1 ≤ second.1))
  else []

def stat (tree : Tree) (path : Text) : Option (Nat × Bool) :=
  (tree.lookup (components path)).map (fun node => (node.weight StoredFile.size, node.isDir))

def read (tree : Tree) (path : Text) : Option StoredFile := fileAt tree (components path)

def writeNode (tree : Tree) (path : Text) (file : StoredFile) : Tree × Bool :=
  settle tree ((target path).bind (fun path => tree.writeFile path file))

def write (tree : Tree) (path : Text) (file : StoredFile) : Tree × Bool :=
  if "/tmp/".toList.isPrefixOf path then writeNode tree path file else (tree, false)

def append (tree : Tree) (path : Text) (file : StoredFile) : Tree × Bool :=
  if "/tmp/".toList.isPrefixOf path then
    writeNode tree path
      { file with data := ((read tree path).map StoredFile.data).getD [] ++ file.data }
  else (tree, false)

def mkdir (tree : Tree) (path : Text) : Tree × Bool :=
  settle tree ((target path).bind tree.makeDir)

def rmdir (tree : Tree) (path : Text) : Tree × Bool :=
  settle tree ((target path).bind (removeDir tree))

def unlink (tree : Tree) (path : Text) : Tree × Bool :=
  settle tree ((target path).bind (removeFile tree))

def rmdirRecursive (tree : Tree) (path : Text) : Tree × Bool :=
  settle tree ((target path).bind (fun path =>
    if tree.lookup path = some .dir then some (tree.removeTree path) else none))

end RamFs

namespace Fat

def relNonempty (path : Text) : Option Text :=
  ((path.dropPrefix? Backend.fat.mountPoint).bind (fun rest => rest.dropPrefix? "/".toList)).filter
    (fun rel => !rel.isEmpty)

def relAllowRoot (path : Text) : Text :=
  let rest := (path.dropPrefix? Backend.fat.mountPoint).getD path
  (rest.dropPrefix? "/".toList).getD rest

variable (lib : Libraries)

/-- The directories made on the way stay when a later one fails. -/
def ensureDirChain : Tree → List Text → List Text → Tree × Option (List Text)
  | tree, dir, [] => (tree, some dir)
  | tree, dir, part :: rest =>
    match lib.fatCreateDir tree dir part with
    | (after, none) => (after, none)
    | (after, some next) => ensureDirChain after next rest

/-- The entries for the directory itself and for its parent are passed over. -/
def named (entry : Text × Bool) : Bool := entry.1 ≠ dot && entry.1 ≠ dotDot

def list (tree : Tree) (path : Text) (out : Nat) : Text :=
  let rel := relAllowRoot path
  match if rel = [] then some [] else lib.fatOpenDir tree [] rel with
  | some dir =>
    listing out 0 ((((lib.fatIter tree dir).takeWhile Option.isSome).reduceOption).filter named)
  | none => []

def stat (tree : Tree) (path : Text) : Option (Nat × Bool) :=
  let rel := relAllowRoot path
  if rel = [] then some (0, true)
  else if hasDotDot rel then none
  else match lib.fatOpenFile tree [] rel with
    | some file => some ((lib.fatSeekEnd tree file).getD 0, false)
    | none => (lib.fatOpenDir tree [] rel).map (fun _ => (0, true))

def openFile (tree : Tree) (path : Text) : Option (List Text) :=
  (relNonempty path).bind (lib.fatOpenFile tree [])

def fileSize (tree : Tree) (path : Text) : Nat :=
  ((openFile lib tree path).bind (lib.fatSeekEnd tree)).getD 0

def readToVec (tree : Tree) (path : Text) : List UInt8 :=
  ((openFile lib tree path).map (lib.fatReadToEnd tree)).getD []

/-- What was there is removed, whether or not that works. -/
def replaceIn (made : Tree) (dir : List Text) (name : Text) (file : StoredFile) : Tree × Bool :=
  match lib.fatCreateFile (lib.fatRemove made dir name).1 dir name file.writer with
  | (created, none) => (created, false)
  | (created, some place) => lib.fatWriteAll created place 0 file

def extendIn (made : Tree) (dir : List Text) (name : Text) (file : StoredFile) : Tree × Bool :=
  let opened := match lib.fatOpenFile made dir name with
    | some place => (made, some place)
    | none => lib.fatCreateFile made dir name file.writer
  match opened with
  | (created, none) => (created, false)
  | (created, some place) =>
    match lib.fatSeekEnd created place with
    | none => (created, false)
    | some size => lib.fatWriteAll created place size file

/-- Done in the directory that the parent path leads to, once it is there. -/
def inParent (tree : Tree) (rel : Text) (act : Tree → List Text → Text → Tree × Bool) :
    Tree × Bool :=
  let (parent, name) := splitLast rel
  if name = [] then (tree, false)
  else match ensureDirChain lib tree [] (components parent) with
    | (made, none) => (made, false)
    | (made, some dir) => act made dir name

def write (tree : Tree) (path : Text) (file : StoredFile) : Tree × Bool :=
  match relNonempty path with
  | none => (tree, false)
  | some rel => inParent lib tree rel (fun made dir name => replaceIn lib made dir name file)

def append (tree : Tree) (path : Text) (file : StoredFile) : Tree × Bool :=
  match relNonempty path with
  | none => (tree, false)
  | some rel =>
    if hasDotDot rel then (tree, false)
    else inParent lib tree rel (fun made dir name => extendIn lib made dir name file)

def mkdir (tree : Tree) (path : Text) : Tree × Bool :=
  match relNonempty path with
  | none => (tree, false)
  | some rel =>
    let (made, dir) := ensureDirChain lib tree [] (components rel)
    (made, dir.isSome)

def rmdir (tree : Tree) (path : Text) : Tree × Bool :=
  match relNonempty path with
  | none => (tree, false)
  | some rel =>
    if hasDotDot rel ∨ lib.fatOpenDir tree [] rel = none then (tree, false)
    else lib.fatRemove tree [] rel

def unlink (tree : Tree) (path : Text) : Tree × Bool :=
  match relNonempty path with
  | none => (tree, false)
  | some rel =>
    if lib.fatOpenFile tree [] rel = none then (tree, false) else lib.fatRemove tree [] rel

/-- The children go one by one; the first that cannot be removed ends it. -/
def removeEach (removeDir : Tree → Text → Tree × Bool) (rel : Text) :
    List (Text × Bool) → Tree → Tree × Bool
  | [], tree => (tree, true)
  | (name, isDir) :: rest, tree =>
    let child := rel ++ '/' :: name
    match if isDir then removeDir tree child else lib.fatRemove tree [] child with
    | (after, false) => (after, false)
    | (after, true) => removeEach removeDir rel rest after

/-- The first argument bounds how deep the calls nest. -/
def removeTree : Nat → Tree → Text → Tree × Bool
  | 0, tree, _ => (tree, false)
  | depth + 1, tree, rel =>
    match lib.fatOpenDir tree [] rel with
    | none => lib.fatRemove tree [] rel
    | some dir =>
      match removeEach lib (removeTree depth) rel
          ((lib.fatIter tree dir).reduceOption.filter named) tree with
      | (after, false) => (after, false)
      | (after, true) => lib.fatRemove after [] rel

/-- Calls nest no deeper than directories do, and a volume has more nodes than levels. -/
def rmdirRecursive (tree : Tree) (path : Text) : Tree × Bool :=
  match relNonempty path with
  | none => (tree, false)
  | some rel =>
    if hasDotDot rel then (tree, false)
    else removeTree lib (tree.entries.length + 1) tree rel

end Fat

namespace Lfs

variable (lib : Libraries)

def relPath (path : Text) : Option Text :=
  let rel := (path.dropPrefix? Backend.lfs.mountPoint).getD path
  let full := if rel = [] then "/".toList else rel
  if hasDotDot full ∨ lib.lfsPathBuf full = false then none else some full

def list (tree : Tree) (path : Text) (out : Nat) : Text :=
  match (relPath lib path).bind (lib.lfsReadDir tree) with
  | none => []
  | some entries => listing out 0 (entries.reduceOption.filter
      (fun entry => !entry.1.isEmpty && Fat.named entry))

def stat (tree : Tree) (path : Text) : Option (Nat × Bool) :=
  (relPath lib path).bind (lib.lfsMetadata tree)

def readToVec (tree : Tree) (path : Text) : List UInt8 :=
  ((relPath lib path).bind (lib.lfsReadToEnd tree)).getD []

/-- A path that cannot be read is refused. -/
def change (tree : Tree) (path : Text) (act : Text → Tree × Bool) : Tree × Bool :=
  match relPath lib path with
  | none => (tree, false)
  | some rel => act rel

def write (tree : Tree) (path : Text) (file : StoredFile) : Tree × Bool :=
  change lib tree path (fun rel => lib.lfsWriteAll tree rel false file)

def append (tree : Tree) (path : Text) (file : StoredFile) : Tree × Bool :=
  change lib tree path (fun rel => lib.lfsWriteAll tree rel true file)

def mkdir (tree : Tree) (path : Text) : Tree × Bool :=
  change lib tree path (lib.lfsCreateDirAll tree)

def rmdir (tree : Tree) (path : Text) : Tree × Bool :=
  change lib tree path (fun rel =>
    if (lib.lfsMetadata tree rel).map Prod.snd = some true then lib.lfsRemoveDir tree rel
    else (tree, false))

def unlink (tree : Tree) (path : Text) : Tree × Bool :=
  change lib tree path (fun rel =>
    if (lib.lfsMetadata tree rel).map Prod.snd = some false then lib.lfsRemove tree rel
    else (tree, false))

def rmdirRecursive (tree : Tree) (path : Text) : Tree × Bool :=
  change lib tree path (lib.lfsRemoveDirAll tree)

end Lfs

namespace Redox

variable (lib : Libraries)

/-- Requests are transactions: one that fails answers as for a path that is refused. -/
def relPath (path : Text) : Option (List Text) :=
  let rel := (path.dropPrefix? Backend.srv.mountPoint).getD path
  if hasDotDot rel ∨ lib.srvFails then none else some (components rel)

def list (tree : Tree) (path : Text) (out : Nat) : Text :=
  match relPath lib path with
  | none => []
  | some rel => if tree.lookup rel = some .dir then listing out 0 (dirEntries tree rel) else []

def stat (tree : Tree) (path : Text) : Option (Nat × Bool) :=
  (relPath lib path).bind (fun rel =>
    (tree.lookup rel).map (fun node => (node.weight StoredFile.size, node.isDir)))

def read (tree : Tree) (path : Text) : Option StoredFile := (relPath lib path).bind (fileAt tree)

def write (tree : Tree) (path : Text) (file : StoredFile) : Tree × Bool :=
  settle tree ((relPath lib path).bind (fun rel => tree.writeFile rel file))

def append (tree : Tree) (path : Text) (file : StoredFile) : Tree × Bool :=
  settle tree ((relPath lib path).bind (fun rel => tree.writeFile rel
    { file with data := ((fileAt tree rel).map StoredFile.data).getD [] ++ file.data }))

def mkdir (tree : Tree) (path : Text) : Tree × Bool :=
  settle tree ((relPath lib path).bind tree.makeDir)

/-- The mode that is removed is the one just read, so files go as well. -/
def rmdir (tree : Tree) (path : Text) : Tree × Bool :=
  settle tree ((relPath lib path).bind tree.remove)

def unlink (tree : Tree) (path : Text) : Tree × Bool :=
  settle tree ((relPath lib path).bind (removeFile tree))

def rmdirRecursive (tree : Tree) (path : Text) : Tree × Bool :=
  settle tree ((relPath lib path).bind (fun path =>
    if path ≠ [] ∧ tree.lookup path = some .dir then some (tree.removeTree path) else none))

end Redox

end ViCell.Vfs

import ViCell.Core.Cap
import ViCell.Loader.Relocations

/-!
# What a cell's signature covers

`verify_cell_with_key` in `signing.rs` signs the file bytes of the loadable segments and the
manifest, joined without lengths.  The loader also reads the ELF header, the program headers,
the relocation section and the list of allowed system calls.
-/

namespace ViCell.Loader

open Lib.Bytes Memory Core.Cap List Prod CapSet

/-- An ELF file as its parser presents it.  `headers` are the loadable program headers in
table order, their addresses as in the file. -/
structure ElfImage where
  data : List (BitVec 8)
  entry : Nat
  isPie : Bool
  headers : List ProgramHeader
  manifest : Option (List (BitVec 8))
  relaDyn : Option (List (BitVec 8))
  syscalls : Option (List (BitVec 8))

namespace ElfImage

def fileBytes (image : ElfImage) (header : ProgramHeader) : List (BitVec 8) :=
  (image.data.drop header.fileOffset).take header.fileSize

def inFile (image : ElfImage) (header : ProgramHeader) : Bool :=
  decide (header.fileOffset + header.fileSize < 2 ^ 64 ∧
    header.fileOffset + header.fileSize ≤ image.data.length)

def precedes (first second : ProgramHeader × Nat) : Bool :=
  decide (first.1.fileOffset < second.1.fileOffset ∨
    first.1.fileOffset = second.1.fileOffset ∧ (first.1.fileSize < second.1.fileSize ∨
      first.1.fileSize = second.1.fileSize ∧ first.2 ≤ second.2))

def signed (image : ElfImage) : List (ProgramHeader × Nat) :=
  (image.headers.zipIdx.filter (fun entry => decide (0 < entry.1.fileSize))).mergeSort precedes

def parts (image : ElfImage) : List (Nat × List (BitVec 8)) :=
  image.signed.map (fun entry => (entry.2, image.fileBytes entry.1))

/-- A segment that leaves the file is refused before anything is verified. -/
def payload (image : ElfImage) : Option (List (BitVec 8)) :=
  if ∀ entry ∈ image.signed, image.inFile entry.1 then
    some (image.parts.flatMap snd ++ image.manifest.getD [])
  else none

/-- A section that is missing or too short permits every call. -/
def allowlist (image : ElfImage) : Nat :=
  match image.syscalls with
  | some bytes => if 8 ≤ bytes.length then decodeLE (bytes.take 8) else 2 ^ 64 - 1
  | none => 2 ^ 64 - 1

/-- What a cell starts with: each segment with its file bytes, followed by zeros, and the
words that relocation writes over them. -/
structure Loaded where
  entry : Nat
  segments : List (ProgramHeader × List (BitVec 8))
  words : List WordWrite
  caps : CapSet
  allowlist : Nat
  deriving DecidableEq

def move (base : Nat) (header : ProgramHeader) : ProgramHeader :=
  { header with vaddr := usize (header.vaddr + base) }

def segment (image : ElfImage) (base : Nat) (header : ProgramHeader) :
    ProgramHeader × List (BitVec 8) :=
  ({ move base header with fileOffset := 0 }, image.fileBytes header)

/-- Every header passes the checks of `load_segments`. -/
def accepted (image : ElfImage) (base : Nat) : Bool :=
  (image.headers.map (fun header =>
    (ElfLoader.checkHeader image.data.length (move base header)).isOk)).all id

/-- `slot` is the address range for a position independent image, `granted` what the path,
the spawner and the policy make of a manifest.  A refused header is reported as
`OutOfMemory`, whatever was wrong with it. -/
def load (image : ElfImage) (slot : Nat)
    (granted : Option (List (BitVec 8)) → Except ViError CapSet) : Except ViError Loaded :=
  let base := if image.isPie then slot else 0
  match granted image.manifest, applyRelocations base (image.relaDyn.getD []) with
  | .error error, _ => .error error
  | .ok caps, (words, relocated) =>
    if image.accepted base then
      relocated.map (fun _ =>
        { entry := usize (image.entry + base), segments := image.headers.map (image.segment base)
          words := words, caps := caps, allowlist := image.allowlist })
    else .error .outOfMemory

/-- A header without its place in the file, and whether that is inside the file. -/
def outline (image : ElfImage) (header : ProgramHeader) : ProgramHeader × Bool :=
  ({ header with fileOffset := 0 }, image.inFile header)

/-- The images agree on what the loader reads and nobody signs; segments may stand at
different places of the file, in the same order. -/
structure Agree (first second : ElfImage) : Prop where
  entry : first.entry = second.entry
  isPie : first.isPie = second.isPie
  headers : first.headers.map first.outline = second.headers.map second.outline
  order : first.parts.map (map id length) = second.parts.map (map id length)
  relocations : applyRelocations 0 (first.relaDyn.getD []) =
    applyRelocations 0 (second.relaDyn.getD [])
  manifest : first.manifest.isSome = second.manifest.isSome
  allowlist : first.allowlist = second.allowlist

/-- A relocated word, moved by the base. -/
def shift (base : Nat) (write : WordWrite) : WordWrite :=
  ⟨usize (base + write.address), usize (base + write.value)⟩

theorem apply_entries_shift (base : Nat) (entries : List Rela64) :
    applyEntries base entries =
      ((applyEntries 0 entries).1.map (shift base), (applyEntries 0 entries).2) := by
  induction entries with
  | nil => rfl
  | cons entry rest ih =>
    unfold applyEntries
    split
    · exact ih
    · rw [ih]
      simp [applyRelative, shift, usize]
    · rfl

theorem apply_relocations_shift (base : Nat) (rela : List (BitVec 8)) :
    applyRelocations base rela =
      ((applyRelocations 0 rela).1.map (shift base), (applyRelocations 0 rela).2) := by
  unfold applyRelocations
  split
  · rfl
  · split
    · rfl
    · exact apply_entries_shift base _

theorem parts_of_joined {left right : List (Nat × List (BitVec 8))} {more rest : List (BitVec 8)}
    (order : left.map (map id length) = right.map (map id length))
    (joined : left.flatMap snd ++ more = right.flatMap snd ++ rest) :
    left = right ∧ more = rest := by
  induction left generalizing right with
  | nil =>
    obtain rfl := map_eq_nil_iff.mp order.symm
    exact ⟨rfl, joined⟩
  | cons part left ih =>
    cases right with
    | nil => cases order
    | cons other right =>
      obtain ⟨same, order⟩ := cons.inj order
      obtain ⟨index, length⟩ := Prod.mk.inj same
      simp only [flatMap_cons, append_assoc] at joined
      obtain ⟨bytes, joined⟩ := append_inj joined length
      obtain ⟨later, ends⟩ := ih order joined
      exact ⟨congrArg₂ cons (Prod.ext index bytes) later, ends⟩

theorem mem_signed {image : ElfImage} {header : ProgramHeader} {index : Nat} :
    (header, index) ∈ image.signed ↔ image.headers[index]? = some header ∧ 0 < header.fileSize := by
  rw [signed, mem_mergeSort, mem_filter, mem_zipIdx_iff_getElem?, decide_eq_true_eq]

theorem payload_eq_some {image : ElfImage} {payload : List (BitVec 8)}
    (signs : image.payload = some payload) :
    image.parts.flatMap snd ++ image.manifest.getD [] = payload := by
  unfold ElfImage.payload at signs
  split at signs
  · exact Option.some.inj signs
  · cases signs

variable {first second : ElfImage} {base : Nat}

/-- The header checks see the outline of a header only. -/
theorem check_alike {header other : ProgramHeader}
    (shape : first.outline header = second.outline other) :
    ElfLoader.checkHeader first.data.length (move base header) =
      ElfLoader.checkHeader second.data.length (move base other) := by
  simp only [outline, inFile, Prod.mk.injEq, ProgramHeader.mk.injEq, decide_eq_decide] at shape
  obtain ⟨⟨vaddr, memSize, -, fileSize, -⟩, inside⟩ := shape
  rw [fileSize] at inside
  unfold ElfLoader.checkHeader move
  dsimp only
  rw [vaddr, memSize, fileSize]
  grind

theorem segment_alike {index : Nat} {header other : ProgramHeader} (same : first.parts = second.parts)
    (here : first.headers[index]? = some header) (there : second.headers[index]? = some other)
    (shape : first.outline header = second.outline other) :
    first.segment base header = second.segment base other := by
  have shape := (Prod.mk.inj shape).1
  simp only [ProgramHeader.mk.injEq] at shape
  have bytes : first.fileBytes header = second.fileBytes other := by
    by_cases empty : other.fileSize = 0
    · simp [fileBytes, shape, empty]
    · have mem : (index, first.fileBytes header) ∈ second.parts := by
        rw [← same]
        exact mem_map_of_mem (mem_signed.mpr ⟨here, by omega⟩)
      obtain ⟨⟨_, _⟩, isSigned, equal⟩ := mem_map.mp mem
      obtain ⟨rfl, bytes⟩ := Prod.mk.inj equal
      cases (mem_signed.mp isSigned).1.symm.trans there
      exact bytes.symm
  simp [segment, move, bytes, shape]

theorem headers_alike {Reading : Type} (read : ElfImage → ProgramHeader → Reading)
    (outlines : first.headers.map first.outline = second.headers.map second.outline)
    (alike : ∀ (index : Nat) header other, first.headers[index]? = some header →
      second.headers[index]? = some other → first.outline header = second.outline other →
        read first header = read second other) :
    first.headers.map (read first) = second.headers.map (read second) := by
  apply ext_getElem?
  intro index
  have shapes := congrArg (fun list => list[index]?) outlines
  simp only [getElem?_map] at shapes ⊢
  cases here : first.headers[index]? <;> cases there : second.headers[index]? <;>
    rw [here, there] at shapes
  · rfl
  · cases shapes
  · cases shapes
  · exact congrArg some (alike index _ _ here there (Option.some.inj shapes))

def codeHeader : ProgramHeader := ⟨0x1000, 2, 0, 2, true, false, true⟩

def twoBytes (rest : List (BitVec 8)) (entry : Nat) (header : ProgramHeader) : ElfImage :=
  ⟨[0x13, 0x00] ++ rest, entry, false, [header], none, none, none⟩

end ElfImage

end ViCell.Loader

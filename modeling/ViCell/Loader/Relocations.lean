import ViCell.Lib.Bytes
import ViCell.Memory.Regions

/-!
# Relocation

`apply_relocations` in `loader/reloc.rs`.  What it does to memory is the list of words it
writes: the entries of `.rela.dyn` are applied in order until one is rejected.
-/

namespace ViCell.Loader

open Lib.Bytes Memory List

structure Rela64 where
  offset : Nat
  info : Nat
  /-- The `i64` as `usize`. -/
  addend : Nat

namespace Rela64

def parse (bytes : List (BitVec 8)) : Rela64 :=
  ⟨decodeLE (bytes.take 8), decodeLE ((bytes.drop 8).take 8), decodeLE ((bytes.drop 16).take 8)⟩

def rType (entry : Rela64) : Nat := entry.info % 2 ^ 32
def symIndex (entry : Rela64) : Nat := entry.info / 2 ^ 32

inductive Fixup
  | none
  | relative
  | unsupported
  deriving DecidableEq

def fixup (entry : Rela64) : Fixup :=
  match entry.rType with
  | 0 => .none
  | 3 => .relative
  | 2 => if entry.symIndex ≠ 0 then .unsupported else .relative
  | 1027 => .relative
  | 8 => .relative
  | _ => .unsupported

end Rela64

def entrySize : Nat := 24
def maxRelaEntries : Nat := 65536

structure WordWrite where
  address : Nat
  value : Nat
  deriving DecidableEq

def applyRelative (base : Nat) (entry : Rela64) : WordWrite :=
  ⟨usize (base + entry.offset), usize (base + entry.addend)⟩

def entriesOf : Nat → List (BitVec 8) → List Rela64
  | 0, _ => []
  | count + 1, bytes => Rela64.parse bytes :: entriesOf count (bytes.drop entrySize)

def applyEntries (base : Nat) : List Rela64 → List WordWrite × Except ViError Unit
  | [] => ([], .ok ())
  | entry :: rest =>
    match entry.fixup with
    | .none => applyEntries base rest
    | .relative =>
      let done := applyEntries base rest
      (applyRelative base entry :: done.1, done.2)
    | .unsupported => ([], .error .notSupported)

def applyRelocations (base : Nat) (rela : List (BitVec 8)) :
    List WordWrite × Except ViError Unit :=
  if rela.length % entrySize ≠ 0 then ([], .error .invalidInput)
  else if maxRelaEntries < rela.length / entrySize then ([], .error .invalidInput)
  else applyEntries base (entriesOf (rela.length / entrySize) rela)

/-- All eight bytes at the address lie in pages of the cell. -/
def InPages (pages : List MappedPage) (address : Nat) : Prop :=
  ∀ i < 8, ∃ page ∈ pages, page.va ≤ address + i ∧ address + i < page.va + pageSize

/-- The entries of a well-formed table before the first that is rejected. -/
def reachedEntries (rela : List (BitVec 8)) : List Rela64 :=
  if rela.length % entrySize ≠ 0 ∨ maxRelaEntries < rela.length / entrySize then []
  else (entriesOf (rela.length / entrySize) rela).takeWhile (fun entry =>
    entry.fixup ≠ .unsupported)

theorem apply_entries_writes (base : Nat) (entries : List Rela64) :
    (applyEntries base entries).1 =
      ((entries.takeWhile (fun entry => entry.fixup ≠ .unsupported)).filter
        (fun entry => entry.fixup = .relative)).map (applyRelative base) := by
  induction entries with
  | nil => rfl
  | cons entry rest ih =>
    rw [applyEntries]
    cases kind : entry.fixup with
    | none =>
      rw [takeWhile_cons_of_pos (by simp [kind]), filter_cons_of_neg (by simp [kind])]
      exact ih
    | relative =>
      rw [takeWhile_cons_of_pos (by simp [kind]), filter_cons_of_pos (by simp [kind]),
        map_cons, ← ih]
    | unsupported =>
      rw [takeWhile_cons_of_neg (by simp [kind])]
      rfl

theorem apply_relocations_writes (base : Nat) (rela : List (BitVec 8)) :
    (applyRelocations base rela).1 =
      ((reachedEntries rela).filter (fun entry => entry.fixup = .relative)).map
        (applyRelative base) := by
  unfold applyRelocations reachedEntries
  by_cases ragged : rela.length % entrySize ≠ 0
  · rw [if_pos ragged, if_pos (.inl ragged)]
    rfl
  · rw [if_neg ragged]
    by_cases long : maxRelaEntries < rela.length / entrySize
    · rw [if_pos long, if_pos (.inr long)]
      rfl
    · rw [if_neg long, if_neg (not_or.mpr ⟨ragged, long⟩)]
      exact apply_entries_writes base _

/-- The words written lie in the cell's pages, and none is written at base 0, exactly if the
table's relative entries point into those pages and a fixed-address image has none. -/
theorem words_in_pages_iff (base : Nat) (rela : List (BitVec 8)) (pages : List MappedPage) :
    ((∀ write ∈ (applyRelocations base rela).1, InPages pages write.address) ∧
        (base = 0 → (applyRelocations base rela).1 = [])) ↔
      ∀ entry ∈ reachedEntries rela, entry.fixup = .relative →
        base ≠ 0 ∧ InPages pages (usize (base + entry.offset)) := by
  rw [apply_relocations_writes, forall_mem_map, map_eq_nil_iff]
  constructor
  · rintro ⟨inside, still⟩ entry member relative
    have kept : entry ∈ (reachedEntries rela).filter (fun entry => entry.fixup = .relative) :=
      mem_filter.mpr ⟨member, decide_eq_true relative⟩
    refine ⟨?_, inside entry kept⟩
    intro zero
    rw [still zero] at kept
    cases kept
  · intro pointed
    constructor
    · intro entry kept
      obtain ⟨member, relative⟩ := mem_filter.mp kept
      exact (pointed entry member (of_decide_eq_true relative)).2
    · intro zero
      rw [filter_eq_nil_iff]
      intro entry member relative
      exact (pointed entry member (of_decide_eq_true relative)).1 zero

def relativeEntry (offset addend : Nat) : List (BitVec 8) :=
  encodeLE 8 offset ++ encodeLE 8 3 ++ encodeLE 8 addend

/-- A cell at its slot writes into the kernel's image, and one at a fixed address writes. -/
theorem relocation_writes_kernel_word :
    (applyRelocations 0x100000000 (relativeEntry (2 ^ 64 - 0x7FE00000) 0)).1 =
        [⟨0x80200000, 0x100000000⟩] ∧
      ¬ InPages [⟨0x100000000, 0x81000000, Flags.userRw⟩] 0x80200000 ∧
      (applyRelocations 0 (relativeEntry 0x10000 7)).1 = [⟨0x10000, 7⟩] := by
  refine ⟨by decide +kernel, ?_, by decide +kernel⟩
  unfold InPages
  decide +kernel

end ViCell.Loader

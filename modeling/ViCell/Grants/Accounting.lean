import ViCell.Lib.TreeMaps
import ViCell.Grants.Tables

/-!
# Grants and their frames

Every live grant is one holder of frames and every holder that is a grant is
live, so what holds of holders holds of grants: their pages are allocated and no
page is in two of them.
-/

namespace ViCell.Grants

open Lib Memory Memory.KernelMemory List FrameAllocator

def isGrant : Holding → Bool
  | .grant _ _ => true
  | _ => false

def Grant.holding (grant : Grant) : Holding := .grant grant.base grant.pages

structure Grant.Sized (grant : Grant) : Prop where
  addressable : grant.base < 2 ^ 64
  nonempty : 0 < grant.pages
  whole : grant.size = grant.pages * pageSize

/-- The holders that are grants are these grants, in some order. -/
structure Accounted (root : Nat) (memory : KernelMemory) (grants : List Grant) : Prop where
  free : FreeAtHome root memory
  held : (memory.held.filter isGrant).Perm (grants.map Grant.holding)
  sized : ∀ grant ∈ grants, grant.Sized

variable {root : Nat} {memory after : KernelMemory} {grants : List Grant} {grant : Grant}

section

variable (sound : Accounted root memory grants)
include sound

theorem Accounted.perm {others : List Grant} (order : grants.Perm others) :
    Accounted root memory others where
  free := sound.free
  held := sound.held.trans (order.map _)
  sized := fun grant mem => sound.sized grant (order.mem_iff.mpr mem)

theorem Accounted.pages_nodup :
    (grants.flatMap (fun grant => pagesFrom grant.base 0 grant.pages)).Nodup := by
  have frames : (heldFrames memory.held).Nodup :=
    sound.free.kept.distinct.sublist (sublist_append_left _ _)
  have fewer : ((memory.held.filter isGrant).flatMap Holding.frames).Nodup :=
    frames.sublist (List.Sublist.flatMap filter_sublist _)
  have sorted := (sound.held.flatMap_right Holding.frames).nodup_iff.mp fewer
  rw [flatMap_map] at sorted
  exact sorted

section

variable (mem : grant ∈ grants)
include mem

theorem Accounted.page_taken {page : Nat}
    (inside : page ∈ pagesFrom grant.base 0 grant.pages) : Taken memory.machine.allocator page := by
  have listed : grant.holding ∈ memory.held := by
    have found := sound.held.mem_iff.mpr (mem_map_of_mem mem)
    exact (mem_filter.mp found).1
  apply sound.free.kept.owned
  apply mem_append_left
  exact mem_flatMap.mpr ⟨grant.holding, listed, inside⟩

theorem Accounted.page_at {i : Nat} (inside : i < grant.pages) :
    pageAt grant.base i = grant.base + i * pageSize ∧ grant.base + i * pageSize < 2 ^ 38 := by
  have taken : ∀ j < grant.pages, pageAt grant.base j < 2 ^ 38 := by
    intro j below
    have listed : pageAt grant.base j ∈ pagesFrom grant.base 0 grant.pages :=
      mem_map_of_mem (mem_range'_1.mpr ⟨Nat.zero_le _, by omega⟩)
    exact (taken_low sound.free.kept.paged (sound.page_taken mem listed)).1
  have sized := sound.sized grant mem
  induction i with
  | zero =>
    have low := taken 0 inside
    have itself : pageAt grant.base 0 = grant.base + 0 * pageSize := by
      unfold pageAt usize
      rw [Nat.mod_eq_of_lt (by have := sized.addressable; omega)]
    exact ⟨itself, itself ▸ low⟩
  | succ i ih =>
    obtain ⟨_, was⟩ := ih (by omega)
    have low := taken (i + 1) inside
    have noWrap : grant.base + (i + 1) * pageSize < 2 ^ 64 := by
      rw [Nat.succ_mul, ← Nat.add_assoc]
      exact Nat.lt_trans (Nat.add_lt_add_right was _) (by decide)
    have itself : pageAt grant.base (i + 1) = grant.base + (i + 1) * pageSize := by
      unfold pageAt usize
      rw [Nat.mod_eq_of_lt noWrap]
    exact ⟨itself, itself ▸ low⟩

theorem Accounted.aligned : pageSize ∣ grant.base := by
  have nonempty := (sound.sized grant mem).nonempty
  have first := (sound.page_at mem nonempty).1
  have listed : pageAt grant.base 0 ∈ pagesFrom grant.base 0 grant.pages :=
    mem_map_of_mem (mem_range'_1.mpr ⟨Nat.zero_le _, by omega⟩)
  have aligned := (taken_low sound.free.kept.paged (sound.page_taken mem listed)).2
  rw [first, Nat.zero_mul] at aligned
  exact aligned

theorem Accounted.mem_pages {page : Nat} : page ∈ pagesFrom grant.base 0 grant.pages ↔
      ∃ i < grant.pages, page = grant.base + i * pageSize := by
  unfold pagesFrom
  rw [mem_map]
  constructor
  · rintro ⟨i, listed, same⟩
    have below : i < grant.pages := by
      have := (mem_range'_1.mp listed).2
      omega
    exact ⟨i, below, same.symm.trans (sound.page_at mem below).1⟩
  · rintro ⟨i, below, same⟩
    exact ⟨i, mem_range'_1.mpr ⟨Nat.zero_le _, by omega⟩,
      (sound.page_at mem below).1.trans same.symm⟩

theorem Accounted.page_of {addr : Nat} (above : grant.base ≤ addr)
    (below : addr < grant.base + grant.size) :
    ∃ page ∈ pagesFrom grant.base 0 grant.pages, page ≤ addr ∧ addr < page + pageSize := by
  have whole := (sound.sized grant mem).whole
  rw [whole] at below
  have size : pageSize = 4096 := rfl
  rw [size] at below ⊢
  refine ⟨grant.base + (addr - grant.base) / 4096 * pageSize,
    (sound.mem_pages mem).mpr ⟨_, by omega, rfl⟩, ?_, ?_⟩
  · rw [size]
    omega
  · rw [size]
    omega

end

end

def Grant.Apart (left right : Grant) : Prop :=
  left.base + left.size ≤ right.base ∨ right.base + right.size ≤ left.base

theorem Accounted.apart (sound : Accounted root memory grants) : grants.Pairwise Grant.Apart := by
  have disjoint := (nodup_flatMap.mp sound.pages_nodup).2
  refine List.Pairwise.imp_of_mem ?_ disjoint
  intro left right leftMember rightMember noCommon
  have leftSized := sound.sized left leftMember
  have rightSized := sound.sized right rightMember
  have leftNonempty := leftSized.nonempty
  have rightNonempty := rightSized.nonempty
  obtain ⟨leftPage, leftBase⟩ := sound.aligned leftMember
  obtain ⟨rightPage, rightBase⟩ := sound.aligned rightMember
  by_contra overlap
  unfold Grant.Apart at overlap
  rw [leftSized.whole, rightSized.whole, leftBase, rightBase] at overlap
  unfold pageSize at overlap
  -- the later of the two first pages is in both
  have inLeft : max leftPage rightPage * pageSize ∈ pagesFrom left.base 0 left.pages :=
    (sound.mem_pages leftMember).mpr
      ⟨max leftPage rightPage - leftPage, by omega, by rw [leftBase]; unfold pageSize; omega⟩
  have inRight : max leftPage rightPage * pageSize ∈ pagesFrom right.base 0 right.pages :=
    (sound.mem_pages rightMember).mpr
      ⟨max leftPage rightPage - rightPage, by omega, by rw [rightBase]; unfold pageSize; omega⟩
  exact noCommon inLeft inRight

theorem Accounted.allocated (sound : Accounted root memory grants) (mem : grant ∈ grants)
    {address : Nat} (above : grant.base ≤ address) (below : address < grant.base + grant.size) :
    ByteTaken memory.machine.allocator address := by
  obtain ⟨_, listed, first, last⟩ := sound.page_of mem above below
  obtain ⟨idx, _, taken, same⟩ := sound.page_taken mem listed
  rw [same] at first last
  exact ⟨idx, taken, first, last⟩

theorem Accounted.base_unique {others : List Grant}
    (sound : Accounted root memory (grant :: others)) {other : Grant}
    (mem : other ∈ others) : other.base ≠ grant.base := by
  intro same
  have apart := (pairwise_cons.mp sound.apart).1 other mem
  have sized := sound.sized grant (by simp)
  have otherSized := sound.sized other (mem_cons_of_mem _ mem)
  have nonempty := sized.nonempty
  have otherNonempty := otherSized.nonempty
  unfold Grant.Apart at apart
  rw [sized.whole, otherSized.whole] at apart
  unfold pageSize at apart
  omega

/-- No grant begins at address zero or where a failed slice points. -/
theorem Accounted.base_bounds (sound : Accounted root memory grants)
    (mem : grant ∈ grants) : 0 < grant.base ∧ grant.base < usizeMax := by
  have nonempty := (sound.sized grant mem).nonempty
  obtain ⟨_, _⟩ := sound.page_at mem nonempty
  have listed : grant.base + 0 * pageSize ∈ pagesFrom grant.base 0 grant.pages :=
    (sound.mem_pages mem).mpr ⟨0, nonempty, rfl⟩
  obtain ⟨_, behind, taken, same⟩ := sound.page_taken mem listed
  have inside := allocated_inside taken
  have words := sound.free.kept.paged.placed.words
  unfold bitmapPages at behind
  unfold frameAt at same
  unfold usizeMax
  unfold pageSize at *
  omega

end ViCell.Grants

import ViCell.Hypervisor.Stage2
import ViCell.Memory.TableFrames

/-!
# What the Stage-2 operations do to the leaves

The tables of all VMs are one forest of radix tables in physical memory. Every
operation on one of them keeps the forest, takes frames only from the free
ones, and changes the leaves it is asked to change and no other.
-/

namespace ViCell.Hypervisor

open Lib Lib.RadixTable Memory List

theorem pa_mask_bit (index : Nat) (small : index < 64) :
    paMask.getLsbD index = decide (12 ≤ index ∧ index < 48) := by
  have all : ∀ index < 64, paMask.getLsbD index = decide (12 ≤ index ∧ index < 48) := by
    decide
  exact all index small

theorem masked_address (pa flags : Word) (outside : flags &&& paMask = 0) :
    ((pa &&& paMask) ||| flags) &&& paMask = pa &&& paMask := by
  apply BitVec.eq_of_getLsbD_eq
  intro index _
  have flagBit : (flags.getLsbD index && paMask.getLsbD index) = false := by
    rw [← BitVec.getLsbD_and, outside]
    exact BitVec.getLsbD_zero
  rw [BitVec.getLsbD_and, BitVec.getLsbD_or, BitVec.getLsbD_and, Bool.and_or_distrib_right,
    flagBit, Bool.or_false, Bool.and_assoc, Bool.and_self]

theorem page_address (pa : Nat) (aligned : pageSize ∣ pa) (low : pa < 2 ^ 48) :
    (BitVec.ofNat 64 pa &&& paMask).toNat = pa := by
  have same : BitVec.ofNat 64 pa &&& paMask = BitVec.ofNat 64 pa := by
    apply BitVec.eq_of_getLsbD_eq
    intro index small
    rw [BitVec.getLsbD_and, pa_mask_bit index small, BitVec.getLsbD_ofNat]
    by_cases field : 12 ≤ index ∧ index < 48
    · simp [field]
    · have clear : pa.testBit index = false := by
        by_cases high : 48 ≤ index
        · apply Nat.testBit_lt_two_pow
          exact lt_of_lt_of_le low (Nat.pow_le_pow_right (by decide) high)
        · obtain ⟨_, split⟩ := aligned
          have power : pageSize = 2 ^ 12 := rfl
          rw [split, power, Nat.testBit_two_pow_mul, decide_eq_false (by omega)]
          rfl
      simp [clear]
  rw [same]
  exact Nat.mod_eq_of_lt (by omega)

theorem desc_pa_table (pa : Nat) (aligned : pageSize ∣ pa) (low : pa < 2 ^ 48) :
    descPa (tableDesc pa) = pa := by
  unfold descPa tableDesc
  rw [BitVec.or_assoc, masked_address _ _ (by decide)]
  exact page_address pa aligned low

theorem desc_pa_page (pa : Nat) (writable : Bool) (aligned : pageSize ∣ pa)
    (low : pa < 2 ^ 48) : descPa (pageDesc pa writable) = pa := by
  unfold descPa pageDesc
  rw [BitVec.or_assoc, BitVec.or_assoc, masked_address _ _ (by cases writable <;> decide)]
  exact page_address pa aligned low

theorem desc_pa_device (pa : Nat) (writable : Bool) (aligned : pageSize ∣ pa)
    (low : pa < 2 ^ 48) : descPa (pageDescDevice pa writable) = pa := by
  unfold descPa pageDescDevice
  rw [BitVec.or_assoc, BitVec.or_assoc, BitVec.or_assoc,
    masked_address _ _ (by cases writable <;> decide)]
  exact page_address pa aligned low

theorem is_table_table (pa : Nat) : isTable (tableDesc pa) = true := by
  unfold isTable tableDesc
  rw [beq_iff_eq]
  apply BitVec.eq_of_getLsbD_eq
  intro index _
  simp only [BitVec.getLsbD_and, BitVec.getLsbD_or]
  cases descValid.getLsbD index <;> cases descTable.getLsbD index <;> simp

/-- Two upper levels; the root is two concatenated frames. -/
def s2Format : Format Word where
  zero := 0
  child := fun desc => if isTable desc then some (descPa desc) else none
  depth := 2
  entries := fun level => if level = 0 then 1024 else 512
  zero_child := by decide

theorem s2_child_table (pa : Nat) (aligned : pageSize ∣ pa) (low : pa < 2 ^ 48) :
    s2Format.child (tableDesc pa) = some pa := by
  unfold s2Format
  simp only [is_table_table, if_true, desc_pa_table pa aligned low]

theorem l3_idx_lt (ipa : Nat) : l3Idx ipa < 512 := Nat.mod_lt _ (by decide)

def ipaPath (ipa : Nat) : List Nat := [l1Idx ipa, l2Idx ipa]

theorem fits_first (ipa : Nat) : Fits s2Format ([] ++ [l1Idx ipa]) :=
  fits_snoc.mpr ⟨fits_nil, by decide, Nat.mod_lt _ (by decide)⟩

theorem fits_ipa_path (ipa : Nat) : Fits s2Format ([l1Idx ipa] ++ [l2Idx ipa]) :=
  fits_snoc.mpr ⟨fits_first ipa, (by decide : 1 < 2), Nat.mod_lt _ (by decide)⟩

theorem entries_positive (level : Nat) : 0 < s2Format.entries level := by
  unfold s2Format
  simp only
  split <;> decide

theorem table_is_frame (level : Nat) : 8 * s2Format.entries (level + 1) = pageSize := by
  simp [s2Format, pageSize]

section Sound

variable {Key : Type} (roots : Key → Option Nat)

/-- The tables under `roots` form a forest inside allocated frames, all of them
below the descriptors' address limit. -/
structure Sound (machine : Machine) : Prop where
  placed : machine.allocator.Placed
  low : machine.allocator.memoryEnd ≤ 2 ^ 48
  tables : TablesTaken s2Format roots machine.allocator machine.memory

def leaf (machine : Machine) (key : Key) (ipa : Nat) : Word :=
  leafAt s2Format machine.memory roots key (ipaPath ipa) (l3Idx ipa)

/-- What a mapping operation on the tree of `key` may do besides changing
leaves: take free frames for tables, which the table then lists. -/
structure Extends (key : Key) (before after : Machine) (old new : Stage2Table) : Prop where
  region : before.allocator.SameRegion after.allocator
  keeps : ∀ idx, before.allocator.isFrameAllocated idx = true →
    after.allocator.isFrameAllocated idx = true
  root : new.rootPa = old.rootPa
  ramPa : new.guestRamPa = old.guestRamPa
  ramPages : new.guestRamPages = old.guestRamPages
  added : ∀ frame ∈ new.subFrames, frame ∈ old.subFrames ∨
    ∃ idx, idx < before.allocator.totalFrames ∧ before.allocator.isFrameAllocated idx = false ∧
      frame = before.allocator.memoryStart + idx * pageSize
  others : ∀ otherKey path, otherKey ≠ key → Fits s2Format path →
    reach s2Format after.memory roots otherKey path =
      reach s2Format before.memory roots otherKey path

variable {roots} {key : Key}

theorem extends_refl (machine : Machine) (table : Stage2Table) :
    Extends roots key machine machine table table where
  region := ⟨rfl, rfl, rfl, rfl⟩
  keeps := fun _ taken => taken
  root := rfl
  ramPa := rfl
  ramPages := rfl
  added := fun _ known => .inl known
  others := fun _ _ _ _ => rfl

theorem extends_trans {first second third : Machine} {old mid new : Stage2Table}
    (left : Extends roots key first second old mid)
    (right : Extends roots key second third mid new) :
    Extends roots key first third old new where
  region := left.region.trans right.region
  keeps := fun idx allocated => right.keeps idx (left.keeps idx allocated)
  root := right.root.trans left.root
  ramPa := right.ramPa.trans left.ramPa
  ramPages := right.ramPages.trans left.ramPages
  added := by
    intro frame mem
    rcases right.added frame mem with known | ⟨idx, inside, free, same⟩
    · exact left.added frame known
    · rw [left.region.frames] at inside
      rw [left.region.start] at same
      exact .inr ⟨idx, inside, FrameAllocator.free_before left.keeps free, same⟩
  others := by
    intro otherKey path ne fits
    rw [right.others otherKey path ne fits, left.others otherKey path ne fits]

section Walk

variable {machine after : Machine} {table new : Stage2Table}

/-- One step down: the entry's table, or a fresh zeroed one linked there. A
block descriptor never occurs, because upper entries are zero or tables. -/
theorem descend_spec {path : List Nat} {index place : Nat} {out : Except S2MapError Nat}
    (sound : Sound roots machine) (fits : Fits s2Format (path ++ [index]))
    (here : reach s2Format machine.memory roots key path = some place)
    (run : table.descend machine (slot place index) = (after, new, out)) :
    Sound roots after ∧ Extends roots key machine after table new ∧
      SameLeaves s2Format roots machine.memory after.memory ∧
      ((∃ next, out = .ok next ∧
          reach s2Format after.memory roots key (path ++ [index]) = some next) ∨
        out = .error .outOfMemory) := by
  obtain ⟨pathFits, shallow, indexFits⟩ := fits_snoc.mp fits
  unfold Stage2Table.descend at run
  by_cases isPointer : isTable (machine.memory (slot place index)) = true
  · rw [if_pos isPointer] at run
    cases run
    refine ⟨sound, extends_refl _ _, same_leaves_refl, .inl ⟨_, rfl, ?_⟩⟩
    rw [reach_snoc, here]
    exact if_pos isPointer
  · have empty : s2Format.child (machine.memory (slot place index)) = none := if_neg isPointer
    have zero : machine.memory (slot place index) = 0 := by
      rcases sound.tables.forest.clean key path place index pathFits shallow here indexFits with
        zero | pointer
      · exact zero
      · rw [empty] at pointer
        cases pointer
    have invalid : isValid (machine.memory (slot place index)) = false := by
      rw [zero]
      decide
    rw [if_neg isPointer, if_pos invalid] at run
    unfold Stage2Table.allocSubtable at run
    rcases taken : machine.allocator.allocateFrame with ⟨pool, frame⟩
    rw [taken] at run
    rcases FrameAllocator.allocate_frame_spec sound.placed taken with
      ⟨idx, takes, handed⟩ | ⟨same, failed, _⟩
    · have inside : idx < machine.allocator.totalFrames := by
        have room := takes.inside
        omega
      rw [sound.placed.frame_addr inside] at handed
      subst handed
      cases run
      have pointer : s2Format.child
          (tableDesc (machine.allocator.memoryStart + idx * pageSize)) =
            some (machine.allocator.memoryStart + idx * pageSize) := by
        apply s2_child_table
        · exact Nat.dvd_add sound.placed.aligned (Nat.dvd_mul_left _ _)
        · have extent := sound.placed.extent
          have low := sound.low
          unfold pageSize at extent ⊢
          omega
      have linked := sound.tables.link takes entries_positive
        (table_is_frame path.length) fits here empty pointer rfl
      refine ⟨⟨takes.placed sound.placed, ?_, linked.tables⟩, ?_, linked.leaves,
        .inl ⟨_, rfl, linked.found⟩⟩
      · exact takes.region.finish ▸ sound.low
      · refine ⟨takes.region, takes_keeps takes, rfl, rfl, rfl, ?_, linked.others⟩
        intro listed mem
        rcases mem_append.mp mem with old | added
        · exact .inl old
        · right
          rw [mem_singleton] at added
          exact ⟨idx, inside, takes.free idx (Nat.le_refl _) (Nat.lt_succ_self _), added⟩
    · subst same failed
      cases run
      exact ⟨sound, extends_refl _ _, same_leaves_refl, .inr rfl⟩

def SamePage (left right : Nat) : Prop :=
  l1Idx left = l1Idx right ∧ l2Idx left = l2Idx right ∧ l3Idx left = l3Idx right

theorem same_leaf {was after : Machine} (leaves : SameLeaves s2Format roots was.memory after.memory)
    (otherKey : Key) (ipa : Nat) : leaf roots after otherKey ipa = leaf roots was otherKey ipa :=
  leaves otherKey (ipaPath ipa) (l3Idx ipa) (fits_ipa_path ipa) rfl (l3_idx_lt ipa)

variable [DecidableEq Key]

theorem write_leaf_spec (table : Stage2Table) {l3 : Nat} (ipa : Nat) (desc : Word)
    (sound : Sound roots machine)
    (here : reach s2Format machine.memory roots key (ipaPath ipa) = some l3) :
    let written := machine.write (slot l3 (l3Idx ipa)) desc
    Sound roots written ∧ Extends roots key machine written table table ∧ ∀ otherKey other,
        leaf roots written otherKey other = leaf roots machine otherKey other ∨
          (otherKey = key ∧ SamePage other ipa ∧ leaf roots written otherKey other = desc) := by
  have place : LeafSlot s2Format machine.memory roots key (ipaPath ipa) l3 (l3Idx ipa) :=
    ⟨sound.tables.forest, fits_ipa_path ipa, rfl, here, l3_idx_lt ipa⟩
  refine ⟨⟨sound.placed, sound.low, sound.tables.write_leaf place desc⟩, ?_, ?_⟩
  · refine ⟨⟨rfl, rfl, rfl, rfl⟩, fun _ taken => taken, rfl, rfl, rfl,
      fun _ known => .inl known, ?_⟩
    intro otherKey path _ fits
    exact reach_write_leaf place desc otherKey fits
  · intro otherKey other
    have changed := leaf_write_leaf place desc otherKey (fits_ipa_path other) (l3_idx_lt other)
    by_cases same : otherKey = key ∧ [l1Idx other] ++ [l2Idx other] = ipaPath ipa ∧
        l3Idx other = l3Idx ipa
    · right
      rw [if_pos same] at changed
      obtain ⟨sameKey, samePath, sameIndex⟩ := same
      unfold ipaPath at samePath
      simp only [cons_append, nil_append, cons.injEq, and_true] at samePath
      exact ⟨sameKey, ⟨samePath.1, samePath.2, sameIndex⟩, changed⟩
    · left
      rw [if_neg same] at changed
      exact changed

theorem map_leaf_spec {ipa : Nat} {desc : Word} {out : Except S2MapError Unit}
    (sound : Sound roots machine) (rooted : roots key = some table.rootPa)
    (run : table.mapLeaf machine ipa desc = (after, new, out)) :
    Sound roots after ∧ Extends roots key machine after table new ∧
      ∀ otherKey other, leaf roots after otherKey other = leaf roots machine otherKey other ∨
        (otherKey = key ∧ SamePage other ipa ∧ leaf roots after otherKey other = desc) := by
  have atRoot : reach s2Format machine.memory roots key [] = some table.rootPa := by
    unfold reach
    rw [rooted]
    rfl
  unfold Stage2Table.mapLeaf at run
  rcases first : table.descend machine (slot table.rootPa (l1Idx ipa)) with ⟨mid, middle, found⟩
  rw [first] at run
  obtain ⟨soundMid, extendsMid, leavesMid, outcome⟩ :=
    descend_spec sound (fits_first ipa) atRoot first
  have keptMid := same_leaf leavesMid
  rcases outcome with ⟨l2, isOk, atL2⟩ | failed
  · subst isOk
    simp only at run
    rcases second : middle.descend mid (slot l2 (l2Idx ipa)) with ⟨low, lower, deeper⟩
    rw [second] at run
    obtain ⟨soundLow, extendsLow, leavesLow, outcome⟩ :=
      descend_spec soundMid (fits_ipa_path ipa) atL2 second
    have keptLow := same_leaf leavesLow
    have extendsBoth := extends_trans extendsMid extendsLow
    rcases outcome with ⟨l3, isOk, atL3⟩ | failed
    · subst isOk
      cases run
      obtain ⟨soundEnd, extendsEnd, written⟩ := write_leaf_spec new ipa desc soundLow atL3
      refine ⟨soundEnd, extends_trans extendsBoth extendsEnd, ?_⟩
      intro otherKey other
      rcases written otherKey other with kept | here
      · left
        rw [kept, keptLow, keptMid]
      · exact .inr here
    · subst failed
      cases run
      refine ⟨soundLow, extendsBoth, ?_⟩
      intro otherKey other
      left
      rw [keptLow, keptMid]
  · subst failed
    cases run
    exact ⟨soundMid, extendsMid, fun otherKey other => .inl (keptMid otherKey other)⟩

theorem usize_lt (value : Nat) : usize value < 2 ^ 64 := Nat.mod_lt _ (by decide)

theorem usize_first {base : Nat} (small : base < 2 ^ 64) : usize (base + 0 * pageSize) = base := by
  unfold usize
  rw [Nat.zero_mul, Nat.add_zero, Nat.mod_eq_of_lt small]

theorem usize_step (base i : Nat) :
    usize (usize (base + pageSize) + i * pageSize) = usize (base + (i + 1) * pageSize) := by
  unfold usize
  rw [Nat.mod_add_mod]
  rw [Nat.add_mul]
  omega

/-- The mapping loop: every leaf is the old one or belongs to a page of the
range and describes the page at the same distance from the host base. -/
theorem map_pages_spec (describe : Nat → Word) (pages : Nat) {ipa hpa : Nat}
    {out : Except S2MapError Unit} (sound : Sound roots machine)
    (rooted : roots key = some table.rootPa) (ipaSmall : ipa < 2 ^ 64) (hpaSmall : hpa < 2 ^ 64)
    (run : Stage2Table.mapPages
      (fun machine table ipa hpa => table.mapLeaf machine ipa (describe hpa))
      pages ipa hpa machine table = (after, new, out)) :
    Sound roots after ∧ Extends roots key machine after table new ∧
      ∀ otherKey other, leaf roots after otherKey other = leaf roots machine otherKey other ∨
        (otherKey = key ∧ ∃ i < pages, SamePage other (usize (ipa + i * pageSize)) ∧
          leaf roots after otherKey other = describe (usize (hpa + i * pageSize))) := by
  induction pages generalizing machine table ipa hpa with
  | zero =>
    cases run
    exact ⟨sound, extends_refl _ _, fun _ _ => .inl rfl⟩
  | succ pages ih =>
    unfold Stage2Table.mapPages at run
    rcases single : table.mapLeaf machine ipa (describe hpa) with ⟨mid, middle, first⟩
    simp only [single] at run
    obtain ⟨soundMid, extendsMid, leavesMid⟩ := map_leaf_spec sound rooted single
    -- the page just mapped is number zero of the range
    have firstPage : ∀ otherKey other,
        leaf roots mid otherKey other = leaf roots machine otherKey other ∨
          (otherKey = key ∧ ∃ i < pages + 1, SamePage other (usize (ipa + i * pageSize)) ∧
            leaf roots mid otherKey other = describe (usize (hpa + i * pageSize))) := by
      intro otherKey other
      refine (leavesMid otherKey other).imp_right ?_
      rintro ⟨sameKey, page, written⟩
      refine ⟨sameKey, 0, Nat.succ_pos _, ?_, ?_⟩
      · rw [usize_first ipaSmall]
        exact page
      · rw [usize_first hpaSmall]
        exact written
    cases first with
    | error =>
      cases run
      exact ⟨soundMid, extendsMid, firstPage⟩
    | ok =>
      have rootedMid : roots key = some middle.rootPa := by
        rw [extendsMid.root]
        exact rooted
      obtain ⟨soundEnd, extendsEnd, leavesEnd⟩ :=
        ih soundMid rootedMid (usize_lt _) (usize_lt _) run
      refine ⟨soundEnd, extends_trans extendsMid extendsEnd, ?_⟩
      intro otherKey other
      rcases leavesEnd otherKey other with kept | ⟨sameKey, i, inside, page, written⟩
      · rw [kept]
        exact firstPage otherKey other
      · right
        rw [usize_step] at page written
        exact ⟨sameKey, i + 1, Nat.succ_lt_succ inside, page, written⟩

theorem unmap_single_spec (ipa : Nat) (sound : Sound roots machine)
    (rooted : roots key = some table.rootPa) (run : table.unmapSingle machine ipa = after) :
    Sound roots after ∧ ∀ otherKey other,
      leaf roots after otherKey other = leaf roots machine otherKey other ∨
        leaf roots after otherKey other = 0 := by
  unfold Stage2Table.unmapSingle at run
  dsimp only at run
  split at run
  next =>
    subst run
    exact ⟨sound, fun _ _ => .inl rfl⟩
  next upper =>
    split at run
    next =>
      subst run
      exact ⟨sound, fun _ _ => .inl rfl⟩
    next lower =>
      subst run
      rw [Bool.not_eq_false] at upper lower
      have atL2 : reach s2Format machine.memory roots key [l1Idx ipa] =
          some (descPa (machine.memory (slot table.rootPa (l1Idx ipa)))) := by
        unfold reach
        rw [rooted]
        simp only [Option.bind_some, follow, s2Format, if_pos upper]
      have atL3 : reach s2Format machine.memory roots key ([l1Idx ipa] ++ [l2Idx ipa]) =
          some (descPa (machine.memory
            (slot (descPa (machine.memory (slot table.rootPa (l1Idx ipa)))) (l2Idx ipa)))) := by
        rw [reach_snoc, atL2]
        exact if_pos lower
      obtain ⟨soundEnd, _, written⟩ := write_leaf_spec table ipa 0 sound atL3
      exact ⟨soundEnd, fun otherKey other => (written otherKey other).imp_right fun new => new.2.2⟩

theorem unmap_spec (pages ipa : Nat) (sound : Sound roots machine)
    (rooted : roots key = some table.rootPa) (run : table.unmap pages ipa machine = after) :
    Sound roots after ∧ ∀ otherKey other,
      leaf roots after otherKey other = leaf roots machine otherKey other ∨
        leaf roots after otherKey other = 0 := by
  induction pages generalizing machine ipa with
  | zero =>
    cases run
    exact ⟨sound, fun _ _ => .inl rfl⟩
  | succ pages ih =>
    obtain ⟨soundOne, leavesOne⟩ := unmap_single_spec ipa sound rooted rfl
    obtain ⟨soundEnd, leavesEnd⟩ := ih _ soundOne run
    refine ⟨soundEnd, ?_⟩
    intro otherKey other
    rcases leavesEnd otherKey other with kept | cleared
    · rw [kept]
      exact leavesOne otherKey other
    · exact .inr cleared

end Walk

end Sound

end ViCell.Hypervisor

import ViCell.Grants.Accounting
import ViCell.Memory.BootPaging

/-!
# Runs of grant calls

The two tables list the live grants; every call keeps them in step with the
frames. The reaper clears a dead task out of both tables, except when the first
of them was never created: then it returns before it looks at the second.
-/

namespace ViCell.Grants

open Lib Memory Memory.KernelMemory List Option TreeMaps Prod

variable {root : Nat} {memory after : KernelMemory} {grants : List Grant} {grant : Grant}

theorem alloc_grant_pages_kept {machine : Machine} {pages : Nat} {out : Option Nat}
    (free : FreeAtHome root memory)
    (run : allocGrantPages root memory.machine pages = some (machine, out)) :
    match out with
    | none => FreeAtHome root { memory with machine := machine }
    | some base => base < 2 ^ 64 ∧
        FreeAtHome root { machine := machine, held := .grant base pages :: memory.held } := by
  unfold allocGrantPages at run
  split at run
  next => cases run
  next allocator contiguous =>
    cases run
    have ran : memory.step root (.reserveGrant pages) =
        some { memory with machine := { memory.machine with allocator := allocator } } := by
      simp only [step, contiguous]
    exact reserve_grant_kept free ran
  next allocator base contiguous =>
    have ran : memory.step root (.reserveGrant pages) =
        some { machine := { memory.machine with allocator := allocator }
               held := .reserved base pages :: memory.held } := by
      simp only [step, contiguous]
    have reserved := reserve_grant_kept free ran
    have mapped := step_kept reserved (show KernelMemory.step root _ (.mapGrant 0) = _ from rfl)
    have addressable : base < 2 ^ 64 := by
      obtain ⟨_, -, rfl⟩ :=
        FrameAllocator.allocate_contiguous_some free.kept.paged.placed contiguous
      exact Nat.mod_lt _ (by decide)
    dsimp only at run
    split at run
    next partly =>
      rw [if_pos partly] at mapped
      exact absurd mem_cons_self (mapped.whole base pages _)
    next whole =>
      rw [if_neg whole] at mapped
      cases run
      exact ⟨addressable, mapped⟩

theorem Accounted.reserve {pages : Nat} {out : Option Nat}
    (sound : Accounted root memory grants) (pos : 0 < pages)
    (run : reservePages root memory pages = some (after, out)) :
    match out with
    | none => Accounted root after grants
    | some base => ∀ owner, Accounted root after
        ({ base := base, size := pages * pageSize, owner := owner, sharedTo := none } ::
          grants) := by
  unfold reservePages at run
  split at run
  next => cases run
  next machine failed =>
    cases run
    exact ⟨alloc_grant_pages_kept sound.free failed, sound.held, sound.sized⟩
  next machine base handed =>
    cases run
    obtain ⟨addressable, free⟩ := alloc_grant_pages_kept sound.free handed
    intro owner
    have whole : ∀ shared, (Grant.mk base (pages * pageSize) owner shared).pages = pages :=
      fun _ => Nat.mul_div_cancel pages (by decide)
    refine ⟨free, ?_, ?_⟩
    · rw [map_cons, Grant.holding, whole]
      exact sound.held.cons _
    · intro grant mem
      rcases mem_cons.mp mem with same | old
      · rw [same]
        exact ⟨addressable, (whole none).symm ▸ pos, by rw [whole]⟩
      · exact sound.sized grant old

theorem Accounted.release (sound : Accounted root memory (grant :: grants)) :
    Accounted root (releaseGrant root memory grant) grants ∧
      memory.machine.allocator.SameRegion (releaseGrant root memory grant).machine.allocator ∧
      ∀ idx, (releaseGrant root memory grant).machine.allocator.isFrameAllocated idx =
        (memory.machine.allocator.isFrameAllocated idx &&
          decide (memory.machine.allocator.frameAt idx ∉ pagesFrom grant.base 0 grant.pages)) := by
  have listed : grant.holding ∈ memory.held.filter isGrant := sound.held.mem_iff.mpr (by simp)
  have order := perm_cons_erase (mem_filter.mp listed).1
  have split : HomeKept root memory.machine
      (pagesFrom grant.base 0 grant.pages ++ heldFrames (memory.held.erase grant.holding))
      (heldPages (memory.held.erase grant.holding)) :=
    sound.free.kept.fewer (order.symm.flatMap_right Holding.frames).subperm
      (order.symm.flatMap_right Holding.segmentPages).subperm
  refine ⟨⟨⟨split.release_run _ _, ?_⟩, ?_, ?_⟩, split.release_run_frees _ _⟩
  · intro base pages mapped mem
    exact sound.free.whole base pages mapped (mem_of_mem_erase mem)
  · have grantsOnly := order.filter isGrant
    have cons := grantsOnly.symm.trans sound.held
    exact cons.cons_inv
  · exact fun other mem => sound.sized other (mem_cons_of_mem _ mem)

theorem Accounted.release_all {rest : List Grant} (owned : List Grant) {memory : KernelMemory}
    (sound : Accounted root memory (owned ++ rest)) :
    Accounted root (owned.foldl (releaseGrant root) memory) rest ∧
      memory.machine.allocator.SameRegion
        (owned.foldl (releaseGrant root) memory).machine.allocator ∧
      ∀ idx, (owned.foldl (releaseGrant root) memory).machine.allocator.isFrameAllocated idx =
          true →
        memory.machine.allocator.isFrameAllocated idx = true ∧
          ∀ grant ∈ owned, memory.machine.allocator.frameAt idx ∉
            pagesFrom grant.base 0 grant.pages := by
  induction owned generalizing memory with
  | nil => exact ⟨sound, ⟨rfl, rfl, rfl, rfl⟩, fun idx taken => ⟨taken, by simp⟩⟩
  | cons grant owned ih =>
    obtain ⟨next, region, frees⟩ := sound.release
    obtain ⟨last, laterRegion, laterFrees⟩ := ih next
    refine ⟨last, region.trans laterRegion, ?_⟩
    intro idx taken
    obtain ⟨was, others⟩ := laterFrees idx taken
    rw [frees, Bool.and_eq_true, decide_eq_true_eq] at was
    refine ⟨was.1, ?_⟩
    intro other mem
    rcases mem_cons.mp mem with same | later
    · rw [same]
      exact was.2
    · have apart := others other later
      rw [region.frame_at] at apart
      exact apart

def tableGrants (table : Option GrantTable) : List Grant := (table.getD ∅).toList.map snd

def Keyed (table : Option GrantTable) : Prop :=
  ∀ id grant, lookup id table = some grant → grant.base = id

variable {table : Option GrantTable} {id : Nat}

theorem lookup_get_d (id : Nat) (table : Option GrantTable) :
    lookup id table = (table.getD ∅)[id]? := by
  cases table with
  | none => exact Std.TreeMap.getElem?_emptyc.symm
  | some => rfl

theorem mem_table_grants : grant ∈ tableGrants table ↔ ∃ id, lookup id table = some grant := by
  unfold tableGrants
  rw [List.mem_map]
  constructor
  · rintro ⟨⟨id, found⟩, mem, same⟩
    cases same
    exact ⟨id, (lookup_get_d id table).trans (mem_entries_iff.mp mem)⟩
  · rintro ⟨id, found⟩
    exact ⟨(id, grant), mem_entries_iff.mpr ((lookup_get_d id table).symm.trans found), rfl⟩

theorem insert_table_grants (table : GrantTable) (id : Nat) (grant : Grant) :
    (tableGrants (some (table.insert id grant))).Perm
      (grant :: tableGrants (some (table.erase id))) :=
  (insert_entries table id grant).map snd

theorem erase_table_grants {table : GrantTable} (found : table[id]? = some grant) :
    (tableGrants (some table)).Perm (grant :: tableGrants (some (table.erase id))) :=
  (erase_entries found).map snd

theorem insert_new_grant {table : GrantTable} (gone : table[id]? = none) (grant : Grant) :
    (tableGrants (some (table.insert id grant))).Perm (grant :: tableGrants (some table)) :=
  (insert_table_grants table id grant).trans
    (((erase_missing gone).map snd).cons grant)

theorem keyed_insert {table : GrantTable} (keyed : Keyed (some table)) (base : grant.base = id) :
    Keyed (some (table.insert id grant)) := by
  intro other found has
  change (table.insert id grant)[other]? = some found at has
  rw [Std.TreeMap.getElem?_insert] at has
  by_cases same : compare id other = .eq
  · rw [if_pos same] at has
    rw [← some.inj has, base]
    exact Std.LawfulEqCmp.eq_of_compare same
  · rw [if_neg same] at has
    exact keyed other found has

structure Grant.SamePages (left right : Grant) : Prop where
  base : right.base = left.base
  size : right.size = left.size

theorem Grant.SamePages.pages {left right : Grant} (same : left.SamePages right) :
    right.pages = left.pages := by
  unfold Grant.pages
  rw [same.size]

theorem Grant.Sized.of_same {left right : Grant} (sized : left.Sized)
    (same : left.SamePages right) : right.Sized where
  addressable := same.base ▸ sized.addressable
  nonempty := same.pages ▸ sized.nonempty
  whole := by
    rw [same.size, same.pages]
    exact sized.whole

theorem Grant.SamePages.refl (grant : Grant) : grant.SamePages grant := ⟨rfl, rfl⟩

theorem same_holdings {others : List Grant} (same : List.Forall₂ Grant.SamePages grants others) :
    others.map Grant.holding = grants.map Grant.holding ∧
      ((∀ grant ∈ grants, grant.Sized) → ∀ grant ∈ others, grant.Sized) := by
  induction same with
  | nil => exact ⟨rfl, fun sized => sized⟩
  | cons head _ ih =>
    obtain ⟨holdings, sizes⟩ := ih
    refine ⟨?_, ?_⟩
    · unfold Grant.holding at holdings ⊢
      rw [map_cons, map_cons, holdings, head.base, head.pages]
    · intro sized grant mem
      rcases mem_cons.mp mem with isHead | later
      · rw [isHead]
        exact (sized _ mem_cons_self).of_same head
      · exact sizes (fun other listed => sized other (mem_cons_of_mem _ listed)) grant later

theorem Accounted.reshare {others : List Grant} (sound : Accounted root memory grants)
    (same : List.Forall₂ Grant.SamePages grants others) : Accounted root memory others where
  free := sound.free
  held := (same_holdings same).1 ▸ sound.held
  sized := (same_holdings same).2 sound.sized

section Table

variable {rest : List Grant} {caller : Nat}

/-- `GrantAlloc` and `GrantRegister`. What they return is no older grant's base. -/
theorem alloc_into_sound {size reply : Nat} {filled : Option GrantTable}
    (sound : Accounted root memory (tableGrants table ++ rest)) (keyed : Keyed table)
    (run : allocInto root caller size memory table = some (after, filled, reply)) :
    Accounted root after (tableGrants filled ++ rest) ∧ Keyed filled ∧
      ∀ grant ∈ tableGrants filled ++ rest, grant.base = reply → grant.owner = caller := by
  have nowhere : ∀ {memory : KernelMemory} {grants : List Grant}, Accounted root memory grants →
      ∀ grant ∈ grants, grant.base = 0 → grant.owner = caller := by
    intro memory grants sound grant mem zero
    have bounds := sound.base_bounds mem
    omega
  unfold allocInto at run
  split at run
  next =>
    cases run
    exact ⟨sound, keyed, nowhere sound⟩
  next asked =>
    have pos : 0 < (size + pageSize - 1) / pageSize := by
      unfold pageSize at asked ⊢
      omega
    dsimp only at run
    split at run
    next => cases run
    next failed =>
      cases run
      have kept : Accounted root after (tableGrants table ++ rest) := sound.reserve pos failed
      exact ⟨kept, keyed, nowhere kept⟩
    next memory base handed =>
      cases run
      have grown := sound.reserve pos handed caller
      have gone : (table.getD ∅)[reply]? = none := by
        rw [eq_none_iff_forall_ne_some]
        intro old found
        rw [← lookup_get_d] at found
        have listed : old ∈ tableGrants table ++ rest :=
          mem_append_left _ (mem_table_grants.mpr ⟨reply, found⟩)
        exact grown.base_unique listed (keyed reply old found)
      have order := (insert_new_grant gone
        { base := reply, size := (size + pageSize - 1) / pageSize * pageSize, owner := caller,
          sharedTo := none }).append_right rest
      have keyedMap : Keyed (some (table.getD ∅)) := by
        intro other found has
        exact keyed other found ((lookup_get_d other table).trans has)
      refine ⟨grown.perm order.symm, keyed_insert keyedMap rfl, ?_⟩
      intro grant mem same
      rcases mem_cons.mp (order.mem_iff.mp mem) with isNew | old
      · rw [isNew]
      · exact absurd same (grown.base_unique old)

theorem share_sound {map : GrantTable} {shared : Grant} (same : grant.SamePages shared)
    (found : map[id]? = some grant)
    (sound : Accounted root memory (tableGrants (some map) ++ rest))
    (keyed : Keyed (some map)) :
    Accounted root memory (tableGrants (some (map.insert id shared)) ++ rest) ∧
      Keyed (some (map.insert id shared)) := by
  have taken := sound.perm ((erase_table_grants found).append_right rest)
  have order := (insert_table_grants map id shared).append_right rest
  have reshared : Accounted root memory (shared :: (tableGrants (some (map.erase id)) ++ rest)) :=
    taken.reshare (.cons same (forall₂_same.mpr (fun grant _ => .refl grant)))
  refine ⟨reshared.perm order.symm, keyed_insert keyed ?_⟩
  rw [same.base]
  exact keyed id grant found

theorem free_sound (own : ownEntry caller id table = some grant)
    (sound : Accounted root memory (tableGrants table ++ rest)) (keyed : Keyed table) :
    Accounted root (releaseGrant root memory grant)
        (tableGrants (table.map (fun map => map.erase id)) ++ rest) ∧
      Keyed (table.map (fun map => map.erase id)) := by
  obtain ⟨found, _⟩ := filter_eq_some_iff.mp own
  cases table with
  | none => cases found
  | some =>
    have taken := sound.perm ((erase_table_grants found).append_right rest)
    exact ⟨taken.release.1, fun other grant has => keyed other grant (get_erase_eq_some.mp has).2⟩

def Grant.FreeOf (grant : Grant) (task : Nat) : Prop :=
  grant.owner ≠ task ∧ grant.sharedWith task = false

theorem unshare_same (dead : Nat) (grant : Grant) : grant.SamePages (grant.unshare dead) := by
  unfold Grant.unshare
  split <;> exact ⟨rfl, rfl⟩

/-- What one pass did: `freed` are the grants it took out. -/
structure Reaped (root dead : Nat) (before after : KernelMemory) (table : GrantTable)
    (reaped : GrantTable) (rest : List Grant) : Prop where
  accounted : Accounted root after (tableGrants (some reaped) ++ rest)
  keyed : Keyed (some reaped)
  clean : ∀ grant ∈ tableGrants (some reaped), grant.FreeOf dead
  region : before.machine.allocator.SameRegion after.machine.allocator
  frees : ∀ idx, after.machine.allocator.isFrameAllocated idx = true →
    before.machine.allocator.isFrameAllocated idx = true ∧
      ∀ grant ∈ tableGrants (some table), grant.owner = dead →
        before.machine.allocator.frameAt idx ∉ pagesFrom grant.base 0 grant.pages

theorem reap_table_spec (dead : Nat) {map : GrantTable}
    (sound : Accounted root memory (tableGrants (some map) ++ rest))
    (keyed : Keyed (some map)) :
    Reaped root dead memory (reapTable root dead memory map).1 map
      (reapTable root dead memory map).2 rest := by
  have cleared : tableGrants (some (map.map (fun _ grant => grant.unshare dead))) =
      (tableGrants (some map)).map (Grant.unshare dead) := by
    unfold tableGrants
    simp only [Option.getD_some, Std.TreeMap.toList_map, List.map_map, Function.comp_def]
  have kept : ∀ p : Grant → Bool,
      tableGrants (some ((map.map (fun _ grant => grant.unshare dead)).filter
        (fun _ grant => p grant))) = ((tableGrants (some map)).map (Grant.unshare dead)).filter p := by
    intro p
    rw [← cleared]
    unfold tableGrants
    simp only [Option.getD_some, Std.TreeMap.toList_filter, List.filter_map, Function.comp_def]
  let unshared := (tableGrants (some map)).map (Grant.unshare dead)
  have split : Accounted root memory
      (unshared.filter (fun grant => grant.owner = dead) ++
        (unshared.filter (fun grant => grant.owner ≠ dead) ++ rest)) := by
    have same : List.Forall₂ Grant.SamePages (tableGrants (some map) ++ rest)
        (unshared ++ rest) :=
      rel_append
        (forall₂_map_right_iff.mpr (forall₂_same.mpr (fun grant _ => unshare_same dead grant)))
        (forall₂_same.mpr (fun grant _ => .refl grant))
    have order := (filter_append_perm (fun grant : Grant => grant.owner = dead)
      unshared).append_right rest
    rw [append_assoc] at order
    have others : unshared.filter (fun grant => !decide (grant.owner = dead)) =
        unshared.filter (fun grant => grant.owner ≠ dead) := by
      simp only [decide_not]
    rw [others] at order
    exact (sound.reshare same).perm order.symm
  obtain ⟨released, region, frees⟩ := split.release_all
  have owned : ((map.map (fun _ grant => grant.unshare dead)).filter
      (fun _ grant => grant.owner = dead)).toList.map snd =
      unshared.filter (fun grant => grant.owner = dead) := kept (fun grant => grant.owner = dead)
  have reaped := kept (fun grant => grant.owner ≠ dead)
  unfold reapTable
  dsimp only
  rw [owned]
  refine ⟨?_, ?_, ?_, region, ?_⟩
  · rw [reaped]
    exact released
  · intro other grant has
    have listed : (other, grant) ∈ ((map.map (fun _ grant => grant.unshare dead)).filter
        (fun _ grant => grant.owner ≠ dead)).toList := mem_entries_iff.mpr has
    rw [Std.TreeMap.toList_filter, List.mem_filter, Std.TreeMap.toList_map, List.mem_map] at listed
    obtain ⟨⟨⟨key, old⟩, mem, same⟩, _⟩ := listed
    cases same
    rw [(unshare_same dead old).base]
    exact keyed key old (mem_entries_iff.mp mem)
  · intro grant mem
    rw [reaped, List.mem_filter, List.mem_map] at mem
    obtain ⟨⟨old, _, same⟩, notOwner⟩ := mem
    refine ⟨of_decide_eq_true notOwner, ?_⟩
    rw [← same]
    unfold Grant.unshare
    split
    next => rfl
    next other => exact Bool.not_eq_true _ ▸ other
  · intro idx taken
    obtain ⟨was, apart⟩ := frees idx taken
    refine ⟨was, ?_⟩
    intro grant mem isOwner
    have mine : grant.unshare dead ∈ unshared.filter (fun grant => grant.owner = dead) := by
      rw [mem_filter]
      refine ⟨mem_map_of_mem mem, decide_eq_true ?_⟩
      unfold Grant.unshare
      split <;> exact isOwner
    have pages := apart _ mine
    rw [(unshare_same dead grant).base, (unshare_same dead grant).pages] at pages
    exact pages

end Table

end ViCell.Grants

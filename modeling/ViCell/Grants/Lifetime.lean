import ViCell.Grants.Ownership

/-!
# The life of a grant

From boot on, in every order of grant calls, task deaths and the rest of the
kernel's use of memory: live grants are apart and allocated, a call gives a
grant's base to no one but its owner and its grantee, and the reaper leaves
nothing of a dead task exactly when it gets to both tables.
-/

namespace ViCell.Grants

open Lib Memory Memory.KernelMemory List Option KernelMemory

def GrantKernel.live (kernel : GrantKernel) : List Grant :=
  tableGrants kernel.pageGrants ++ tableGrants kernel.regGrants

structure Sound (root : Nat) (kernel : GrantKernel) : Prop where
  accounted : Accounted root kernel.memory kernel.live
  pageKeyed : Keyed kernel.pageGrants
  regKeyed : Keyed kernel.regGrants

variable {root : Nat} {kernel after : GrantKernel}

/-- The caller may have every grant whose base it was given. -/
def GivenRightly (kernel : GrantKernel) (caller : Nat) (reply : Except SyscallError Nat) : Prop :=
  ∀ value, reply = .ok value → ∀ grant ∈ kernel.live, grant.base = value →
    grant.allows caller = true

theorem given_error (kernel : GrantKernel) (caller : Nat) (error : SyscallError) :
    GivenRightly kernel caller (.error error) := by
  intro value same
  cases same

variable {grant : Grant} {caller : Nat}

theorem owner_allows (owner : grant.owner = caller) : grant.allows caller = true := by
  unfold Grant.allows
  rw [decide_eq_true owner, Bool.true_or]

section

variable {reply : Except SyscallError Nat} (sound : Sound root kernel)
include sound

theorem Sound.reg_first :
    Accounted root kernel.memory (tableGrants kernel.regGrants ++ tableGrants kernel.pageGrants) :=
  sound.accounted.perm perm_append_comm

theorem Sound.given_zero (caller : Nat) : GivenRightly kernel caller (.ok 0) := by
  intro value same grant mem base
  cases same
  have bounds := sound.accounted.base_bounds mem
  omega

theorem grant_alloc_sound {size : Nat}
    (run : kernel.grantAlloc root caller size = some (after, reply)) :
    Sound root after ∧ GivenRightly after caller reply := by
  obtain ⟨⟨_, _, _⟩, taken, same⟩ := map_eq_some_iff.mp run
  cases same
  obtain ⟨holds, keyed, owned⟩ := alloc_into_sound sound.accounted sound.pageKeyed taken
  refine ⟨⟨holds, keyed, sound.regKeyed⟩, ?_⟩
  intro reply same grant mem base
  cases same
  exact owner_allows (owned grant mem base)

theorem grant_register_sound {size : Nat}
    (run : kernel.grantRegister root caller size = some (after, reply)) :
    Sound root after ∧ GivenRightly after caller reply := by
  obtain ⟨⟨_, _, _⟩, taken, same⟩ := map_eq_some_iff.mp run
  cases same
  obtain ⟨holds, keyed, owned⟩ := alloc_into_sound sound.reg_first sound.regKeyed taken
  refine ⟨⟨holds.perm perm_append_comm, sound.pageKeyed, keyed⟩, ?_⟩
  intro reply same grant mem base
  cases same
  exact owner_allows (owned grant (perm_append_comm.mem_iff.mp mem) base)

theorem Sound.create_page_table :
    Sound root { kernel with pageGrants := some (kernel.pageGrants.getD ∅) } where
  accounted := sound.accounted
  pageKeyed := by
    intro id grant found
    exact sound.pageKeyed id grant ((lookup_get_d id kernel.pageGrants).trans found)
  regKeyed := sound.regKeyed

variable {id : Nat}

theorem lookup_given (mem : grant ∈ kernel.live) :
    GivenRightly kernel caller (.ok (if grant.allows caller then grant.base else usizeMax)) := by
  intro value same other listed base
  cases same
  have bounds := sound.accounted.base_bounds listed
  by_cases allowed : grant.allows caller = true
  · rw [if_pos allowed] at base
    by_cases isSame : other = grant
    · rw [isSame]
      exact allowed
    · have order := perm_cons_erase mem
      have later : other ∈ kernel.live.erase grant := by
        rcases mem_cons.mp (order.mem_iff.mp listed) with same | later
        · exact absurd same isSame
        · exact later
      exact absurd base ((sound.accounted.perm order).base_unique later)
  · rw [if_neg allowed] at base
    omega

theorem grant_share_sound {target perm : Nat}
    (run : kernel.grantShare caller id target perm = (after, reply)) :
    Sound root after ∧ GivenRightly after caller reply := by
  have created := sound.create_page_table
  unfold GrantKernel.grantShare at run
  split at run
  next =>
    cases run
    exact ⟨sound, given_error _ _ _⟩
  next right valid =>
    have same : ∀ grant : Grant, grant.SamePages { grant with sharedTo := some (target, right) } :=
      fun _ => ⟨rfl, rfl⟩
    dsimp only at run
    split at run
    next grant found =>
      split at run
      next =>
        cases run
        exact ⟨created, given_error _ _ _⟩
      next =>
        cases run
        obtain ⟨holds, keyed⟩ := share_sound (same grant) found created.accounted
          created.pageKeyed
        have shared : Sound root
            { kernel with
              pageGrants := some ((kernel.pageGrants.getD ∅).insert id
                { grant with sharedTo := some (target, right) }) } :=
          ⟨holds, keyed, sound.regKeyed⟩
        exact ⟨shared, shared.given_zero caller⟩
    next =>
      split at run
      next =>
        cases run
        exact ⟨created, given_error _ _ _⟩
      next grant found =>
        split at run
        next =>
          cases run
          exact ⟨created, given_error _ _ _⟩
        next =>
          cases run
          obtain ⟨map, isMap, entry⟩ := bind_eq_some_iff.mp found
          have first := created.reg_first
          have keyed := created.regKeyed
          rw [isMap] at first keyed
          obtain ⟨holds, regKeyed⟩ := share_sound (same grant) entry first keyed
          have shared : Sound root
              { kernel with
                pageGrants := some (kernel.pageGrants.getD ∅)
                regGrants := kernel.regGrants.map (fun map =>
                  map.insert id { grant with sharedTo := some (target, right) }) } := by
            rw [isMap]
            exact ⟨holds.perm perm_append_comm, created.pageKeyed, regKeyed⟩
          exact ⟨shared, shared.given_zero caller⟩

theorem grant_slice_given (id : Nat) :
    GivenRightly kernel caller (.ok (kernel.grantSlice caller id)) := by
  have nowhere : GivenRightly kernel caller (.ok usizeMax) := by
    intro value same grant mem base
    cases same
    have bounds := sound.accounted.base_bounds mem
    omega
  unfold GrantKernel.grantSlice
  split
  next grant found =>
    exact lookup_given sound (mem_append_left _ (mem_table_grants.mpr ⟨id, found⟩))
  next =>
    split
    next => exact nowhere
    next grant found =>
      exact lookup_given sound (mem_append_right _ (mem_table_grants.mpr ⟨id, found⟩))

theorem grant_free_sound (run : kernel.grantFree root caller id = (after, reply)) :
    Sound root after ∧ GivenRightly after caller reply := by
  unfold GrantKernel.grantFree at run
  split at run
  next =>
    cases run
    exact ⟨sound, given_error _ _ _⟩
  next grant own =>
    cases run
    obtain ⟨holds, keyed⟩ := free_sound own sound.accounted sound.pageKeyed
    have freed : Sound root
        { kernel with
          pageGrants := kernel.pageGrants.map (fun map => map.erase id)
          memory := releaseGrant root kernel.memory grant } := ⟨holds, keyed, sound.regKeyed⟩
    exact ⟨freed, freed.given_zero caller⟩

theorem grant_unregister_sound (run : kernel.grantUnregister root caller id = (after, reply)) :
    Sound root after ∧ GivenRightly after caller reply := by
  unfold GrantKernel.grantUnregister at run
  split at run
  next =>
    cases run
    exact ⟨sound, given_error _ _ _⟩
  next grant own =>
    cases run
    obtain ⟨holds, keyed⟩ := free_sound own sound.reg_first sound.regKeyed
    have freed : Sound root
        { kernel with
          regGrants := kernel.regGrants.map (fun map => map.erase id)
          memory := releaseGrant root kernel.memory grant } :=
      ⟨holds.perm perm_append_comm, sound.pageKeyed, keyed⟩
    exact ⟨freed, freed.given_zero caller⟩

theorem perform_sound {call : GrantCall}
    (run : kernel.perform root caller call = some (after, reply)) :
    Sound root after ∧ GivenRightly after caller reply := by
  cases call with
  | grantAlloc => exact grant_alloc_sound sound run
  | grantShare => exact grant_share_sound sound (some.inj run)
  | grantSlice id =>
    cases run
    exact ⟨sound, grant_slice_given sound id⟩
  | grantFree => exact grant_free_sound sound (some.inj run)
  | grantRegister => exact grant_register_sound sound run
  | grantUnregister => exact grant_unregister_sound sound (some.inj run)

end

theorem frame_of_grant {memory : KernelMemory} {grants : List Grant}
    (holds : Accounted root memory grants) (mem : grant ∈ grants) {addr idx : Nat}
    (above : grant.base ≤ addr) (below : addr < grant.base + grant.size)
    (first : memory.machine.allocator.frameAt idx ≤ addr)
    (last : addr < memory.machine.allocator.frameAt idx + pageSize) :
    memory.machine.allocator.frameAt idx ∈ pagesFrom grant.base 0 grant.pages := by
  obtain ⟨page, listed, pageFirst, pageLast⟩ := holds.page_of mem above below
  obtain ⟨_, frame⟩ := frame_at_dvd holds.free.kept.paged.placed idx
  obtain ⟨_, place⟩ := (taken_low holds.free.kept.paged (holds.page_taken mem listed)).2
  have same : memory.machine.allocator.frameAt idx = page := by
    unfold pageSize at *
    omega
  rw [same]
  exact listed

/-- Nothing is left of the task: no grant of its own, no share to it, and the
frames of the grants it owned are free. -/
structure ReapedClean (root : Nat) (kernel : GrantKernel) (task : Nat) : Prop where
  clean : ∀ grant ∈ (kernel.reap root task).live, grant.FreeOf task
  freed : ∀ grant ∈ kernel.live, grant.owner = task →
    ∀ address, grant.base ≤ address → address < grant.base + grant.size →
      ¬ ByteTaken (kernel.reap root task).memory.machine.allocator address

/-- The reaper gets to the register table, or has nothing to do there. -/
def ReaperReaches (kernel : GrantKernel) (task : Nat) : Prop :=
  kernel.pageGrants.isSome = true ∨ ∀ grant ∈ tableGrants kernel.regGrants, grant.FreeOf task

theorem reap_stops_early (root task : Nat) (gone : kernel.pageGrants = none) :
    kernel.reap root task = kernel := by
  unfold GrantKernel.reap
  rw [gone]

theorem reap_spec {pageTable : GrantTable} (task : Nat) (sound : Sound root kernel)
    (created : kernel.pageGrants = some pageTable) :
    Sound root (kernel.reap root task) ∧ ReapedClean root kernel task := by
  have holds := sound.accounted
  unfold GrantKernel.live at holds
  have pageKeyed := sound.pageKeyed
  rw [created] at holds pageKeyed
  have pagePass := reap_table_spec task holds pageKeyed
  cases register : kernel.regGrants with
  | none =>
    have reaped : kernel.reap root task = { kernel with
          memory := (reapTable root task kernel.memory pageTable).1
          pageGrants := some (reapTable root task kernel.memory pageTable).2 } := by
      unfold GrantKernel.reap
      rw [created]
      rw [register]
    rw [register] at pagePass holds
    refine ⟨?_, ?_, ?_⟩
    · rw [reaped]
      refine ⟨?_, pagePass.keyed, sound.regKeyed⟩
      rw [register]
      exact pagePass.accounted
    · rw [reaped]
      rw [register]
      intro grant mem
      rcases mem_append.mp mem with inPage | inReg
      · exact pagePass.clean grant inPage
      · cases inReg
    · rw [reaped]
      unfold GrantKernel.live
      rw [register, created]
      rintro grant mem owner addr above below ⟨idx, taken, first, last⟩
      have region := pagePass.region.start
      obtain ⟨_, apart⟩ := pagePass.frees idx taken
      rw [region] at first last
      have inGrant := frame_of_grant holds mem above below first last
      rcases mem_append.mp mem with inPage | inReg
      · exact apart grant inPage owner inGrant
      · cases inReg
  | some regTable =>
    have regKeyed := sound.regKeyed
    rw [register] at pagePass holds regKeyed
    have regPass := reap_table_spec task (pagePass.accounted.perm perm_append_comm) regKeyed
    have reaped : kernel.reap root task =
        { memory := (reapTable root task (reapTable root task kernel.memory pageTable).1
            regTable).1
          pageGrants := some (reapTable root task kernel.memory pageTable).2
          regGrants := some (reapTable root task (reapTable root task kernel.memory pageTable).1
            regTable).2 } := by
      unfold GrantKernel.reap
      rw [created]
      rw [register]
    refine ⟨?_, ?_, ?_⟩
    · rw [reaped]
      exact ⟨regPass.accounted.perm perm_append_comm, pagePass.keyed, regPass.keyed⟩
    · rw [reaped]
      intro grant mem
      rcases mem_append.mp mem with inPage | inReg
      · exact pagePass.clean grant inPage
      · exact regPass.clean grant inReg
    · rw [reaped]
      unfold GrantKernel.live
      rw [register, created]
      rintro grant mem owner addr above below ⟨idx, taken, first, last⟩
      obtain ⟨midway, regApart⟩ := regPass.frees idx taken
      obtain ⟨_, pageApart⟩ := pagePass.frees idx midway
      rw [regPass.region.start, pagePass.region.start] at first last
      have inGrant := frame_of_grant holds mem above below first last
      rcases mem_append.mp mem with inPage | inReg
      · exact pageApart grant inPage owner inGrant
      · have apart := regApart grant inReg owner
        rw [pagePass.region.frame_at] at apart
        exact apart inGrant

theorem reap_sound (task : Nat) (sound : Sound root kernel) :
    Sound root (kernel.reap root task) := by
  cases created : kernel.pageGrants with
  | none =>
    rw [reap_stops_early root task created]
    exact sound
  | some => exact (reap_spec task sound created).1

theorem reaped_clean_iff (task : Nat) (sound : Sound root kernel) :
    ReapedClean root kernel task ↔ ReaperReaches kernel task := by
  cases created : kernel.pageGrants with
  | none =>
    have same := reap_stops_early root task created
    have onlyReg : kernel.live = tableGrants kernel.regGrants := by
      unfold GrantKernel.live
      rw [created]
      rfl
    constructor
    · intro reaped
      right
      have clean := reaped.clean
      rw [same, onlyReg] at clean
      exact clean
    · intro reaches
      rcases reaches with isSome | clean
      · rw [created] at isSome
        cases isSome
      · refine ⟨?_, ?_⟩
        · rw [same, onlyReg]
          exact clean
        · rw [onlyReg]
          intro grant mem owner
          exact absurd owner (clean grant mem).1
  | some =>
    refine ⟨fun _ => .inl ?_, fun _ => (reap_spec task sound created).2⟩
    rw [created]
    rfl

theorem erase_not_grant {held : List Holding} {pos : Nat} {holding : Holding}
    (found : held[pos]? = some holding) (other : isGrant holding = false) :
    ((held.eraseIdx pos).filter isGrant).Perm (held.filter isGrant) := by
  have order := (held_perm found).filter isGrant
  rw [filter_cons_of_neg (by rw [other]; decide)] at order
  exact order.symm

theorem keep_stack_grants (memory : KernelMemory) (out : Machine × Except ViError Stack) :
    (memory.keepStack out).held.filter isGrant = memory.held.filter isGrant := by
  obtain ⟨_, outcome⟩ := out
  cases outcome with
  | error => rfl
  | ok => rfl

theorem foreign_held {memory next : KernelMemory} {call : MemoryCall}
    (foreign : isForeign call = true) (ran : memory.step root call = some next) :
    (next.held.filter isGrant).Perm (memory.held.filter isGrant) := by
  cases call with
  | newKernelStack pages | newUserStack pages =>
    obtain ⟨_, _, same⟩ := map_eq_some_iff.mp ran
    rw [← same, keep_stack_grants]
  | dropStack =>
    simp only [step] at ran
    split at ran
    next stack found =>
      cases ran
      exact erase_not_grant found rfl
    next => cases ran
  | loadSegments =>
    simp only [step] at ran
    split at ran
    next => cases ran
    next =>
      cases ran
      exact List.Perm.refl _
    next =>
      cases ran
      exact List.Perm.refl _
  | eagerUnmap =>
    simp only [step] at ran
    split at ran
    next =>
      cases ran
      exact List.Perm.refl _
    next => cases ran
  | dropSegments =>
    simp only [step] at ran
    split at ran
    next pages found =>
      cases ran
      exact erase_not_grant found rfl
    next => cases ran
  | reserveGrant => cases foreign
  | mapGrant => cases foreign
  | undoGrant => cases foreign
  | freeGrant => cases foreign

theorem step_sound {event : GrantEvent} (sound : Sound root kernel)
    (ran : kernel.step root event = some after) : Sound root after := by
  cases event with
  | call =>
    obtain ⟨⟨next, _⟩, run, same⟩ := map_eq_some_iff.mp ran
    cases same
    exact (perform_sound sound run).1
  | death task =>
    cases ran
    exact reap_sound task sound
  | foreign =>
    simp only [GrantKernel.step] at ran
    split at ran
    next foreign =>
      obtain ⟨_, run, same⟩ := map_eq_some_iff.mp ran
      cases same
      exact ⟨⟨step_kept sound.accounted.free run,
        (foreign_held foreign run).trans sound.accounted.held, sound.accounted.sized⟩,
        sound.pageKeyed, sound.regKeyed⟩
    next => cases ran

theorem start_sound {machine : Machine} (home : HomeKept root machine [] []) :
    Sound root (.start machine) where
  accounted := ⟨⟨home, fun _ _ _ mem => by cases mem⟩, List.Perm.refl _, fun _ mem => by cases mem⟩
  pageKeyed := fun _ _ found => by cases found
  regKeyed := fun _ _ found => by cases found

/-- After any run from boot: live grants are apart and allocated, calls give
bases only to those who may have them, and the reaper clears a task out of both
tables if and only if it reaches the second one or has nothing to do there. -/
theorem grants_apart_given_and_reaped {entries : List MemoryMapEntry} {platform : PlatformInfo}
    {contents : Nat → Word} {booted : Machine} (map : BootMap entries platform.windows)
    (boots : initKernelPaging entries platform
      { allocator := .newFromMap entries, memory := contents } = some (root, booted))
    (events : List GrantEvent) {kernel : GrantKernel}
    (executed : runEvents (GrantKernel.step root) (.start booted) events = some kernel) :
    kernel.live.Pairwise Grant.Apart ∧ (∀ grant ∈ kernel.live, ∀ address, grant.base ≤ address →
        address < grant.base + grant.size → ByteTaken kernel.memory.machine.allocator address) ∧
      (∀ caller call after reply, kernel.perform root caller call = some (after, reply) →
        GivenRightly after caller reply) ∧
      ∀ task, ReapedClean root kernel task ↔ ReaperReaches kernel task := by
  have sound : Sound root kernel :=
    run_invariant (Sound root) (fun _ _ _ sound stepped => step_sound sound stepped) executed
      (start_sound (init_kernel_paging_home map boots))
  refine ⟨sound.accounted.apart, ?_, ?_, fun task => reaped_clean_iff task sound⟩
  · intro grant member address above below
    exact sound.accounted.allocated member above below
  · intro caller call after reply run
    exact (perform_sound sound run).2

/-- One task shares a page with another, which registers two pages of its own. -/
def sharedRun : List GrantEvent :=
  [.call 1 (.grantAlloc 4096), .call 1 (.grantShare 0x80006000 2 0), .call 2 (.grantRegister 8192)]

/-- The only grant there ever was is a registered one. -/
def registeredRun : List GrantEvent := [.call 1 (.grantRegister 4096)]

def sharedGrants : List Grant :=
  [{ base := 0x80006000, size := 4096, owner := 1, sharedTo := some (2, .readOnly) },
    { base := 0x80007000, size := 8192, owner := 2, sharedTo := none }]

def registeredGrant : Grant := { base := 0x80006000, size := 4096, owner := 1, sharedTo := none }

theorem tiny_grant_runs :
    ((initKernelPaging tinyMap tinyPlatform tinyStart).bind (fun booted =>
      (runEvents (GrantKernel.step booted.1) (.start booted.2) sharedRun).bind (fun shared =>
        (runEvents (GrantKernel.step booted.1) (.start booted.2) registeredRun).map
          (fun registered => (booted.1, shared.pageGrants.isSome, shared.live,
            registered.pageGrants.isNone, registered.live))))) =
      some (0x80001000, true, sharedGrants, true, [registeredGrant]) := by
  decide +kernel

theorem shared_page_reaped :
    ∃ booted kernel, initKernelPaging tinyMap tinyPlatform tinyStart = some (0x80001000, booted) ∧
      runEvents (GrantKernel.step 0x80001000) (.start booted) sharedRun = some kernel ∧
      kernel.live = sharedGrants ∧ kernel.live.Pairwise Grant.Apart ∧
      (∀ reply, kernel.perform 0x80001000 3 (.grantSlice 0x80006000) = some (kernel, .ok reply) →
        reply ≠ 0x80006000) ∧
      ReapedClean 0x80001000 kernel 1 ∧ ReapedClean 0x80001000 kernel 2 := by
  obtain ⟨⟨_, booted⟩, boots, runs⟩ := bind_eq_some_iff.mp tiny_grant_runs
  obtain ⟨kernel, executed, rest⟩ := bind_eq_some_iff.mp runs
  obtain ⟨_, _, facts⟩ := map_eq_some_iff.mp rest
  simp only [Prod.mk.injEq] at facts
  obtain ⟨sameRoot, created, live, _⟩ := facts
  subst sameRoot
  obtain ⟨apart, _, given, reaped⟩ :=
    grants_apart_given_and_reaped tiny_boot_map boots sharedRun executed
  refine ⟨booted, kernel, boots, executed, live, apart, ?_, (reaped 1).mpr (.inl created),
    (reaped 2).mpr (.inl created)⟩
  intro reply run same
  have allowed := given 3 _ kernel _ run reply rfl
    { base := 0x80006000, size := 4096, owner := 1, sharedTo := some (2, .readOnly) }
    (by rw [live]; decide) same.symm
  exact absurd allowed (by decide)

/-- The owner of a registered grant dies before any other grant call was made:
the reaper returns at the missing table. -/
theorem registered_grant_outlives_owner :
    ∃ booted kernel, initKernelPaging tinyMap tinyPlatform tinyStart = some (0x80001000, booted) ∧
      runEvents (GrantKernel.step 0x80001000) (.start booted) registeredRun = some kernel ∧
      registeredGrant ∈ (kernel.reap 0x80001000 1).live ∧ registeredGrant.owner = 1 ∧
      ByteTaken (kernel.reap 0x80001000 1).memory.machine.allocator registeredGrant.base ∧
      ¬ ReapedClean 0x80001000 kernel 1 := by
  obtain ⟨⟨_, booted⟩, boots, runs⟩ := bind_eq_some_iff.mp tiny_grant_runs
  obtain ⟨_, _, rest⟩ := bind_eq_some_iff.mp runs
  obtain ⟨kernel, executed, facts⟩ := map_eq_some_iff.mp rest
  simp only [Prod.mk.injEq] at facts
  obtain ⟨sameRoot, _, _, missing, live⟩ := facts
  subst sameRoot
  have sound : Sound 0x80001000 kernel :=
    run_invariant (Sound 0x80001000) (fun _ _ _ sound stepped => step_sound sound stepped) executed
      (start_sound (init_kernel_paging_home tiny_boot_map boots))
  have unchanged : kernel.reap 0x80001000 1 = kernel :=
    reap_stops_early 0x80001000 1 (isNone_iff_eq_none.mp missing)
  have listed : registeredGrant ∈ kernel.live := by
    rw [live]
    exact mem_singleton_self _
  refine ⟨booted, kernel, boots, executed, ?_, rfl, ?_, ?_⟩
  · rw [unchanged]
    exact listed
  · rw [unchanged]
    exact sound.accounted.allocated listed (Nat.le_refl _) (by decide)
  · intro reaped
    have clean := reaped.clean registeredGrant (by rw [unchanged]; exact listed)
    exact clean.1 rfl

end ViCell.Grants

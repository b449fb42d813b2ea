import ViCell.Hypervisor.Creation
import ViCell.Lib.Runs

/-!
# Guests stay in their RAM

Over every run of VM calls, a valid leaf of a VM's table is a page of the RAM
carved for it, or the page of the GIC window it was given when it was created.
-/

namespace ViCell.Hypervisor

open Lib Lib.RadixTable Memory Function List Option

namespace VmState

def roots (state : VmState) (key : VmKey) : Option Nat :=
  (state.find key).map (fun vm => vm.stage2.rootPa)

theorem find_insert (state : VmState) (key : VmKey) (vm : Vm) (other : VmKey) :
    (state.insert key vm).find other = if other = key then some vm else state.find other := by
  unfold find insert
  rw [lookup_cons]
  by_cases same : other = key
  · simp [same]
  · have differ : (other == key) = false := by simpa using same
    rw [differ, if_neg same]

theorem find_modify (state : VmState) (key : VmKey) (vm : Vm) (other : VmKey) :
    (state.modify key vm).find other =
      if other = key ∧ (state.find key).isSome then some vm else state.find other := by
  unfold find modify
  induction state.vms with
  | nil => simp
  | cons entry rest ih =>
    obtain ⟨entryKey, _⟩ := entry
    by_cases here : entryKey = key
    · subst here
      by_cases same : other = entryKey
      · simp [same]
      · have differ : (other == entryKey) = false := by simpa using same
        rw [if_neg (fun both => same both.1)] at ih
        simp only [map_cons, if_true, lookup_cons, differ, ih]
        rw [if_neg (fun both => same both.1)]
    · have elsewhere : (key == entryKey) = false := by
        simpa using fun same => here same.symm
      simp only [map_cons, if_neg here, lookup_cons, elsewhere]
      by_cases same : other = entryKey
      · subst same
        simp [here]
      · have differ : (other == entryKey) = false := by simpa using same
        rw [differ]
        exact ih

theorem owned_modify (state : VmState) (key : VmKey) (vm : Vm) (owner : Nat) :
    ((state.modify key vm).vms.filter (fun entry => entry.1.1 = owner)).length =
      (state.vms.filter (fun entry => entry.1.1 = owner)).length := by
  unfold modify
  induction state.vms with
  | nil => rfl
  | cons entry rest ih =>
    have keeps : (if entry.1 = key then (key, vm) else entry).1 = entry.1 := by
      split
      next same => exact same.symm
      next => rfl
    rw [map_cons, filter_cons, filter_cons, keeps]
    split
    next => rw [length_cons, length_cons, ih]
    next => exact ih

end VmState

theorem same_page_iff {left right : Nat} (leftLow : left < ipaLimit) (rightLow : right < ipaLimit) :
    SamePage left right ↔ left / pageSize = right / pageSize := by
  unfold SamePage l1Idx l2Idx l3Idx ipaLimit pageSize at *
  omega

/-- What the checks of `map` establish when the size in bytes does not wrap. -/
structure Checked (table : Stage2Table) (ipa hpa pages : Nat) : Prop where
  ipaLow : ipa + pages * pageSize ≤ ipaLimit
  hpaLow : hpa + pages * pageSize ≤ ipaLimit
  inside : 0 < table.guestRamPages → table.guestRamPa ≤ hpa ∧ hpa + pages * pageSize ≤
      usize (table.guestRamPa + usize (table.guestRamPages * pageSize))

theorem range_end_some {base pages finish : Nat} (noWrap : pages * pageSize < 2 ^ 64)
    (found : rangeEnd base pages = some finish) : finish = base + pages * pageSize := by
  unfold rangeEnd usize at found
  rw [Nat.mod_eq_of_lt noWrap] at found
  split at found
  next => exact (some.inj found).symm
  next => cases found

theorem map_check_ok {table : Stage2Table} {ipa hpa pages : Nat}
    (noWrap : pages * pageSize < 2 ^ 64) (run : table.mapCheck ipa hpa pages = .ok ()) :
    Checked table ipa hpa pages := by
  unfold Stage2Table.mapCheck at run
  split at run
  next => cases run
  next ipaEnd ipaFound =>
    have ipaSame := range_end_some noWrap ipaFound
    split at run
    next => cases run
    next hpaEnd hpaFound =>
      have hpaSame := range_end_some noWrap hpaFound
      split at run
      next => cases run
      next ipaLow =>
        split at run
        next => cases run
        next hpaLow =>
          split at run
          next => cases run
          next =>
            split at run
            next => cases run
            next inside => exact ⟨by omega, by omega, by omega⟩

def InGicWindow (ipa : Nat) : Prop := 0x08010000 ≤ ipa ∧ ipa < 0x08020000

/-- The leaf for `ipa` points into the VM's RAM, or it is the page of the GIC
window at its place. -/
def PointsInside (vm : Vm) (ipa : Nat) (desc : Word) : Prop :=
  (InGicWindow ipa ∧ descPa desc + 0x08010000 = 0x08040000 + ipa / pageSize * pageSize) ∨
    (vm.guestPa ≤ descPa desc ∧ descPa desc + pageSize ≤ vm.guestPa + vm.guestPages * pageSize)

/-- The RAM carved for a VM, as its table records it. -/
structure Carved (vm : Vm) : Prop where
  base : vm.stage2.guestRamPa = vm.guestPa
  pages : vm.stage2.guestRamPages = vm.guestPages
  nonempty : 0 < vm.guestPages
  aligned : pageSize ∣ vm.guestPa
  low : vm.guestPa + vm.guestPages * pageSize ≤ 2 ^ 48

/-- Each valid leaf of the VM's table points where it may. -/
def GuestConfined (state : VmState) (key : VmKey) (vm : Vm) : Prop :=
  ∀ ipa < ipaLimit, isValid (leaf state.roots state.machine key ipa) = true →
    PointsInside vm ipa (leaf state.roots state.machine key ipa)

structure Confined (state : VmState) : Prop where
  sound : Sound state.roots state.machine
  numbered : ∀ key vm, state.find key = some vm →
    key.2 ≤ (state.vms.filter (fun entry => entry.1.1 = key.1)).length
  carved : ∀ key vm, state.find key = some vm → Carved vm
  guests : ∀ key vm, state.find key = some vm → GuestConfined state key vm

section Calls

variable {state : VmState} {key : VmKey} {vm : Vm}

variable {table : Stage2Table} {ipa i : Nat}

theorem Checked.page {hpa pages : Nat} (checked : Checked table ipa hpa pages) (inside : i < pages) :
    usize (ipa + i * pageSize) = ipa + i * pageSize ∧
      usize (hpa + i * pageSize) = hpa + i * pageSize ∧
      ipa + i * pageSize < ipaLimit ∧ hpa + i * pageSize + pageSize ≤ ipaLimit := by
  have ipaLow := checked.ipaLow
  have hpaLow := checked.hpaLow
  unfold ipaLimit pageSize at *
  refine ⟨Nat.mod_eq_of_lt (by omega), Nat.mod_eq_of_lt (by omega), by omega, by omega⟩

theorem mapped_page_inside {pages other : Nat} (writable : Bool) (carved : Carved vm)
    (checked : Checked vm.stage2 ipa vm.guestPa pages) (inside : i < pages) :
    PointsInside vm other (pageDesc (usize (vm.guestPa + i * pageSize)) writable) := by
  obtain ⟨_, place, _, low⟩ := checked.page inside
  have within := (checked.inside (by rw [carved.pages]; exact carved.nonempty)).2
  rw [carved.base, carved.pages] at within
  have carvedLow := carved.low
  have aligned : pageSize ∣ vm.guestPa + i * pageSize :=
    Nat.dvd_add carved.aligned (Nat.dvd_mul_left _ _)
  right
  rw [place, desc_pa_page _ writable aligned (by unfold ipaLimit at low; omega)]
  have noWrap : usize (vm.guestPa + usize (vm.guestPages * pageSize)) =
      vm.guestPa + vm.guestPages * pageSize := by
    unfold usize
    rw [Nat.mod_eq_of_lt (by omega), Nat.mod_eq_of_lt (by omega)]
  rw [noWrap] at within
  unfold pageSize at within ⊢
  omega

theorem roots_modify (state : VmState) (registered : state.find key = some vm)
    (root : table.rootPa = vm.stage2.rootPa) :
    (state.modify key { vm with stage2 := table }).roots = state.roots := by
  funext other
  unfold VmState.roots
  rw [VmState.find_modify]
  by_cases same : other = key
  · rw [same, registered]
    simp [root]
  · rw [if_neg (fun both => same both.1)]

variable {machine : Machine}

theorem confined_modify (confined : Confined state) (registered : state.find key = some vm)
    (sound : Sound state.roots machine) (root : table.rootPa = vm.stage2.rootPa)
    (ramPa : table.guestRamPa = vm.stage2.guestRamPa)
    (ramPages : table.guestRamPages = vm.stage2.guestRamPages)
    (leaves : ∀ otherKey, ∀ other < ipaLimit,
      leaf state.roots machine otherKey other = leaf state.roots state.machine otherKey other ∨
        (otherKey = key ∧ PointsInside vm other (leaf state.roots machine otherKey other))) :
    Confined ({ state with machine := machine }.modify key { vm with stage2 := table }) := by
  have sameRoots : ({ state with machine := machine }.modify key { vm with stage2 := table }).roots =
      state.roots := roots_modify { state with machine := machine } registered root
  have found : ∀ otherKey otherVm,
      ({ state with machine := machine }.modify key { vm with stage2 := table }).find otherKey =
        some otherVm →
      ∃ oldVm, state.find otherKey = some oldVm ∧ otherVm.guestPa = oldVm.guestPa ∧
        otherVm.guestPages = oldVm.guestPages ∧
        otherVm.stage2.guestRamPa = oldVm.stage2.guestRamPa ∧
        otherVm.stage2.guestRamPages = oldVm.stage2.guestRamPages := by
    intro otherKey otherVm known
    rw [VmState.find_modify] at known
    split at known
    next same =>
      cases known
      rw [same.1]
      exact ⟨vm, registered, rfl, rfl, ramPa, ramPages⟩
    next => exact ⟨otherVm, known, rfl, rfl, rfl, rfl⟩
  refine ⟨?_, ?_, ?_, ?_⟩
  · rw [sameRoots]
    exact sound
  · intro otherKey otherVm known
    obtain ⟨oldVm, old, _⟩ := found otherKey otherVm known
    rw [VmState.owned_modify]
    exact confined.numbered otherKey oldVm old
  · intro otherKey otherVm known
    obtain ⟨oldVm, old, samePa, samePages, sameRam, sameRamPages⟩ := found otherKey otherVm known
    have carved := confined.carved otherKey oldVm old
    refine ⟨?_, ?_, ?_, ?_, ?_⟩
    · rw [sameRam, samePa, carved.base]
    · rw [sameRamPages, samePages, carved.pages]
    · rw [samePages]
      exact carved.nonempty
    · rw [samePa]
      exact carved.aligned
    · rw [samePa, samePages]
      exact carved.low
  · intro otherKey otherVm known ipa low
    obtain ⟨oldVm, old, samePa, samePages, _⟩ := found otherKey otherVm known
    rw [sameRoots]
    unfold PointsInside
    rw [samePa, samePages]
    intro valid
    rcases leaves otherKey ipa low with kept | ⟨same, inside⟩
    · have sameLeaf : leaf state.roots
          ({ state with machine := machine }.modify key { vm with stage2 := table }).machine
          otherKey ipa = leaf state.roots state.machine otherKey ipa := kept
      rw [sameLeaf] at valid ⊢
      exact confined.guests otherKey oldVm old ipa low valid
    · rw [same, registered] at old
      cases old
      exact inside

variable {owner : Nat}

theorem map_guest_memory_confined {vmId size : Nat} (writable : Bool) (confined : Confined state)
    (fits : size + pageSize ≤ 2 ^ 64) :
    Confined (state.mapGuestMemory owner vmId ipa size writable).1 := by
  unfold VmState.mapGuestMemory
  split
  next => exact confined
  next addressable =>
    split
    next => exact confined
    next vm registered =>
      have noWrap : (size + pageSize - 1) / pageSize * pageSize < 2 ^ 64 := by
        have bound := Nat.div_mul_le_self (size + pageSize - 1) pageSize
        omega
      have carved := confined.carved _ vm registered
      have rooted : state.roots (owner, vmId) = some vm.stage2.rootPa := by
        unfold VmState.roots
        rw [registered]
        rfl
      generalize (size + pageSize - 1) / pageSize = pages at noWrap
      simp only
      rcases mapped : vm.stage2.map state.machine ipa vm.guestPa pages writable with
        ⟨machine, table, out⟩
      unfold Stage2Table.map at mapped
      split at mapped
      next error refused =>
        cases mapped
        exact confined_modify confined registered confined.sound rfl rfl rfl
          (fun _ _ _ => .inl rfl)
      next accepted =>
        have checked := map_check_ok noWrap accepted
        have ipaLow := checked.ipaLow
        have hpaLow := checked.hpaLow
        have ipaSmall : ipa < 2 ^ 64 := by
          omega
        have hpaSmall : vm.guestPa < 2 ^ 64 := by
          unfold ipaLimit at hpaLow
          omega
        obtain ⟨sound, extension, leaves⟩ := map_pages_spec (fun hpa => pageDesc hpa writable)
          pages confined.sound rooted ipaSmall hpaSmall mapped
        apply confined_modify confined registered sound extension.root extension.ramPa
          extension.ramPages
        intro otherKey other low
        rcases leaves otherKey other with kept | ⟨same, i, inside, _, written⟩
        · exact .inl kept
        · right
          rw [written]
          exact ⟨same, mapped_page_inside writable carved checked inside⟩

theorem confined_machine (confined : Confined state) (sound : Sound state.roots machine)
    (leaves : ∀ otherKey other,
      leaf state.roots machine otherKey other = leaf state.roots state.machine otherKey other ∨
        leaf state.roots machine otherKey other = 0) :
    Confined { state with machine := machine } := by
  refine ⟨sound, confined.numbered, confined.carved, ?_⟩
  intro otherKey otherVm known other low valid
  change isValid (leaf state.roots machine otherKey other) = true at valid
  change PointsInside otherVm other (leaf state.roots machine otherKey other)
  rcases leaves otherKey other with kept | cleared
  · rw [kept] at valid ⊢
    exact confined.guests otherKey otherVm known other low valid
  · rw [cleared] at valid
    exact absurd valid (by decide)

theorem unmap_guest_memory_confined (owner vmId ipa pages : Nat) (confined : Confined state) :
    Confined (state.unmapGuestMemory owner vmId ipa pages) := by
  unfold VmState.unmapGuestMemory
  split
  next => exact confined
  next vm registered =>
    have rooted : state.roots (owner, vmId) = some vm.stage2.rootPa := by
      unfold VmState.roots
      rw [registered]
      rfl
    obtain ⟨sound, leaves⟩ := unmap_spec pages ipa confined.sound rooted rfl
    exact confined_machine confined sound leaves

theorem window_page_inside {other : Nat} (inside : i < 16) (low : other < ipaLimit)
    (page : SamePage other (usize (0x08010000 + i * pageSize))) :
    PointsInside vm other (pageDescDevice (usize (0x08040000 + i * pageSize)) false) := by
  have size : pageSize = 4096 := rfl
  have ipaPlace : usize (0x08010000 + i * pageSize) = 0x08010000 + i * pageSize := by
    rw [size]
    exact Nat.mod_eq_of_lt (by omega)
  have hpaPlace : usize (0x08040000 + i * pageSize) = 0x08040000 + i * pageSize := by
    rw [size]
    exact Nat.mod_eq_of_lt (by omega)
  have aligned : pageSize ∣ 0x08040000 + i * pageSize :=
    Nat.dvd_add (by decide) (Nat.dvd_mul_left _ _)
  have windowLow : 0x08010000 + i * pageSize < ipaLimit := by
    unfold ipaLimit
    rw [size]
    omega
  rw [ipaPlace, same_page_iff low windowLow] at page
  left
  rw [hpaPlace, desc_pa_device _ false aligned (by rw [size]; omega)]
  unfold InGicWindow
  rw [size] at page ⊢
  omega

section Build

variable {Key : Type} [DecidableEq Key] {roots : Key → Option Nat} {key : Key}
variable {was middle after : Machine} {table new : Stage2Table}

def BuildConfined (roots : Key → Option Nat) (key : Key) (machine : Machine)
    (table : Stage2Table) (vm : Vm) : Prop :=
  ∀ ipa < ipaLimit, isValid (leaf (update roots key (some table.rootPa)) machine key ipa) = true →
    PointsInside vm ipa (leaf (update roots key (some table.rootPa)) machine key ipa)

theorem build_ram_spec {out : Except S2MapError Unit} (carved : Carved vm)
    (grown : Grown roots key was middle vm.stage2)
    (confined : BuildConfined roots key middle vm.stage2 vm)
    (run : vm.stage2.map middle 0x40000000 vm.guestPa vm.guestPages true = (after, new, out)) :
    Grown roots key was after new ∧ new.guestRamPa = vm.guestPa ∧
      new.guestRamPages = vm.guestPages ∧ BuildConfined roots key after new vm := by
  unfold Stage2Table.map at run
  split at run
  next =>
    cases run
    exact ⟨grown, carved.base, carved.pages, confined⟩
  next accepted =>
    have low := carved.low
    have checked := map_check_ok (by omega) accepted
    obtain ⟨grownEnd, ramPa, ramPages, leaves⟩ := grown_map (fun hpa => pageDesc hpa true) grown
      (by decide) (by omega) run
    refine ⟨grownEnd, ramPa.trans carved.base, ramPages.trans carved.pages, ?_⟩
    intro ipa ipaLow valid
    rcases leaves ipa with kept | ⟨i, inside, _, written⟩
    · rw [kept] at valid ⊢
      exact confined ipa ipaLow valid
    · rw [written]
      exact mapped_page_inside true carved checked inside

theorem build_window_spec {out : Except S2MapError Unit} (grown : Grown roots key was middle table)
    (confined : BuildConfined roots key middle table vm)
    (run : table.mapMmioPassthrough middle 0x08010000 0x08040000 16 false = (after, new, out)) :
    Grown roots key was after new ∧ new.guestRamPa = table.guestRamPa ∧
      new.guestRamPages = table.guestRamPages ∧ BuildConfined roots key after new vm := by
  have same : Grown roots key was middle table ∧ table.guestRamPa = table.guestRamPa ∧
      table.guestRamPages = table.guestRamPages ∧ BuildConfined roots key middle table vm :=
    ⟨grown, rfl, rfl, confined⟩
  unfold Stage2Table.mapMmioPassthrough at run
  split at run
  next =>
    cases run
    exact same
  next =>
    split at run
    next =>
      cases run
      exact same
    next =>
      split at run
      next =>
        cases run
        exact same
      next =>
        split at run
        next =>
          cases run
          exact same
        next =>
          obtain ⟨grownEnd, ramPa, ramPages, leaves⟩ :=
            grown_map (fun hpa => pageDescDevice hpa false) grown (by decide) (by decide) run
          refine ⟨grownEnd, ramPa, ramPages, ?_⟩
          intro ipa ipaLow valid
          rcases leaves ipa with kept | ⟨i, inside, page, written⟩
          · rw [kept] at valid ⊢
            exact confined ipa ipaLow valid
          · rw [written]
            exact window_page_inside inside ipaLow page

/-- The rest of `create_vm` after the RAM is carved: the finished table, or a
partial one dropped. -/
theorem build_table_spec {out : Except ViError Stage2Table} (carved : Carved vm)
    (same : vm.stage2 = { table with guestRamPa := vm.guestPa, guestRamPages := vm.guestPages })
    (grown : Grown roots key was middle vm.stage2)
    (confined : BuildConfined roots key middle vm.stage2 vm)
    (run : VmState.buildTable middle table vm.guestPa vm.guestPages = (after, out)) :
    (∃ unfinished dropped error, Grown roots key was dropped unfinished ∧
        after = unfinished.drop dropped ∧ out = .error error) ∨
      ∃ built, out = .ok built ∧ Grown roots key was after built ∧
        built.guestRamPa = vm.guestPa ∧ built.guestRamPages = vm.guestPages ∧
        BuildConfined roots key after built vm := by
  unfold VmState.buildTable at run
  simp only [← same] at run
  rcases mapped : vm.stage2.map middle 0x40000000 vm.guestPa vm.guestPages true with
    ⟨ramMachine, ramTable, ramResult⟩
  rw [mapped] at run
  obtain ⟨grownRam, ramPa, ramPages, confinedRam⟩ := build_ram_spec carved grown confined mapped
  cases ramResult with
  | error =>
    cases run
    exact .inl ⟨ramTable, ramMachine, _, grownRam, rfl, rfl⟩
  | ok done =>
    simp only at run
    rcases window : ramTable.mapMmioPassthrough ramMachine 0x08010000 0x08040000 16 false with
      ⟨gicMachine, gicTable, gicResult⟩
    rw [window] at run
    obtain ⟨grownGic, gicPa, gicPages, confinedGic⟩ := build_window_spec grownRam confinedRam window
    cases gicResult with
    | error =>
      cases run
      exact .inl ⟨gicTable, gicMachine, _, grownGic, rfl, rfl⟩
    | ok =>
      cases run
      exact .inr ⟨gicTable, rfl, grownGic, gicPa.trans ramPa, gicPages.trans ramPages, confinedGic⟩

end Build

theorem next_id_absent (owner : Nat) (confined : Confined state) :
    state.find (owner, state.nextId owner) = none := by
  cases registered : state.find (owner, state.nextId owner) with
  | none => rfl
  | some vm =>
    have numbered := confined.numbered _ vm registered
    unfold VmState.nextId at numbered
    simp only at numbered
    omega

theorem next_root_absent (owner : Nat) (confined : Confined state) :
    state.roots (owner, state.nextId owner) = none := by
  unfold VmState.roots
  rw [next_id_absent owner confined]
  rfl

theorem confined_insert {nextVmid : Nat} {vm : Vm} (confined : Confined state) (carved : Carved vm)
    (grown : Grown state.roots (owner, state.nextId owner) state.machine machine vm.stage2)
    (built : BuildConfined state.roots (owner, state.nextId owner) machine vm.stage2 vm) :
    Confined ({ state with machine := machine, nextVmid := nextVmid }.insert
      (owner, state.nextId owner) vm) := by
  have found := VmState.find_insert { state with machine := machine, nextVmid := nextVmid }
  have sameRoots : ({ state with machine := machine, nextVmid := nextVmid }.insert
      (owner, state.nextId owner) vm).roots =
        update state.roots (owner, state.nextId owner) (some vm.stage2.rootPa) := by
    funext other
    unfold VmState.roots
    rw [found]
    by_cases same : other = (owner, state.nextId owner)
    · rw [if_pos same, same, update_self]
      rfl
    · rw [if_neg same, update_of_ne same]
      rfl
  have cases_ : ∀ {other otherVm}, ({ state with machine := machine, nextVmid := nextVmid }.insert
        (owner, state.nextId owner) vm).find other = some otherVm →
      (other = (owner, state.nextId owner) ∧ otherVm = vm) ∨
        (other ≠ (owner, state.nextId owner) ∧ state.find other = some otherVm) := by
    intro other otherVm known
    rw [found] at known
    split at known
    next same => exact .inl ⟨same, (some.inj known).symm⟩
    next ne => exact .inr ⟨ne, known⟩
  refine ⟨?_, ?_, ?_, ?_⟩
  · rw [sameRoots]
    exact grown.sound
  · intro other otherVm known
    unfold VmState.insert
    simp only [filter_cons]
    rcases cases_ known with ⟨same, _⟩ | ⟨_, old⟩
    · rw [same]
      simp [VmState.nextId]
    · have numbered := confined.numbered other otherVm old
      split
      next =>
        rw [length_cons]
        omega
      next => exact numbered
  · intro other otherVm known
    rcases cases_ known with ⟨_, same⟩ | ⟨_, old⟩
    · rw [same]
      exact carved
    · exact confined.carved other otherVm old
  · intro other otherVm known
    unfold GuestConfined
    rw [sameRoots]
    intro ipa low valid
    rcases cases_ known with ⟨sameKey, sameVm⟩ | ⟨ne, old⟩
    · rw [sameKey] at valid ⊢
      rw [sameVm]
      exact built ipa low valid
    · have kept := grown.leaves other ipa ne
      have sameLeaf : leaf (update state.roots (owner, state.nextId owner)
          (some vm.stage2.rootPa)) ({ state with machine := machine, nextVmid := nextVmid }.insert
            (owner, state.nextId owner) vm).machine other ipa =
          leaf state.roots state.machine other ipa := kept
      rw [sameLeaf] at valid ⊢
      exact confined.guests other otherVm old ipa low valid

def carvedVm (state : VmState) (table : Stage2Table) (guestPages guestPa : Nat) : Vm where
  stage2 := { table with guestRamPa := guestPa, guestRamPages := guestPages }
  guestPa := guestPa
  guestPages := guestPages
  vmid := state.nextVmid

variable {guestPages : Nat}

theorem carved_vm_carved {roots : VmKey → Option Nat} {pool : FrameAllocator} {start : Nat}
    (pos : 1 ≤ guestPages) (sound : Sound roots machine)
    (takes : machine.allocator.TakesRun pool start guestPages) :
    Carved (carvedVm state table guestPages (machine.allocator.frameIndexToAddr start)) := by
  have room := takes.inside
  have extent := sound.placed.extent
  have low := sound.low
  have inside : start < machine.allocator.totalFrames := by omega
  have addr := sound.placed.frame_addr inside
  refine ⟨rfl, rfl, pos, ?_, ?_⟩
  · rw [addr]
    exact Nat.dvd_add sound.placed.aligned (Nat.dvd_mul_left _ _)
  · change machine.allocator.frameIndexToAddr start + guestPages * pageSize ≤ 2 ^ 48
    rw [addr]
    unfold pageSize at extent ⊢
    omega

theorem register_confined {middle : Machine} {guestPa : Nat} (confined : Confined state)
    (carved : Carved (carvedVm state table guestPages guestPa))
    (grown : Grown state.roots (owner, state.nextId owner) state.machine middle
      (carvedVm state table guestPages guestPa).stage2)
    (unmapped : BuildConfined state.roots (owner, state.nextId owner) middle
      (carvedVm state table guestPages guestPa).stage2 (carvedVm state table guestPages guestPa)) :
    Confined (state.register owner guestPa guestPages
      (VmState.buildTable middle table guestPa guestPages)).1 := by
  have absent := next_root_absent owner confined
  rcases building : VmState.buildTable middle table guestPa guestPages with ⟨machine, outcome⟩
  rcases build_table_spec carved rfl grown unmapped building with
    ⟨unfinished, dropped, error, grownDropped, same, isError⟩ |
      ⟨built, isOk, grownBuilt, ramPa, ramPages, confinedBuilt⟩
  · subst same isError
    obtain ⟨sound, leaves⟩ := grown_drop grownDropped confined.sound absent
    exact confined_machine confined sound fun otherKey other => .inl (leaves otherKey other)
  · subst isOk
    have builtCarved : Carved
        { stage2 := built, guestPa := guestPa, guestPages := guestPages, vmid := state.nextVmid } :=
      ⟨ramPa, ramPages, carved.nonempty, carved.aligned, carved.low⟩
    exact confined_insert confined builtCarved grownBuilt confinedBuilt

theorem create_vm_confined {after : VmState} {out : Except ViError Nat}
    (confined : Confined state) (pos : 1 ≤ guestPages)
    (run : state.createVm owner guestPages = some (after, out)) : Confined after := by
  unfold VmState.createVm at run
  split at run
  next => cases run
  next machine created =>
    cases run
    rcases new_spec (owner, state.nextId owner) confined.sound created with
      ⟨same, _⟩ | ⟨table, isSome, _⟩
    · rw [same]
      exact confined
    · cases isSome
  next machine table created =>
    rcases new_spec (owner, state.nextId owner) confined.sound created with
      ⟨_, isNone⟩ | ⟨table', isSome, grown, empty⟩
    · cases isNone
    · cases isSome
      obtain ⟨allocator, _, carving, outcome⟩ :=
        FrameAllocator.allocate_guest_ram_spec grown.sound.placed guestPages
      rw [carving] at run
      rcases outcome with ⟨unchanged, isNone⟩ | ⟨start, takes, isSome⟩
      · subst unchanged isNone
        cases run
        obtain ⟨sound, leaves⟩ := grown_drop grown confined.sound (next_root_absent owner confined)
        exact confined_machine confined sound fun otherKey other => .inl (leaves otherKey other)
      · subst isSome
        have registered := congrArg Prod.fst (some.inj run)
        change _ = after at registered
        rw [← registered]
        apply register_confined confined (carved_vm_carved pos grown.sound takes)
          (grown_carve grown takes)
        intro ipa _ valid
        have zero : leaf (update state.roots (owner, state.nextId owner)
            (some table.rootPa)) { machine with allocator := allocator }
              (owner, state.nextId owner) ipa = 0 := empty ipa
        change isValid (leaf (update state.roots (owner, state.nextId owner)
          (some table.rootPa)) { machine with allocator := allocator }
            (owner, state.nextId owner) ipa) = true at valid
        rw [zero] at valid
        exact absurd valid (by decide)

end Calls

/-- The guest has RAM, and the size rounds up to whole pages without wrapping. -/
def CallFits (_ : VmState) : VmCall → Prop
  | .createVm _ guestPages => 1 ≤ guestPages
  | .mapGuestMemory _ _ _ size _ => size + pageSize ≤ 2 ^ 64
  | .unmap _ _ _ _ => True

theorem step_confined {was after : VmState} {call : VmCall} (confined : Confined was)
    (fits : CallFits was call) (ran : was.step call = some after) : Confined after := by
  cases call with
  | createVm =>
    obtain ⟨outcome, run, same⟩ := map_eq_some_iff.mp ran
    cases same
    exact create_vm_confined confined fits run
  | mapGuestMemory _ _ _ _ writable =>
    cases ran
    exact map_guest_memory_confined writable confined fits
  | unmap owner vmId ipa pages =>
    cases ran
    exact unmap_guest_memory_confined owner vmId ipa pages confined

/-- No VM yet, on any machine whose RAM descriptors can address. -/
structure NoVms (state : VmState) : Prop where
  empty : state.vms = []
  placed : state.machine.allocator.Placed
  low : state.machine.allocator.memoryEnd ≤ 2 ^ 48

theorem no_vms_confined {state : VmState} (noVms : NoVms state) : Confined state := by
  have absent : ∀ key, state.find key = none := by
    intro key
    unfold VmState.find
    rw [noVms.empty]
    rfl
  have unreached : ∀ key path, reach s2Format state.machine.memory state.roots key path = none := by
    intro key path
    unfold reach VmState.roots
    rw [absent]
    rfl
  refine ⟨⟨noVms.placed, noVms.low, ⟨?_, ?_⟩, ?_⟩, ?_, ?_, ?_⟩
  · intro leftKey left _ _ _ _ _ _ atLeft
    rw [unreached] at atLeft
    cases atLeft
  · intro key path _ _ _ _ found
    rw [unreached] at found
    cases found
  · intro key path _ _ found
    rw [unreached] at found
    cases found
  all_goals
    intro key vm known
    rw [absent] at known
    cases known

/-- Over every run of VM calls that ask for at least one page of RAM and for
sizes that do not wrap, every valid leaf of a VM points into its RAM or is the
GIC window's. -/
theorem guests_stay_in_their_ram {start state : VmState} (noVms : NoVms start)
    (reached : Reaches VmState.step CallFits start state) {key : VmKey} {vm : Vm}
    (registered : state.find key = some vm) : GuestConfined state key vm := by
  have confined : Confined state :=
    reached.invariant (fun _ _ _ holds fits stepped => step_confined holds fits stepped)
      (no_vms_confined noVms)
  exact confined.guests key vm registered

/-- A board with nine frames of RAM and no VM. -/
def boardMap : List MemoryMapEntry := [{ base := 0x41000000, length := 0x9000, ty := .usable }]

def board : VmState where
  machine := { allocator := .newFromMap boardMap, memory := fun _ => 0 }
  vms := []
  nextVmid := 1

theorem board_no_vms : NoVms board where
  empty := rfl
  placed := FrameAllocator.new_from_map_placed (by decide +kernel)
  low := by decide +kernel

def oneGuest : List VmCall :=
  [.createVm 5 1, .mapGuestMemory 5 1 0x50000000 4096 true]

theorem one_guest_stays_in_its_ram :
    ∃ state vm, runEvents VmState.step board oneGuest = some state ∧ state.find (5, 1) = some vm ∧
      isValid (leaf state.roots state.machine (5, 1) 0x50000000) = true ∧
      GuestConfined state (5, 1) vm := by
  have executed : runEvents VmState.step board oneGuest =
      some (finalState VmState.step board oneGuest) := final_state_eq (by decide +kernel)
  have fits : AllMeet VmState.step CallFits board oneGuest := by
    refine ⟨(by decide : 1 ≤ 1), ?_⟩
    split
    next => trivial
    next next _ =>
      refine ⟨(by decide : 4096 + pageSize ≤ 2 ^ 64), ?_⟩
      split <;> trivial
  have known : ((finalState VmState.step board oneGuest).find (5, 1)).isSome = true := by
    decide +kernel
  obtain ⟨vm, registered⟩ := isSome_iff_exists.mp known
  refine ⟨_, vm, executed, registered, by decide +kernel, ?_⟩
  exact guests_stay_in_their_ram board_no_vms (reaches_of_run executed fits) registered

/-- A guest created with no pages is carved at the first frame, the allocator's
bitmap, and its table checks nothing: one more call maps that frame writable.
With one page of RAM, the checks accept `2 ^ 52` pages, whose bytes wrap to zero. -/
theorem empty_guest_maps_the_frame_bitmap : (∃ state vm,
      runEvents VmState.step board
        [.createVm 5 0, .mapGuestMemory 5 1 0x40000000 4096 true] = some state ∧
      state.find (5, 1) = some vm ∧ vm.guestPages = 0 ∧
      leaf state.roots state.machine (5, 1) 0x40000000 =
        pageDesc state.machine.allocator.memoryStart true ∧
      ¬ GuestConfined state (5, 1) vm) ∧
    Stage2Table.mapCheck
      { rootPa := 0x41001000, subFrames := [], guestRamPa := 0x41003000, guestRamPages := 1 }
      0 0x41003000 (2 ^ 52) = .ok () := by
  refine ⟨?_, by decide +kernel⟩
  have executed : runEvents VmState.step board
      [.createVm 5 0, .mapGuestMemory 5 1 0x40000000 4096 true] =
      some (finalState VmState.step board
        [.createVm 5 0, .mapGuestMemory 5 1 0x40000000 4096 true]) :=
    final_state_eq (by decide +kernel)
  have registered : ((finalState VmState.step board
      [.createVm 5 0, .mapGuestMemory 5 1 0x40000000 4096 true]).find (5, 1)).map
        (fun vm => (vm.guestPa, vm.guestPages)) = some (0x41000000, 0) := by decide +kernel
  have mapped : leaf (finalState VmState.step board
      [.createVm 5 0, .mapGuestMemory 5 1 0x40000000 4096 true]).roots
      (finalState VmState.step board
        [.createVm 5 0, .mapGuestMemory 5 1 0x40000000 4096 true]).machine (5, 1) 0x40000000 =
        pageDesc 0x41000000 true := by decide +kernel
  have begins : (finalState VmState.step board
      [.createVm 5 0, .mapGuestMemory 5 1 0x40000000 4096 true]).machine.allocator.memoryStart =
        0x41000000 := by decide +kernel
  obtain ⟨vm, found, carved⟩ := map_eq_some_iff.mp registered
  obtain ⟨base, none⟩ := Prod.mk.inj carved
  refine ⟨_, vm, executed, found, none, by rw [mapped, begins], ?_⟩
  intro confined
  have points := confined 0x40000000 (by decide) (by rw [mapped]; decide)
  rw [mapped] at points
  unfold PointsInside at points
  rw [base, none] at points
  revert points
  unfold InGicWindow
  decide +kernel

end ViCell.Hypervisor

import ViCell.Lib.Runs
import ViCell.Lib.TreeMaps
import ViCell.Cells.Tables

/-!
# Who holds which device region

`RequestMmio` calls and releases in any order. A request may only be answered
with a region inside a window of a device class that the caller declared, and
the regions of the registry never overlap. The registry is keyed by the base
address, so an empty region shares its key with a region that starts there.
-/

namespace ViCell.Cells

open Lib TreeMaps

/-- The registry, and the device classes each task may still ask for. -/
structure MmioState where
  registry : MmioRegistry
  devices : Nat → BitVec 8

inductive MmioEvent where
  | request (caller base length : Nat)
  | release (cell : Nat)
  | revoke (task : Nat) (mask : BitVec 8)
  deriving DecidableEq, Repr

namespace MmioState

variable (windows : List MmioWindow)

def boot (declared : Nat → BitVec 8) : MmioState := { registry := ∅, devices := declared }

def request (state : MmioState) (caller base length : Nat) : MmioState × Except MmioError Unit :=
  if state.devices caller = 0 then (state, .error .permissionDenied)
  else
    let requested :=
      requestMmio windows state.registry caller base length (state.devices caller).toNat
    ({ state with registry := requested.1 }, requested.2)

def revoke (state : MmioState) (task : Nat) (mask : BitVec 8) : MmioState :=
  { state with
    devices := Function.update state.devices task (state.devices task &&& ~~~mask) }

def step (state : MmioState) : MmioEvent → Option MmioState
  | .request caller base length => some (state.request windows caller base length).1
  | .release cell => some { state with registry := releaseFor state.registry cell }
  | .revoke task mask => some (state.revoke task mask)

/-- The range lies in a window of one of these device classes. -/
def InWindow (devices : BitVec 8) (base length : Nat) : Prop :=
  ∃ window ∈ windows, window.base ≤ base ∧ base + length ≤ window.base + window.length ∧
    window.deviceClass &&& devices.toNat ≠ 0

def Overlaps (registry : MmioRegistry) (base length : Nat) : Prop :=
  ∃ (other : Nat) (region : Nat × Nat), registry[other]? = some region ∧
    ¬ (base + length ≤ other ∨ other + region.1 ≤ base)

/-- What `request_mmio` asks for before it records a region. -/
structure Admitted (state : MmioState) (caller base length : Nat) : Prop where
  fits : base + length < 2 ^ 64
  window : InWindow windows (state.devices caller) base length
  free : ¬ Overlaps state.registry base length

structure Sound (declared : Nat → BitVec 8) (state : MmioState) : Prop where
  /-- What a task may ask for is among what it declared. -/
  devices : ∀ task, state.devices task &&& declared task = state.devices task
  apart : ∀ (first second : Nat) (left right : Nat × Nat),
    state.registry[first]? = some left → state.registry[second]? = some right →
      first ≠ second → first + left.1 ≤ second ∨ second + right.1 ≤ first
  windows : ∀ (base : Nat) (region : Nat × Nat), state.registry[base]? = some region →
    InWindow windows (declared region.2) base region.1

variable {windows : List MmioWindow} {declared : Nat → BitVec 8} {state : MmioState}

theorem overlap_test (registry : MmioRegistry) (base length : Nat) :
    registry.toList.any (fun region =>
        !(base + length ≤ region.1 || region.1 + region.2.1 ≤ base)) = true ↔
      Overlaps registry base length := by
  simp only [List.any_eq_true, Prod.exists, mem_entries_iff, Overlaps]
  constructor
  all_goals
    rintro ⟨other, size, owner, found, test⟩
    exact ⟨other, size, owner, found, by simpa using test⟩

theorem window_test (devices : BitVec 8) (base length : Nat) :
    windows.any (fun window =>
        window.base ≤ base && base + length ≤ window.base + window.length &&
          window.deviceClass &&& devices.toNat != 0) = true ↔
      InWindow windows devices base length := by
  simp only [List.any_eq_true, Bool.and_eq_true, decide_eq_true_eq, bne_iff_ne, InWindow, and_assoc]

theorem request_eq (windows : List MmioWindow) (state : MmioState) (caller base length : Nat) :
    (Admitted windows state caller base length ∧
      (state.request windows caller base length).1 =
        { state with registry := state.registry.insert base (length, caller) }) ∨
    (¬ Admitted windows state caller base length ∧
      (state.request windows caller base length).1 = state) := by
  unfold request
  split
  next none =>
    right
    refine ⟨?_, rfl⟩
    rintro ⟨_, ⟨window, _, _, _, declared⟩, _⟩
    rw [none] at declared
    exact declared (Nat.and_zero _)
  next =>
    unfold requestMmio
    split
    next overflow =>
      right
      exact ⟨fun admitted => absurd admitted.fits (Nat.not_lt.mpr overflow), rfl⟩
    next fits =>
      split
      next window =>
        split
        next overlap =>
          right
          exact ⟨fun admitted => admitted.free ((overlap_test _ _ _).mp overlap), rfl⟩
        next apart =>
          left
          refine ⟨⟨Nat.lt_of_not_le fits, (window_test _ _ _).mp window, ?_⟩, rfl⟩
          exact fun overlap => apart ((overlap_test _ _ _).mpr overlap)
      next outside =>
        right
        exact ⟨fun admitted => outside ((window_test _ _ _).mpr admitted.window), rfl⟩

theorem in_window_declared {devices allowed : BitVec 8} {base length : Nat}
    (within : devices &&& allowed = devices) (window : InWindow windows devices base length) :
    InWindow windows allowed base length := by
  obtain ⟨window, mem, from_, upTo, shared⟩ := window
  refine ⟨window, mem, from_, upTo, ?_⟩
  intro none
  apply shared
  rw [← within, BitVec.toNat_and, Nat.and_comm devices.toNat, ← Nat.and_assoc, none, Nat.zero_and]

theorem sound_boot : (boot declared).Sound windows declared where
  devices := fun task => BitVec.and_self
  apart := by
    intro first second left right found
    simp [boot] at found
  windows := by
    intro base region found
    simp [boot] at found

theorem Sound.recorded (sound : state.Sound windows declared) {caller base length : Nat}
    (admitted : Admitted windows state caller base length) :
    Sound windows declared
      { state with registry := state.registry.insert base (length, caller) } := by
  have clear : ∀ (other : Nat) (region : Nat × Nat), state.registry[other]? = some region →
      base + length ≤ other ∨ other + region.1 ≤ base := by
    intro other region found
    by_contra overlap
    exact admitted.free ⟨other, region, found, overlap⟩
  refine ⟨sound.devices, ?_, ?_⟩
  · intro first second left right
    rw [get_insert_eq_some, get_insert_eq_some]
    rintro (⟨isFirst, isLeft⟩ | ⟨_, leftKept⟩) (⟨isSecond, isRight⟩ | ⟨_, rightKept⟩) ne
    · exact absurd (isFirst.trans isSecond.symm) ne
    · rw [isFirst, ← isLeft]
      exact clear second right rightKept
    · rw [isSecond, ← isRight]
      exact (clear first left leftKept).symm
    · exact sound.apart first second left right leftKept rightKept ne
  · intro other region
    rw [get_insert_eq_some]
    rintro (⟨isOther, isRegion⟩ | ⟨_, kept⟩)
    · rw [isOther, ← isRegion]
      exact in_window_declared (sound.devices caller) admitted.window
    · exact sound.windows other region kept

theorem Sound.step {event : MmioEvent} {after : MmioState}
    (sound : state.Sound windows declared) (ran : state.step windows event = some after) :
    after.Sound windows declared := by
  cases event with
  | request caller base length =>
    cases ran
    rcases request_eq windows state caller base length with
      ⟨admitted, recorded⟩ | ⟨_, same⟩
    · rw [recorded]
      exact sound.recorded admitted
    · rw [same]
      exact sound
  | release =>
    cases ran
    refine ⟨sound.devices, ?_, ?_⟩
    · intro first second left right leftFound rightFound
      exact sound.apart first second left right (get_filter_eq_some.mp leftFound).1
        (get_filter_eq_some.mp rightFound).1
    · intro base region found
      exact sound.windows base region (get_filter_eq_some.mp found).1
  | revoke task mask =>
    cases ran
    refine ⟨?_, sound.apart, sound.windows⟩
    intro other
    by_cases same : other = task
    · subst same
      simp only [revoke, Function.update_self]
      rw [BitVec.and_assoc, BitVec.and_comm (~~~mask), ← BitVec.and_assoc, sound.devices]
    · simp only [revoke, Function.update_of_ne same]
      exact sound.devices other

def KeepsOthers (before after : MmioState) (caller : Nat) : Prop :=
  ∀ (base : Nat) (region : Nat × Nat), before.registry[base]? = some region →
    region.2 ≠ caller → after.registry[base]? = some region

theorem keeps_others_iff (caller base length : Nat) :
    KeepsOthers state (state.request windows caller base length).1 caller ↔
      (∀ region, state.registry[base]? = some region → region.2 = caller) ∨
        ¬ Admitted windows state caller base length := by
  rcases request_eq windows state caller base length with
    ⟨admitted, recorded⟩ | ⟨refused, same⟩
  · rw [recorded]
    constructor
    · intro keeps
      left
      intro region found
      by_contra other
      have still := keeps base region found other
      rcases get_insert_eq_some.mp still with ⟨_, isRegion⟩ | ⟨ne, _⟩
      · rw [← isRegion] at other
        exact other rfl
      · exact ne rfl
    · rintro (own | refused) place region found other
      · apply get_insert_eq_some.mpr
        right
        refine ⟨?_, found⟩
        intro isBase
        rw [isBase] at found
        exact other (own region found)
      · exact absurd admitted refused
  · rw [same]
    constructor
    · exact fun _ => .inr refused
    · exact fun _ place region found _ => found

/-- In every run the recorded regions are apart and lie in windows of device
classes their owners declared; and a request leaves the records of all other
owners in place if and only if none of them has its base, or it is refused. -/
theorem mmio_regions_exclusive_iff {events : List MmioEvent}
    (executed : runEvents (step windows) (boot declared) events = some state) :
    (∀ (first second : Nat) (left right : Nat × Nat),
      state.registry[first]? = some left → state.registry[second]? = some right →
        first ≠ second → first + left.1 ≤ second ∨ second + right.1 ≤ first) ∧
      (∀ (base : Nat) (region : Nat × Nat), state.registry[base]? = some region →
        InWindow windows (declared region.2) base region.1) ∧
      ∀ caller base length, KeepsOthers state (state.request windows caller base length).1 caller ↔
        (∀ region, state.registry[base]? = some region → region.2 = caller) ∨
          ¬ Admitted windows state caller base length := by
  have sound : state.Sound windows declared := run_invariant (Sound windows declared)
    (fun _ _ _ held stepped => held.step stepped) executed sound_boot
  exact ⟨sound.apart, sound.windows, keeps_others_iff⟩

/-- Two drivers and the other windows of the aarch64 board. -/
theorem second_driver_keeps_first :
    ∃ state after, runEvents (step aarch64Windows) (boot fun task => if task = 1 then 1 else 2)
        [.request 1 0x09000000 0x1000] = some state ∧
      (state.request aarch64Windows 2 0x09030000 0x1000).1 = after ∧
      after.registry[0x09030000]? = some (0x1000, 2) ∧ KeepsOthers state after 2 := by
  have evaluated : (runEvents (step aarch64Windows) (boot fun task => if task = 1 then 1 else 2)
      [.request 1 0x09000000 0x1000]).map (fun state =>
        (state.registry[0x09030000]?,
          (state.request aarch64Windows 2 0x09030000 0x1000).1.registry[0x09030000]?)) =
      some (none, some (0x1000, 2)) := by decide +kernel
  obtain ⟨state, executed, facts⟩ := Option.map_eq_some_iff.mp evaluated
  simp only [Prod.mk.injEq] at facts
  refine ⟨state, _, executed, rfl, facts.2, ?_⟩
  apply ((mmio_regions_exclusive_iff executed).2.2 2 0x09030000 0x1000).mpr
  left
  intro region found
  rw [facts.1] at found
  cases found

/-- An empty request at the base of a region takes over its record, and the region
can then be given away a second time. -/
theorem empty_request_replaces_owner :
    ∃ state after, runEvents (step riscvWindows) (boot fun _ => 2)
        [.request 1 0x10012000 0x1000] = some state ∧
      state.registry[0x10012000]? = some (0x1000, 1) ∧
      state.step riscvWindows (.request 2 0x10012000 0) = some after ∧
      after.registry[0x10012000]? = some (0, 2) ∧ ¬ KeepsOthers state after 2 ∧
      (after.request riscvWindows 3 0x10012000 0x1000).1.registry[0x10012000]? =
        some (0x1000, 3) := by
  have evaluated : (runEvents (step riscvWindows) (boot fun _ => 2)
      [.request 1 0x10012000 0x1000]).bind (fun state =>
        (state.step riscvWindows (.request 2 0x10012000 0)).map (fun after =>
          (state.registry[0x10012000]?, after.registry[0x10012000]?,
            (after.request riscvWindows 3 0x10012000 0x1000).1.registry[0x10012000]?))) =
      some (some (0x1000, 1), some (0, 2), some (0x1000, 3)) := by decide +kernel
  obtain ⟨state, executed, rest⟩ := Option.bind_eq_some_iff.mp evaluated
  obtain ⟨after, stepped, facts⟩ := Option.map_eq_some_iff.mp rest
  simp only [Prod.mk.injEq] at facts
  refine ⟨state, after, executed, facts.1, stepped, facts.2.1, ?_, facts.2.2⟩
  intro keeps
  have still := keeps 0x10012000 (0x1000, 1) facts.1 (by decide)
  rw [facts.2.1] at still
  cases still

end MmioState

end ViCell.Cells

import ViCell.Ostd.AppEvents

/-!
# Modifier keys

The input service keeps one flag per modifier and changes it with single key events.
Beside it stand the physical keys: which are down, and how often each was pressed.
-/

namespace ViCell.Services

open Lib Ostd Function BitVec

abbrev Modifiers := BitVec 8

namespace Modifiers

def shift : Modifiers := 0b00000001
def ctrl : Modifiers := 0b00000010
def alt : Modifiers := 0b00000100
def metaKey : Modifiers := 0b00001000
def capsLock : Modifiers := 0b00010000
def numLock : Modifiers := 0b00100000
def scrollLock : Modifiers := 0b01000000

def contains (mods other : Modifiers) : Bool := mods &&& other == other
def set (mods other : Modifiers) : Modifiers := mods ||| other
def clear (mods other : Modifiers) : Modifiers := mods &&& ~~~other
def toggle (mods other : Modifiers) : Modifiers := mods ^^^ other

def transient : List Modifiers := [shift, ctrl, alt, metaKey]
def locks : List Modifiers := [capsLock, numLock, scrollLock]

def flags : List Modifiers := transient ++ locks

theorem lock_not_transient : ∀ flag ∈ locks, flag ∉ transient := by
  decide

theorem flag_bit : ∀ flag ∈ flags, ∃ bit : Fin 8, flag = twoPow 8 bit := by
  decide

theorem contains_bit (mods : Modifiers) (bit : Fin 8) :
    contains mods (twoPow 8 bit) = mods.getLsbD bit := by
  have apart : ∀ bit : Fin 8, twoPow 8 bit ≠ 0 := by decide
  unfold contains
  rw [and_twoPow]
  cases mods.getLsbD bit with
  | true => simp
  | false => simpa using (apart bit).symm

theorem contains_changed {flag other : Modifiers} (isFlag : flag ∈ flags)
    (isOther : other ∈ flags) (mods : Modifiers) :
    contains (set mods other) flag = (decide (other = flag) || contains mods flag) ∧
    contains (clear mods other) flag = (decide (other ≠ flag) && contains mods flag) ∧
    contains (toggle mods other) flag = (decide (other = flag) ^^ contains mods flag) := by
  obtain ⟨bit, rfl⟩ := flag_bit flag isFlag
  obtain ⟨place, rfl⟩ := flag_bit other isOther
  have alike : ∀ bit place : Fin 8, (twoPow 8 place).getLsbD bit =
      decide (twoPow 8 place.1 = twoPow 8 bit.1) := by decide
  have inside := bit.isLt
  simp only [contains_bit, set, clear, toggle, getLsbD_or, getLsbD_and,
    getLsbD_not, getLsbD_xor, alike, inside, decide_not]
  refine ⟨Bool.or_comm _ _, Bool.and_comm _ _, Bool.xor_comm _ _⟩

end Modifiers

open Modifiers

def modifierForScancode : Nat → Option Modifiers
  | 0x2A | 0x36 => some shift
  | 0x1D | 0x61 => some ctrl
  | 0x38 | 0x64 => some alt
  | 0x7D | 0x7E => some metaKey
  | _ => none

def toggleModifierForScancode : Nat → Option Modifiers
  | 0x3A => some capsLock
  | 0x45 => some numLock
  | 0x46 => some scrollLock
  | _ => none

/-- `ModifierState::update`; the answer says that no character follows. -/
def updateModifiers (mods : Modifiers) (scancode : Nat) (state : KeyState) : Modifiers × Bool :=
  match toggleModifierForScancode scancode with
  | some flag => (if state = .pressed then toggle mods flag else mods, true)
  | none =>
    match modifierForScancode scancode with
    | some flag => (if state = .released then clear mods flag else set mods flag, true)
    | none => (mods, false)

structure Keyboard where
  mods : Modifiers
  held : Nat → Bool
  presses : Nat → Nat

namespace Keyboard

def idle : Keyboard := ⟨0, fun _ => false, fun _ => 0⟩

def key (board : Keyboard) (event : Nat × KeyState) : Keyboard where
  mods := (updateModifiers board.mods event.1 event.2).1
  held := update board.held event.1 (event.2 ≠ .released)
  presses := if event.2 = .pressed then update board.presses event.1 (board.presses event.1 + 1)
    else board.presses

def FlagsHeld (board : Keyboard) : Prop :=
  ∀ flag ∈ transient, contains board.mods flag = true ↔
    ∃ code, modifierForScancode code = some flag ∧ board.held code = true

def LocksCounted (board : Keyboard) : Prop :=
  ∀ code flag, toggleModifierForScancode code = some flag →
    (contains board.mods flag = true ↔ board.presses code % 2 = 1)

/-- A modifier key goes up only while the other key of its modifier is up. -/
def ReleasedAlone (board : Keyboard) (event : Nat × KeyState) : Prop :=
  event.2 = .released → ∀ flag other, modifierForScancode event.1 = some flag →
    modifierForScancode other = some flag → other ≠ event.1 → board.held other = false

theorem modifier_flag {code : Nat} {flag : Modifiers} (found : modifierForScancode code = some flag) :
    flag ∈ transient ∧ toggleModifierForScancode code = none := by
  unfold modifierForScancode at found
  split at found <;> cases found <;> decide

theorem toggle_lock {code : Nat} {flag : Modifiers}
    (found : toggleModifierForScancode code = some flag) :
    flag ∈ locks ∧ ∀ other, toggleModifierForScancode other = some flag → other = code := by
  unfold toggleModifierForScancode at *
  split at found <;> cases found
  all_goals
    refine ⟨by decide, fun other same => ?_⟩
    split at same <;> first | rfl | cases same

theorem contains_updated {flag : Modifiers} (isFlag : flag ∈ flags) (mods : Modifiers) (code : Nat)
    (state : KeyState) : contains (updateModifiers mods code state).1 flag =
      if toggleModifierForScancode code = some flag then
        decide (state = .pressed) ^^ contains mods flag
      else if modifierForScancode code = some flag then decide (state ≠ .released)
      else contains mods flag := by
  unfold updateModifiers
  cases toggles : toggleModifierForScancode code with
  | some lock =>
    have changed := contains_changed isFlag (List.mem_append_right _ (toggle_lock toggles).1) mods
    have notHeld : modifierForScancode code ≠ some flag := by
      intro found
      rw [(modifier_flag found).2] at toggles
      cases toggles
    dsimp only
    by_cases down : state = .pressed
    · rw [if_pos down, changed.2.2]
      by_cases same : lock = flag <;> simp [down, notHeld, same]
    · simp [down, notHeld]
  | none =>
    cases modifies : modifierForScancode code with
    | some other =>
      have changed := contains_changed isFlag (List.mem_append_left _ (modifier_flag modifies).1) mods
      dsimp only
      by_cases up : state = .released
      · rw [if_pos up, changed.2.1]
        by_cases same : other = flag <;> simp [up]
      · rw [if_neg up, changed.1]
        by_cases same : other = flag <;> simp [up]
    | none => simp

variable {board : Keyboard}

theorem locks_key (counted : board.LocksCounted) (event : Nat × KeyState) :
    (board.key event).LocksCounted := by
  intro code flag isLock
  obtain ⟨isFlag, single⟩ := toggle_lock isLock
  have was := counted code flag isLock
  have notHeld : modifierForScancode event.1 ≠ some flag :=
    fun found => lock_not_transient flag isFlag (modifier_flag found).1
  unfold key
  dsimp only
  rw [contains_updated (List.mem_append_right _ isFlag), if_neg notHeld]
  by_cases same : event.1 = code
  · rw [same, if_pos isLock]
    by_cases down : event.2 = .pressed
    · cases set : contains board.mods flag <;> simp [down, set] at was ⊢ <;> omega
    · simpa [down] using was
  · rw [if_neg (fun found => same (single _ found))]
    split
    · rw [update_of_ne (Ne.symm same)]
      exact was
    · exact was

theorem flags_key (before : board.FlagsHeld) (event : Nat × KeyState) :
    (board.key event).FlagsHeld ↔ board.ReleasedAlone event := by
  have updated : ∀ flag ∈ transient, contains (board.key event).mods flag =
      if modifierForScancode event.1 = some flag then decide (event.2 ≠ .released)
      else contains board.mods flag := by
    intro flag isFlag
    have notLock : toggleModifierForScancode event.1 ≠ some flag :=
      fun found => lock_not_transient flag (toggle_lock found).1 isFlag
    exact (contains_updated (List.mem_append_left _ isFlag) _ _ _).trans (if_neg notLock)
  constructor
  · intro after released flag other modifies alike ne
    have isFlag := (modifier_flag modifies).1
    by_contra held
    have set := (after flag isFlag).mpr
      ⟨other, alike, (update_of_ne ne _ _).trans (by simpa using held)⟩
    rw [updated flag isFlag, if_pos modifies] at set
    exact of_decide_eq_true set released
  · intro alone flag isFlag
    rw [updated flag isFlag]
    split
    · next modifies =>
      constructor
      · intro down
        exact ⟨event.1, modifies, (update_self ..).trans down⟩
      · rintro ⟨own, alike, held⟩
        by_contra up
        have ne : own ≠ event.1 := by
          rintro rfl
          exact up ((update_self ..).symm.trans held)
        have still := alone (by simpa using up) flag own modifies alike ne
        have down : board.held own = true := (update_of_ne ne ..).symm.trans held
        rw [still] at down
        cases down
    · next other =>
      rw [before flag isFlag]
      refine exists_congr (fun own => and_congr_right (fun alike => ?_))
      have ne : own ≠ event.1 := fun same => other (same ▸ alike)
      rw [show (board.key event).held own = _ from update_of_ne ne ..]

/-- The flags tell which modifiers are held after every event of a run precisely when
no modifier key goes up while the other one of its modifier stays down. -/
theorem flags_right_iff (events : List (Nat × KeyState)) :
    (∀ ran, ran <+: events →
      (ran.foldl key idle).FlagsHeld ∧ (ran.foldl key idle).LocksCounted) ↔
    ∀ ran event, ran ++ [event] <+: events → (ran.foldl key idle).ReleasedAlone event := by
  apply prefix_invariant_iff key idle (fun board => board.FlagsHeld ∧ board.LocksCounted)
    (fun _ => True) ReleasedAlone
  · constructor
    · intro flag isFlag
      have none : ∀ flag ∈ transient, contains 0 flag = false := by decide
      simpa [idle] using none flag isFlag
    · intro code flag isLock
      have none : ∀ flag ∈ locks, contains 0 flag = false := by decide
      simpa [idle] using none flag (toggle_lock isLock).1
  · trivial
  · exact fun _ _ _ _ => trivial
  · intro board event good _
    exact ⟨fun after => (flags_key good.1 event).mp after.1,
      fun alone => ⟨(flags_key good.1 event).mpr alone, locks_key good.2 event⟩⟩

/-- The right Shift key goes up while the left one stays down. -/
theorem shift_lost_while_held :
    let board := [(0x2A, KeyState.pressed), (0x36, .pressed), (0x36, .released)].foldl key idle
    modifierForScancode 0x2A = some shift ∧ board.held 0x2A = true ∧
      contains board.mods shift = false := by
  decide

end Keyboard

end ViCell.Services

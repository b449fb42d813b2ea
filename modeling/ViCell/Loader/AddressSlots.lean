import ViCell.Lib.Runs

/-!
# Address slots of position-independent cells

`loader/va_alloc.rs` and its users: `spawn_from_mem` takes a slot and returns it when the
segments cannot be loaded, and `CellSegments::drop` returns it in every other case.
-/

namespace ViCell.Loader

open Lib Function List

def cellVaStart : Nat := 0x100000000
def cellVaStride : Nat := 0x2000000
def maxSlots : Nat := 512

def slotBase (slot : Nat) : Nat := cellVaStart + slot * cellVaStride

/-- The bump index and the bitmap of returned slots. -/
structure VaAlloc where
  bump : Nat
  free : Nat → Bool

namespace VaAlloc

/-- The words are searched from the first, each from its lowest bit. -/
def allocCellVa (va : VaAlloc) : VaAlloc × Option Nat :=
  match (range maxSlots).find? va.free with
  | some slot => ({ va with free := update va.free slot false }, some (slotBase slot))
  | none =>
    if maxSlots ≤ va.bump then (va, none)
    else ({ va with bump := va.bump + 1 }, some (slotBase va.bump))

def freeCellVa (va : VaAlloc) (base : Nat) : VaAlloc :=
  if base < cellVaStart then va
  else if (base - cellVaStart) % cellVaStride ≠ 0 then va
  else if maxSlots ≤ (base - cellVaStart) / cellVaStride then va
  else { va with free := update va.free ((base - cellVaStart) / cellVaStride) true }

/-- Both the error path of `spawn_from_mem` and the drop leave base 0 alone. -/
def release (va : VaAlloc) (base : Nat) : VaAlloc :=
  if base ≠ 0 then va.freeCellVa base else va

end VaAlloc

/-- Where a load ends. -/
inductive LoadEnd
  | badHeader
  | badSegments
  /-- No stack or no task: the segments are dropped. -/
  | dropped
  | spawned
  deriving DecidableEq

/-- `live` holds the `pie_va_base` of every cell whose segments are not dropped yet. -/
structure CellSlots where
  va : VaAlloc
  live : List Nat

namespace CellSlots

def boot : CellSlots := ⟨⟨0, fun _ => false⟩, []⟩

inductive Event
  | load (pie : Bool) (ends : LoadEnd)
  | teardown (position : Nat)

def loadBase (slots : CellSlots) (pie : Bool) : VaAlloc × Option Nat :=
  if pie then slots.va.allocCellVa else (slots.va, some 0)

def step (slots : CellSlots) : Event → Option CellSlots
  | .load _ .badHeader => some slots
  | .load pie ends =>
    let (va, result) := slots.loadBase pie
    match result with
    | none => some { slots with va := va }
    | some base =>
      if ends = .spawned then some { va := va, live := slots.live ++ [base] }
      else some { slots with va := va.release base }
  | .teardown position =>
    match slots.live[position]? with
    | none => none
    | some base =>
      some { va := slots.va.release base, live := slots.live.eraseIdx position }

end CellSlots

def VaAlloc.held (va : VaAlloc) (slot : Nat) : Bool := decide (slot < va.bump) && !va.free slot

structure Valid (va : VaAlloc) : Prop where
  bounded : va.bump ≤ maxSlots
  fresh : ∀ slot, va.free slot = true → slot < va.bump

/-- `upper` holds one slot more. -/
structure Hands (lower : VaAlloc) (slot : Nat) (upper : VaAlloc) : Prop where
  idle : lower.held slot = false
  grows : ∀ other, upper.held other = (decide (other = slot) || lower.held other)

/-- The slots in use are the ones of live cells, one each. -/
structure Sound (va : VaAlloc) (live : List Nat) : Prop where
  valid : Valid va
  based : ∀ base ∈ live, base = 0 ∨ ∃ slot, base = slotBase slot
  counted : ∀ slot, live.count (slotBase slot) = (va.held slot).toNat

section Slots

variable {va after : VaAlloc} {live : List Nat} {base slot : Nat}

theorem slot_base_inj {other : Nat} : slotBase slot = slotBase other ↔ slot = other := by
  unfold slotBase cellVaStride
  omega

theorem slot_base_ne_zero : slotBase slot ≠ 0 := by
  unfold slotBase cellVaStart
  omega

theorem held_below (valid : Valid va) (held : va.held slot = true) : slot < maxSlots := by
  simp only [VaAlloc.held, Bool.and_eq_true, decide_eq_true_eq] at held
  exact Nat.lt_of_lt_of_le held.1 valid.bounded

theorem Sound.mem_iff (sound : Sound va live) : slotBase slot ∈ live ↔ va.held slot = true := by
  rw [← count_pos_iff, sound.counted slot]
  cases va.held slot <;> decide

theorem Sound.perm {other : List Nat} (sound : Sound va live) (order : live.Perm other) :
    Sound va other where
  valid := sound.valid
  based := fun base mem => sound.based base (order.mem_iff.mpr mem)
  counted := fun slot => order.count_eq _ ▸ sound.counted slot

theorem sound_zero : Sound va (0 :: live) ↔ Sound va live := by
  have same : ∀ slot, (0 :: live).count (slotBase slot) = live.count (slotBase slot) :=
    fun slot => count_cons_of_ne slot_base_ne_zero.symm
  constructor
  · intro sound
    exact ⟨sound.valid, (forall_mem_cons.mp sound.based).2, fun slot =>
      same slot ▸ sound.counted slot⟩
  · intro sound
    exact ⟨sound.valid, forall_mem_cons.mpr ⟨.inl rfl, sound.based⟩, fun slot =>
      (same slot).trans (sound.counted slot)⟩

theorem sound_cons {lower upper : VaAlloc} (hands : Hands lower slot upper) (low : Valid lower)
    (up : Valid upper) : Sound upper (slotBase slot :: live) ↔ Sound lower live := by
  have same : ∀ other, ((slotBase slot :: live).count (slotBase other) =
      (upper.held other).toNat ↔ live.count (slotBase other) = (lower.held other).toNat) := by
    intro other
    rw [hands.grows]
    by_cases here : other = slot
    · rw [here, hands.idle]
      simp
    · rw [count_cons_of_ne (fun base => here (slot_base_inj.mp base).symm)]
      simp [here]
  constructor
  · intro sound
    exact ⟨low, (forall_mem_cons.mp sound.based).2, fun other =>
      (same other).mp (sound.counted other)⟩
  · intro sound
    exact ⟨up, forall_mem_cons.mpr ⟨.inr ⟨slot, rfl⟩, sound.based⟩, fun other =>
      (same other).mpr (sound.counted other)⟩

theorem alloc_spec (valid : Valid va) {out : Option Nat} (run : va.allocCellVa = (after, out)) :
    (∃ slot, out = some (slotBase slot) ∧ Valid after ∧ Hands va slot after) ∨
      (out = none ∧ after = va ∧ ∀ slot < maxSlots, va.held slot = true) := by
  unfold VaAlloc.allocCellVa at run
  split at run
  next slot found =>
    cases run
    have isFree := find?_some found
    refine .inl ⟨slot, rfl, ⟨valid.bounded, ?_⟩, ?_, ?_⟩
    · intro other free
      by_cases same : other = slot
      · rw [same]
        exact valid.fresh slot isFree
      · exact valid.fresh other (by simpa [update_of_ne same] using free)
    · simp [VaAlloc.held, isFree]
    · intro other
      by_cases same : other = slot
      · simp [VaAlloc.held, same, valid.fresh slot isFree]
      · simp [VaAlloc.held, same]
  next missed =>
    have none : ∀ slot, va.free slot = false := by
      intro slot
      by_contra isFree
      have below := Nat.lt_of_lt_of_le (valid.fresh slot (by simpa using isFree)) valid.bounded
      exact find?_eq_none.mp missed slot (mem_range.mpr below) (by simpa using isFree)
    split at run
    next full =>
      cases run
      refine .inr ⟨rfl, rfl, ?_⟩
      intro slot below
      simp [VaAlloc.held, none, Nat.lt_of_lt_of_le below full]
    next room =>
      cases run
      refine .inl ⟨va.bump, rfl, ⟨Nat.lt_of_not_le room, ?_⟩, ?_, ?_⟩
      · intro slot isFree
        exact Nat.lt_succ_of_lt (valid.fresh slot isFree)
      · simp [VaAlloc.held]
      · simp [VaAlloc.held, none, Nat.le_iff_lt_or_eq, Bool.or_comm]

theorem release_sound (sound : Sound va (base :: live)) : Sound (va.release base) live := by
  unfold VaAlloc.release
  split
  case isFalse zero =>
    rw [not_not.mp zero] at sound
    exact sound_zero.mp sound
  case isTrue nonzero =>
    obtain ⟨slot, rfl⟩ := (sound.based base mem_cons_self).resolve_left nonzero
    have held := sound.mem_iff.mp mem_cons_self
    have offset : slotBase slot - cellVaStart = slot * cellVaStride := Nat.add_sub_cancel_left _ _
    have freed : va.freeCellVa (slotBase slot) = { va with free := update va.free slot true } := by
      unfold VaAlloc.freeCellVa
      rw [offset, Nat.mul_div_cancel _ (by decide), if_neg (by simp [slotBase]),
        if_neg (by simp), if_neg (Nat.not_le.mpr (held_below sound.valid held))]
    have hands : Hands { va with free := update va.free slot true } slot va := by
      constructor
      · simp [VaAlloc.held]
      · intro other
        by_cases same : other = slot
        · simp [same, held]
        · simp [VaAlloc.held, same]
    rw [freed]
    refine (sound_cons hands ⟨sound.valid.bounded, ?_⟩ sound.valid).mp sound
    intro other isFree
    by_cases same : other = slot
    · rw [same]
      exact of_decide_eq_true (Bool.and_elim_left held)
    · exact sound.valid.fresh other (by simpa [update_of_ne same] using isFree)

theorem load_base_spec {slots : CellSlots} {pie : Bool} {out : Option Nat}
    (sound : Sound slots.va slots.live) (run : slots.loadBase pie = (after, out)) :
    (∃ base, out = some base ∧ Sound after (base :: slots.live)) ∨
      (out = none ∧ after = slots.va) := by
  unfold CellSlots.loadBase at run
  split at run
  · rcases alloc_spec sound.valid run with ⟨slot, handed, valid, hands⟩ | ⟨failed, same, -⟩
    · exact .inl ⟨_, handed, (sound_cons hands sound.valid valid).mpr sound⟩
    · exact .inr ⟨failed, same⟩
  · cases run
    exact .inl ⟨0, rfl, sound_zero.mpr sound⟩

theorem step_sound {slots next : CellSlots} {event : CellSlots.Event}
    (sound : Sound slots.va slots.live) (taken : slots.step event = some next) :
    Sound next.va next.live := by
  unfold CellSlots.step at taken
  split at taken
  · cases taken
    exact sound
  · generalize run : slots.loadBase _ = loaded at taken
    obtain ⟨_, _⟩ := loaded
    rcases load_base_spec sound run with ⟨base, rfl, held⟩ | ⟨rfl, rfl⟩
    · dsimp only at taken
      split at taken
      · cases taken
        exact held.perm (perm_append_singleton _ _).symm
      · cases taken
        exact release_sound held
    · cases taken
      exact sound
  · split at taken
    next => cases taken
    next base found =>
      cases taken
      obtain ⟨inside, here⟩ := List.getElem?_eq_some_iff.mp found
      refine release_sound (sound.perm ?_)
      rw [← here]
      exact (getElem_cons_eraseIdx_perm inside).symm

end Slots

/-- After any loads and teardowns no slot is held twice, every slot held or handed out lies in
the region, and none is handed out only if live cells hold all of them. -/
theorem slots_apart_and_conserved {slots : CellSlots}
    (reached : Reaches CellSlots.step (fun _ _ => True) .boot slots) :
    (∀ slot, slots.live.count (slotBase slot) ≤ 1) ∧
      (∀ base ∈ slots.live, base = 0 ∨ ∃ slot < maxSlots, base = slotBase slot) ∧
      match slots.va.allocCellVa.2 with
      | some base => base ∉ slots.live ∧ ∃ slot < maxSlots, base = slotBase slot
      | none => ∀ slot < maxSlots, slotBase slot ∈ slots.live := by
  have start : Sound CellSlots.boot.va CellSlots.boot.live :=
    ⟨⟨Nat.zero_le _, fun _ isFree => nomatch isFree⟩, fun _ member => (nomatch member), fun _ => rfl⟩
  have sound : Sound slots.va slots.live :=
    reached.invariant (fun _ _ _ before _ taken => step_sound before taken) start
  refine ⟨?_, ?_, ?_⟩
  · intro slot
    rw [sound.counted slot]
    exact Bool.toNat_le _
  · intro base member
    refine (sound.based base member).imp_right ?_
    rintro ⟨slot, rfl⟩
    exact ⟨slot, held_below sound.valid (sound.mem_iff.mp member), rfl⟩
  · generalize run : slots.va.allocCellVa = given
    obtain ⟨_, _⟩ := given
    rcases alloc_spec sound.valid run with ⟨slot, rfl, valid, hands⟩ | ⟨rfl, -, all⟩
    · refine ⟨?_, slot, held_below valid (by simp [hands.grows]), rfl⟩
      rw [sound.mem_iff, hands.idle]
      exact Bool.false_ne_true
    · intro slot below
      exact sound.mem_iff.mpr (all slot below)

/-- Two cells are loaded, a load fails, and the first cell's slot is used again. -/
def reusedSlot : CellSlots :=
  finalState CellSlots.step .boot
    [.load true .spawned, .load true .spawned, .load true .badSegments, .teardown 0,
      .load false .spawned, .load true .spawned]

theorem reused_slot_apart : reusedSlot.live = [slotBase 1, 0, slotBase 0] ∧
      ∀ slot, reusedSlot.live.count (slotBase slot) ≤ 1 :=
  ⟨by decide +kernel, (slots_apart_and_conserved
    (reaches_final (by decide +kernel) (by decide +kernel))).1⟩

end ViCell.Loader

import ViCell.Lib.Runs
import ViCell.Virtio.Rings

/-!
# Chains are handled once

Runs of a driver against the block device: register writes, chains made available, and
other stores.  A reset takes the registers back to their defaults but leaves the
device's two ring counters as they are, so it is harmless only while they are zero.
-/

namespace ViCell.Virtio

open Lib Memory Function List

inductive DriverAction where
  /-- A register write to the slot, notifications and resets included. -/
  | register (offset : Nat) (val : BitVec 32)
  /-- The driver puts a head into the available ring and advances `avail.idx`. -/
  | publish (head : Nat)
  | store (gpa : Nat) (data : List Byte)

structure DriverRun where
  slot : BlkSlot
  published : List Nat
  handled : List Nat

namespace DriverRun

def start (memory : Memory) : DriverRun := ⟨⟨.default, .new, memory⟩, [], []⟩

def queue (run : DriverRun) : QueueCfg := run.slot.regs.queues 0

def step (run : DriverRun) : DriverAction → Option DriverRun
  | .register offset val =>
    match run.slot.mmioWrite (.ofOffset offset) val with
    | none => none
    | some (slot, heads) =>
      if Register.ofOffset offset = .status ∧ val = 0 then some ⟨slot, [], []⟩
      else some ⟨slot, run.published, run.handled ++ heads⟩
  | .publish head =>
    if run.queue.num = 0 then none
    else
      let entry := run.slot.memory.write (run.queue.availSlot run.published.length)
        (Bytes.encodeLE 2 head)
      let memory := entry.write (run.queue.availGpa + 2)
        (Bytes.encodeLE 2 ((run.published.length + 1) % indexModulus))
      some { run with
        slot := { run.slot with memory }
        published := run.published ++ [head] }
  | .store gpa data =>
    some { run with slot := { run.slot with memory := run.slot.memory.write gpa data } }

/-- The rings as a driver sets them up before it declares the queue ready. -/
def FreshRings (cfg : QueueCfg) (memory : Memory) : Prop :=
  Layout cfg memory ∧ memory.number (cfg.availGpa + 2) 2 = 0 ∧ memory.number (cfg.usedGpa + 2) 2 = 0

def RegisterOrderly (run : DriverRun) (val : BitVec 32) : Register → Prop
  | .status => val = 0 → run.slot.disk.lastAvail = 0 ∧ run.slot.disk.usedIdx = 0
  | .queueNum | .queueDesc _ | .queueAvail _ | .queueUsed _ =>
    run.slot.regs.queueSel = 0 → run.queue.ready = false
  | .queueReady => run.slot.regs.queueSel = 0 → run.queue.ready = false ∧
      (val = 1 → FreshRings run.queue run.slot.memory)
  | .queueNotify => val = 0 → run.queue.ready = true → DescsClear run.queue run.slot.memory
  | _ => True

/-- The driver keeps to the protocol, and a reset comes while the ring counters are
still zero. -/
def Orderly (run : DriverRun) : DriverAction → Prop
  | .register offset val => run.RegisterOrderly val (.ofOffset offset)
  | .publish head => run.queue.ready = true ∧
      run.published.length < run.handled.length + run.queue.num ∧ head < run.queue.num
  | .store gpa data => run.queue.ready = true →
      Apart gpa data.length run.queue.availGpa run.queue.availLength ∧
        Apart gpa data.length run.queue.usedGpa run.queue.usedLength

instance (cfg : QueueCfg) (memory : Memory) : Decidable (FreshRings cfg memory) :=
  inferInstanceAs (Decidable (_ ∧ _ ∧ _))

instance RegisterOrderly.decidable (run : DriverRun) (val : BitVec 32) (register : Register) :
    Decidable (run.RegisterOrderly val register) := by
  unfold RegisterOrderly
  split <;> infer_instance

instance (run : DriverRun) (action : DriverAction) : Decidable (Orderly run action) := by
  unfold Orderly
  split <;> infer_instance

/-- Before the queue is ready nothing has happened on it; afterwards the rings tell. -/
def Sound (run : DriverRun) : Prop :=
  run.queue.ready = false ∧ run.published = [] ∧ run.handled = [] ∧
      run.slot.disk.lastAvail = 0 ∧ run.slot.disk.usedIdx = 0 ∨
    run.queue.ready = true ∧ Rings run.queue run.slot.memory run.slot.disk run.published run.handled

variable {run after : DriverRun}

theorem Sound.other_registers {regs : VirtioMmio} (sound : Sound run)
    (same : regs.queues 0 = run.queue) :
    Sound { run with slot := { run.slot with regs := regs } } := by
  unfold Sound queue
  rw [same]
  exact sound

theorem Sound.set_queue {change : QueueCfg → QueueCfg} (sound : Sound run)
    (keeps : ∀ cfg, (change cfg).ready = cfg.ready)
    (orderly : run.slot.regs.queueSel = 0 → run.queue.ready = false) :
    Sound { run with slot := run.slot.setQueue change } := by
  unfold BlkSlot.setQueue
  split
  · by_cases first : run.slot.regs.queueSel = 0
    · have idle := orderly first
      rcases sound with ⟨_, unused⟩ | ⟨isReady, _⟩
      · refine .inl ⟨?_, unused⟩
        unfold queue
        dsimp only
        rw [first, update_self, keeps]
        exact idle
      · rw [idle] at isReady
        cases isReady
    · exact sound.other_registers (update_of_ne (Ne.symm first) _ _)
  · exact sound

theorem Sound.set_ready {val : BitVec 32} (sound : Sound run)
    (orderly : run.slot.regs.queueSel = 0 → run.queue.ready = false ∧
      (val = 1 → FreshRings run.queue run.slot.memory)) :
    Sound { run with
      slot := run.slot.setQueue (fun cfg => { cfg with ready := decide (val = 1) }) } := by
  unfold BlkSlot.setQueue
  split
  · by_cases first : run.slot.regs.queueSel = 0
    · obtain ⟨idle, fresh⟩ := orderly first
      have isQueue : update run.slot.regs.queues run.slot.regs.queueSel
          { run.slot.regs.queues run.slot.regs.queueSel with ready := decide (val = 1) } 0 =
          { run.queue with ready := decide (val = 1) } := by
        rw [first]
        rfl
      rcases sound with ⟨_, noneYet, noneHandled, lastAvail, usedIdx⟩ | ⟨isReady, _⟩
      · unfold Sound queue
        dsimp only
        rw [isQueue]
        by_cases one : val = 1
        · obtain ⟨layout, availCount, usedCount⟩ := fresh one
          refine .inr ⟨decide_eq_true one, ?_⟩
          rw [noneYet, noneHandled]
          exact {
            layout := { layout with }
            inOrder := nil_prefix
            window := Nat.zero_le _
            lastAvail := lastAvail
            usedIdx := usedIdx
            availCount := availCount
            availRing := fun _ _ inside => absurd inside (Nat.not_lt_zero _)
            usedCount := usedCount
            usedRing := fun _ inside => absurd inside (Nat.not_lt_zero _)
            heads := fun _ mem => by cases mem }
        · exact .inl ⟨decide_eq_false one, noneYet, noneHandled, lastAvail, usedIdx⟩
      · rw [idle] at isReady
        cases isReady
    · exact sound.other_registers (update_of_ne (Ne.symm first) _ _)
  · exact sound

theorem notify_handles (rings : Rings run.queue run.slot.memory run.slot.disk run.published
      run.handled) (isReady : run.queue.ready = true)
    (clear : DescsClear run.queue run.slot.memory) :
    ∃ slot heads, run.slot.mmioWrite .queueNotify 0 = some (slot, heads) ∧
      run.handled ++ heads = run.published ∧ slot.regs.queues 0 = run.queue ∧
      Rings run.queue slot.memory slot.disk run.published run.published := by
  obtain ⟨_, isPublished⟩ := rings.inOrder
  obtain ⟨drained, processed, isHeads, done⟩ := rings.processes clear isPublished.symm
  refine ⟨{ run.slot with disk := drained.disk, memory := drained.memory }.raiseInterrupt,
    drained.heads, ?_, ?_, rfl, done⟩
  · unfold BlkSlot.mmioWrite BlkSlot.notify
    dsimp only
    rw [if_pos ⟨by decide, isReady, rings.layout.positive⟩]
    rw [show processNotify (run.slot.regs.queues (0 : BitVec 32).toNat) run.slot.disk
      run.slot.memory = some drained from processed]
    rfl
  · rw [isHeads, isPublished]

theorem Sound.notify {val : BitVec 32} {slot : BlkSlot} {heads : List Nat} (sound : Sound run)
    (orderly : run.RegisterOrderly val .queueNotify)
    (written : run.slot.mmioWrite .queueNotify val = some (slot, heads)) :
    Sound ⟨slot, run.published, run.handled ++ heads⟩ := by
  by_cases first : val = 0
  · subst first
    rcases sound with ⟨idle, unused⟩ | ⟨isReady, rings⟩
    · have skipped : run.slot.mmioWrite .queueNotify 0 = some (run.slot, []) := by
        unfold BlkSlot.mmioWrite
        refine if_neg (fun all => ?_)
        have isReady : run.queue.ready = true := all.2.1
        rw [idle] at isReady
        cases isReady
      cases skipped.symm.trans written
      rw [append_nil]
      exact .inl ⟨idle, unused⟩
    · obtain ⟨_, all, handles, isAll, isQueue, done⟩ :=
        notify_handles rings isReady (orderly rfl isReady)
      cases handles.symm.trans written
      rw [isAll]
      refine .inr ?_
      unfold queue
      rw [isQueue]
      exact ⟨isReady, done⟩
  · have notFirst : val.toNat ≠ 0 := fun zero => first (BitVec.eq_of_toNat_eq zero)
    unfold BlkSlot.mmioWrite BlkSlot.notify at written
    dsimp only at written
    split at written
    · cases written
      rw [append_nil]
      exact sound.other_registers rfl
    · cases written
      rw [append_nil]
      exact sound

theorem Sound.plain_register {slot : BlkSlot} {heads : List Nat} {regs : VirtioMmio}
    (sound : Sound run) (written : some ({ run.slot with regs := regs }, []) = some (slot, heads))
    (same : regs.queues 0 = run.queue) :
    Sound ⟨slot, run.published, run.handled ++ heads⟩ := by
  cases written
  rw [append_nil]
  exact sound.other_registers same

theorem Sound.register {register : Register} {val : BitVec 32} {slot : BlkSlot}
    {heads : List Nat} (sound : Sound run) (orderly : run.RegisterOrderly val register)
    (noReset : ¬ (register = .status ∧ val = 0))
    (written : run.slot.mmioWrite register val = some (slot, heads)) :
    Sound ⟨slot, run.published, run.handled ++ heads⟩ := by
  cases register with
  | deviceFeaturesSel | driverFeaturesSel | interruptAck => exact sound.plain_register written rfl
  | driverFeatures =>
    unfold BlkSlot.mmioWrite at written
    dsimp only at written
    split at written <;> exact sound.plain_register written rfl
  | queueSel =>
    unfold BlkSlot.mmioWrite at written
    dsimp only at written
    split at written
    · exact sound.plain_register written rfl
    · exact @Sound.plain_register run slot heads run.slot.regs sound written rfl
  | queueNum | queueDesc high | queueAvail high | queueUsed high =>
    cases written
    rw [append_nil]
    exact sound.set_queue (fun _ => rfl) orderly
  | queueReady =>
    cases written
    rw [append_nil]
    exact sound.set_ready orderly
  | queueNotify => exact sound.notify orderly written
  | status =>
    have notZero : ¬ val = 0 := fun zero => noReset ⟨rfl, zero⟩
    unfold BlkSlot.mmioWrite BlkSlot.writeStatus at written
    dsimp only at written
    rw [if_neg notZero] at written
    split at written <;> exact sound.plain_register written rfl
  | other => exact @Sound.plain_register run slot heads run.slot.regs sound written rfl

theorem Sound.step {action : DriverAction} (sound : Sound run) (orderly : Orderly run action)
    (ran : run.step action = some after) : Sound after := by
  cases action with
  | register offset val =>
    unfold DriverRun.step at ran
    dsimp only at ran
    split at ran
    · cases ran
    next slot heads written =>
      split at ran
      next reset =>
        cases ran
        obtain ⟨isStatus, zero⟩ := reset
        have counters : run.RegisterOrderly val (.ofOffset offset) := orderly
        rw [isStatus] at counters written
        obtain ⟨lastAvail, usedIdx⟩ := counters zero
        unfold BlkSlot.mmioWrite BlkSlot.writeStatus at written
        rw [if_pos zero] at written
        cases written
        exact .inl ⟨rfl, rfl, rfl, lastAvail, usedIdx⟩
      next noReset =>
        cases ran
        exact sound.register orderly noReset written
  | publish =>
    obtain ⟨isReady, room, inTable⟩ := orderly
    unfold DriverRun.step at ran
    dsimp only at ran
    split at ran
    · cases ran
    · cases ran
      rcases sound with ⟨idle, _⟩ | ⟨_, rings⟩
      · rw [idle] at isReady
        cases isReady
      · exact .inr ⟨isReady, rings.publish room inTable⟩
  | store =>
    cases ran
    rcases sound with idle | ⟨isReady, rings⟩
    · exact .inl idle
    · obtain ⟨avail, used⟩ := orderly isReady
      refine .inr ⟨isReady, rings.same (write_same_on ?_) rfl rfl⟩
      intro place mem
      unfold Apart at avail used
      unfold ringPlace at mem
      omega

/-- The used ring counts the handled chains and shows the last of them. -/
structure Reported (run : DriverRun) : Prop where
  count : run.slot.memory.number (run.queue.usedGpa + 2) 2 = run.handled.length % indexModulus
  entries : ∀ index, index < run.handled.length → run.handled.length ≤ index + run.queue.num →
    run.slot.memory.number (run.queue.usedSlot index) 4 = run.handled.getD index 0

/-- In an orderly run the chains are handled in the order they were published and each
handled one is reported; the next notification handles all that are left. -/
theorem chains_handled_once {memory : Memory} {finish : DriverRun}
    (reached : Reaches DriverRun.step Orderly (start memory) finish) :
    finish.handled <+: finish.published ∧ (finish.queue.ready = true → Reported finish ∧
        (Orderly finish (.register 0x050 0) → ∃ after, finish.step (.register 0x050 0) = some after ∧
          after.published = finish.published ∧ after.handled = finish.published ∧
          Reported after)) := by
  have sound : Sound finish := reached.invariant
    (fun _ _ _ sound orderly stepped => sound.step orderly stepped)
    (.inl ⟨rfl, rfl, rfl, rfl, rfl⟩)
  rcases sound with ⟨idle, noneYet, noneHandled, _⟩ | ⟨_, rings⟩
  · refine ⟨by rw [noneYet, noneHandled], fun isReady => ?_⟩
    rw [idle] at isReady
    cases isReady
  · refine ⟨rings.inOrder, fun isReady => ⟨⟨rings.usedCount, rings.usedRing⟩, fun orderly => ?_⟩⟩
    obtain ⟨slot, heads, written, isAll, isQueue, done⟩ :=
      notify_handles rings isReady (orderly rfl isReady)
    refine ⟨⟨slot, finish.published, finish.handled ++ heads⟩, ?_, rfl, isAll, ?_⟩
    · unfold DriverRun.step
      dsimp only
      rw [show Register.ofOffset 0x050 = .queueNotify from rfl, written]
      dsimp only
      rw [if_neg (fun both => by cases both.1)]
    · rw [isAll]
      have usedCount := done.usedCount
      have usedRing := done.usedRing
      rw [← isQueue] at usedCount usedRing
      exact ⟨usedCount, usedRing⟩

/-- Guest memory of three pages, and the writes that set up a queue of four entries
with one page for each part. -/
def threePages : Memory := ⟨0x40000000, 0x3000, fun _ => 0⟩

def setUp : List DriverAction :=
  [.register 0x030 0, .register 0x038 4, .register 0x080 0x40000000, .register 0x090 0x40001000,
    .register 0x0a0 0x40002000, .register 0x044 1]

/-- Two chains, a notification, and one more chain. -/
def threeChains : List DriverAction :=
  setUp ++ [.publish 2, .publish 0, .register 0x050 0, .publish 1]

theorem three_chains_handled :
    let finish := finalState DriverRun.step (start threePages) threeChains
    finish.published = [2, 0, 1] ∧ finish.handled = [2, 0] ∧ Reported finish ∧
      ∃ after, finish.step (.register 0x050 0) = some after ∧
        after.published = finish.published ∧ after.handled = finish.published ∧
        Reported after := by
  have reached : Reaches DriverRun.step Orderly (start threePages)
      (finalState DriverRun.step (start threePages) threeChains) :=
    reaches_final (by decide +kernel) (by decide +kernel)
  obtain ⟨reported, notified⟩ := (chains_handled_once reached).2 (by decide +kernel)
  exact ⟨by decide +kernel, by decide +kernel, reported, notified (by decide +kernel)⟩

/-- A reset after a chain was handled, the rings set up again, and one chain. -/
def resetAndAgain : List DriverAction :=
  setUp ++ [.publish 2, .register 0x050 0, .register 0x070 0, .store 0x40001002 [0, 0],
    .store 0x40002002 [0, 0]] ++ setUp ++ [.publish 1, .register 0x050 0]

/-- The chain made available after the reset is never handled: the device's counter
says that it was. -/
theorem chain_lost_after_reset :
    (runEvents DriverRun.step (start threePages) resetAndAgain).map (fun finish =>
        (finish.published, finish.handled, finish.slot.disk.lastAvail)) =
      some ([1], [], 1) := by
  decide +kernel

end DriverRun

end ViCell.Virtio

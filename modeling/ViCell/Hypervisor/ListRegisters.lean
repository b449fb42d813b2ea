import ViCell.Lib.Runs

/-!
# The interrupt queue of a vCPU

`inject_irq` and `run_vcpu`, for one vCPU on hardware with any number of list registers.
An interrupt has the number of its injection next to the id that the code keeps of it.
One that is in its register when the guest exits counts as waiting again.
-/

namespace ViCell.Hypervisor

open Lib List

def maxLrs : Nat := 4

structure Irq where
  serial : Nat
  intid : Nat
  deriving DecidableEq, Repr

/-- `taken` are the interrupts whose register was empty after the exit. -/
structure VcpuIrqs where
  queue : List Irq
  injected : List Irq
  taken : List Irq

inductive IrqEvent where
  | injectIrq (intid : Nat)
  /-- `occupied` are the registers that are pending or active when the guest exits. -/
  | runVcpu (occupied : Nat → Bool)

namespace VcpuIrqs

def new : VcpuIrqs := ⟨[], [], []⟩

/-- The loop over the loaded registers after the exit.  A register that the hardware does
not have ignores the write and reads as zero. -/
def drainLrs (lrs : Nat) (occupied : Nat → Bool) (n : Nat) : List Irq → VcpuIrqs → VcpuIrqs
  | [], irqs => irqs
  | irq :: rest, irqs =>
    drainLrs lrs occupied (n + 1) rest
      (if n < lrs then
        if occupied n then
          { irqs with queue := { irq with intid := irq.intid % 1024 } :: irqs.queue }
        else { irqs with taken := irqs.taken ++ [irq] }
      else irqs)

def step (lrs : Nat) (irqs : VcpuIrqs) : IrqEvent → VcpuIrqs
  | .injectIrq intid =>
    let irq := ⟨irqs.injected.length, intid⟩
    if intid > 1019 then irqs
    else { irqs with queue := irqs.queue ++ [irq], injected := irqs.injected ++ [irq] }
  | .runVcpu occupied =>
    drainLrs lrs occupied 0 (irqs.queue.take maxLrs) { irqs with queue := irqs.queue.drop maxLrs }

/-- Each injected interrupt is taken or waits, once, and those that wait are in order. -/
structure InOrder (irqs : VcpuIrqs) : Prop where
  whole : (irqs.taken ++ irqs.queue).Perm irqs.injected
  ordered : irqs.queue.Pairwise (fun irq later => irq.serial < later.serial)

/-- The hardware has the registers that are loaded, and at most one is still in use. -/
def Meets (lrs : Nat) (irqs : VcpuIrqs) : IrqEvent → Prop
  | .injectIrq _ => True
  | .runVcpu occupied =>
    let loaded := (irqs.queue.take maxLrs).length
    loaded ≤ lrs ∧ (range' 0 loaded).countP occupied ≤ 1

def Numbered (irqs : VcpuIrqs) : Prop :=
  ∀ irq ∈ irqs.injected, irq.serial < irqs.injected.length ∧ irq.intid < 1024

theorem drain_spec {lrs : Nat} {occupied : Nat → Bool} {loaded : List Irq}
    (ids : ∀ irq ∈ loaded, irq.intid < 1024) (n : Nat) (irqs : VcpuIrqs) :
    ∃ kept served, kept <+ loaded ∧ (kept ++ served).Perm (loaded.take (lrs - n)) ∧
      kept.length = (range' n (loaded.take (lrs - n)).length).countP occupied ∧
      drainLrs lrs occupied n loaded irqs =
        { irqs with queue := kept.reverse ++ irqs.queue, taken := irqs.taken ++ served } := by
  induction loaded generalizing n irqs with
  | nil => exact ⟨[], [], Sublist.slnil, by simp, by simp, by simp [drainLrs]⟩
  | cons irq rest ih =>
    obtain ⟨id, others⟩ := forall_mem_cons.mp ids
    unfold drainLrs
    rw [Nat.mod_eq_of_lt id]
    by_cases present : n < lrs
    · rw [if_pos present, show lrs - n = lrs - (n + 1) + 1 by omega, take_succ_cons, length_cons,
        range'_succ, countP_cons]
      cases held : occupied n with
      | true =>
        obtain ⟨kept, served, sub, all, count, same⟩ :=
          ih others (n + 1) { irqs with queue := irq :: irqs.queue }
        refine ⟨irq :: kept, served, sub.cons_cons irq, all.cons irq, by simp [count], ?_⟩
        rw [if_pos rfl, same, reverse_cons, append_assoc]
        rfl
      | false =>
        obtain ⟨kept, served, sub, all, count, same⟩ :=
          ih others (n + 1) { irqs with taken := irqs.taken ++ [irq] }
        refine ⟨kept, irq :: served, sub.cons irq, perm_middle.trans (all.cons irq), by simp [count], ?_⟩
        rw [if_neg Bool.false_ne_true, same, append_assoc]
        rfl
    · obtain ⟨kept, served, sub, all, count, same⟩ := ih others (n + 1) irqs
      rw [show lrs - (n + 1) = 0 by omega] at all count
      rw [if_neg present, show lrs - n = 0 by omega]
      exact ⟨kept, served, sub.cons irq, all, count, same⟩

theorem reverse_ordered_iff {kept rest : List Irq}
    (ordered : (kept ++ rest).Pairwise (fun irq later => irq.serial < later.serial)) :
    (kept.reverse ++ rest).Pairwise (fun irq later => irq.serial < later.serial) ↔
      kept.length ≤ 1 := by
  match kept with
  | [] => exact iff_of_true ordered (Nat.zero_le 1)
  | [_] => exact iff_of_true ordered le_rfl
  | first :: second :: others =>
    refine iff_of_false ?_ (by simp)
    intro reversed
    have back := pairwise_reverse.mp (pairwise_append.mp reversed).1
    have forth := (pairwise_append.mp ordered).1
    exact lt_asymm (rel_of_pairwise_cons forth mem_cons_self)
      (rel_of_pairwise_cons back mem_cons_self)

section Run

variable {lrs : Nat} {irqs : VcpuIrqs} (inOrder : irqs.InOrder) (numbered : irqs.Numbered)
include inOrder numbered

theorem waiting_numbered {irq : Irq} (mem : irq ∈ irqs.queue) :
    irq.serial < irqs.injected.length ∧ irq.intid < 1024 :=
  numbered irq (inOrder.whole.mem_iff.mp (mem_append_right irqs.taken mem))

theorem run_spec (occupied : Nat → Bool) :
    ∃ kept served, kept <+ irqs.queue.take maxLrs ∧
      (kept ++ served).Perm ((irqs.queue.take maxLrs).take lrs) ∧
      kept.length = (range' 0 ((irqs.queue.take maxLrs).take lrs).length).countP occupied ∧
      irqs.step lrs (.runVcpu occupied) =
        ⟨kept.reverse ++ irqs.queue.drop maxLrs, irqs.injected, irqs.taken ++ served⟩ :=
  drain_spec (fun _ mem => (waiting_numbered inOrder numbered (mem_of_mem_take mem)).2) 0 _

theorem run_in_order_iff (occupied : Nat → Bool) :
    (irqs.step lrs (.runVcpu occupied)).InOrder ↔ Meets lrs irqs (.runVcpu occupied) := by
  obtain ⟨kept, served, sub, all, count, same⟩ := @run_spec lrs irqs inOrder numbered occupied
  unfold Meets
  rw [same]
  obtain ⟨whole, sorted⟩ := inOrder
  rw [← take_append_drop maxLrs irqs.queue] at whole sorted
  generalize irqs.queue.take maxLrs = loaded at *
  generalize irqs.queue.drop maxLrs = rest at *
  have present : (served ++ kept.reverse).Perm (loaded.take lrs) :=
    (kept.reverse_perm.append_left served).trans (perm_append_comm.trans all)
  have wholeAfter : (irqs.taken ++ served ++ (kept.reverse ++ rest)).Perm irqs.injected ↔
      loaded.length ≤ lrs := by
    rw [append_assoc, ← append_assoc served]
    calc
      _ ↔ (irqs.taken ++ (served ++ kept.reverse ++ rest)).Perm (irqs.taken ++ (loaded ++ rest)) :=
        ⟨fun after => after.trans whole.symm, fun after => after.trans whole⟩
      _ ↔ (served ++ kept.reverse).Perm loaded :=
        (perm_append_left_iff _).trans (perm_append_right_iff _)
      _ ↔ (loaded.take lrs).Perm loaded := ⟨present.symm.trans, present.trans⟩
      _ ↔ loaded.length ≤ lrs :=
        ⟨fun after => by simpa using after.length_eq, fun fits => by rw [take_of_length_le fits]⟩
  have orderedAfter := reverse_ordered_iff (sorted.sublist (sub.append_right rest))
  constructor
  · rintro ⟨wholly, ordered⟩
    have fits := wholeAfter.mp wholly
    rw [take_of_length_le fits] at count
    exact ⟨fits, count ▸ orderedAfter.mp ordered⟩
  · rintro ⟨fits, few⟩
    rw [take_of_length_le fits] at count
    exact ⟨wholeAfter.mpr fits, orderedAfter.mpr (count ▸ few)⟩

theorem inject_in_order (intid : Nat) : (irqs.step lrs (.injectIrq intid)).InOrder := by
  unfold step
  dsimp only
  split
  · exact inOrder
  · constructor
    · rw [← append_assoc]
      exact inOrder.whole.append_right _
    · refine pairwise_append.mpr ⟨inOrder.ordered, pairwise_singleton _ _, ?_⟩
      intro irq mem last isLast
      rw [mem_singleton.mp isLast]
      exact (waiting_numbered inOrder numbered mem).1

theorem step_numbered (event : IrqEvent) : (irqs.step lrs event).Numbered := by
  cases event with
  | injectIrq intid =>
    unfold step
    dsimp only
    split
    · exact numbered
    · intro irq mem
      rw [length_append, length_singleton]
      rcases mem_append.mp mem with old | new
      · exact (numbered irq old).imp_left Nat.lt_succ_of_lt
      · rw [mem_singleton.mp new]
        dsimp only
        omega
  | runVcpu occupied =>
    obtain ⟨_, _, _, _, _, same⟩ := @run_spec lrs irqs inOrder numbered occupied
    rw [same]
    exact numbered

end Run

/-- In every run no interrupt is lost, duplicated or overtaken, exactly if each exit finds
at most one register in use, and the hardware has the registers that were loaded. -/
theorem irqs_in_order_iff (lrs : Nat) (events : List IrqEvent) :
    (∀ ran, ran <+: events → (ran.foldl (step lrs) new).InOrder) ↔
      ∀ ran event, ran ++ [event] <+: events → Meets lrs (ran.foldl (step lrs) new) event := by
  apply prefix_invariant_iff (step lrs) new InOrder Numbered (Meets lrs)
  · exact ⟨by simp [new], Pairwise.nil⟩
  · nofun
  · exact fun _ event inOrder numbered => step_numbered inOrder numbered event
  · intro irqs event inOrder numbered
    cases event with
    | injectIrq intid => exact iff_of_true (inject_in_order inOrder numbered intid) trivial
    | runVcpu occupied => exact run_in_order_iff inOrder numbered occupied

/-- Of two interrupts that the guest has not taken, the later one will be loaded first. -/
theorem two_held_irqs_reverse :
    (([.injectIrq 40, .injectIrq 41, .runVcpu (fun _ => true)].foldl (step 4) new).queue.map
      Irq.intid) = [41, 40] := by decide

end VcpuIrqs

end ViCell.Hypervisor

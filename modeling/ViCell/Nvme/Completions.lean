import ViCell.Nvme.Driver
import ViCell.Lib.Runs

/-!
# A command and its completion

The driver takes the next completion without looking at its command identifier, so
it relies on having one command under way.  As long as no poll runs into the limit,
that command goes through four stages (queued, fetched, executed, posted) and the
completion queue shows the expected phase at the head in the last stage only.
-/

namespace ViCell.Nvme

open Lib Function List

variable {Data : Type}

/-- The completion that decided the call is that of its own command, and an `Ok` read
returns the content of the sector. -/
def Outcome.Proper (outcome : Outcome Data) : Prop :=
  outcome.decidedBy = some outcome.command ∧
    ∀ sector, outcome.operation = .read sector → outcome.ok = true →
      ∃ data, outcome.returned = some data ∧ outcome.current = some data

namespace NvmeBlk

def timesOut (nvme : NvmeBlk Data) : Bool :=
  match nvme.driver with
  | .idle => false
  | .polling _ _ _ iters =>
    nvme.polled.phase != nvme.queue.cqPhase && iters + 1 == pollWarnIters

def InTime (nvme : NvmeBlk Data) : Event Data → Prop
  | .poll => nvme.timesOut = false
  | _ => True

instance (nvme : NvmeBlk Data) (event : Event Data) : Decidable (nvme.InTime event) := by
  unfold InTime
  split <;> infer_instance

/-- Slots behind the head were written in this lap, the others in the one before. -/
def Lapped (nvme : NvmeBlk Data) (slot : Nat) : Prop :=
  (nvme.cq slot).phase =
    if slot < nvme.queue.cqHead then nvme.queue.cqPhase else !nvme.queue.cqPhase

structure Linked (nvme : NvmeBlk Data) : Prop where
  doorbell : nvme.controller.sqDoorbell = nvme.queue.sqTail
  credit : nvme.controller.cqDoorbell = nvme.queue.cqHead
  tailBound : nvme.queue.sqTail < ioQueueDepth
  headBound : nvme.queue.cqHead < ioQueueDepth

structure NothingPosted (nvme : NvmeBlk Data) : Prop where
  tail : nvme.controller.cqTail = nvme.queue.cqHead
  phase : nvme.controller.phase = nvme.queue.cqPhase
  lapped : ∀ slot, slot < ioQueueDepth → nvme.Lapped slot

structure OnePosted (nvme : NvmeBlk Data) (command status : Nat) : Prop where
  tail : nvme.controller.cqTail = (nvme.queue.cqHead + 1) % ioQueueDepth
  phase : nvme.controller.phase =
    if nvme.controller.cqTail = 0 then !nvme.queue.cqPhase else nvme.queue.cqPhase
  command : nvme.polled.command = command
  status : nvme.polled.status = status
  shown : nvme.polled.phase = nvme.queue.cqPhase
  lapped : ∀ slot, slot < ioQueueDepth → slot ≠ nvme.queue.cqHead → nvme.Lapped slot

structure Quiet (nvme : NvmeBlk Data) : Prop where
  fetched : nvme.controller.sqHead = nvme.queue.sqTail
  none : nvme.controller.inFlight = []
  nothing : nvme.NothingPosted

structure Issued (operation : Operation Data) (page command : Nat) (entry : SqEntry) : Prop where
  opcode : entry.opcode = operation.opcode
  lba : entry.lba = operation.lba
  prp1 : entry.prp1 = operation.prp1 page
  command : entry.command = command

def Transferred (nvme : NvmeBlk Data) (operation : Operation Data) (page : Nat) : Prop :=
  ∀ sector, operation = .read sector → nvme.pages page = nvme.controller.disk sector

/-- How far the one command has come. -/
inductive UnderWay (nvme : NvmeBlk Data) (operation : Operation Data) (page command : Nat) :
    Prop where
  | queued (bound : nvme.controller.sqHead < ioQueueDepth)
      (next : (nvme.controller.sqHead + 1) % ioQueueDepth = nvme.queue.sqTail)
      (none : nvme.controller.inFlight = [])
      (issued : Issued operation page command (nvme.sq nvme.controller.sqHead))
      (nothing : nvme.NothingPosted)
  | fetched (entry : SqEntry) (taken : nvme.controller.sqHead = nvme.queue.sqTail)
      (one : nvme.controller.inFlight = [(entry, .none)])
      (issued : Issued operation page command entry)
      (nothing : nvme.NothingPosted)
  | executed (entry : SqEntry) (status : Nat)
      (taken : nvme.controller.sqHead = nvme.queue.sqTail)
      (one : nvme.controller.inFlight = [(entry, some status)])
      (issued : Issued operation page command entry)
      (nothing : nvme.NothingPosted)
      (done : status = 0 → nvme.Transferred operation page)
  | posted (status : Nat) (taken : nvme.controller.sqHead = nvme.queue.sqTail)
      (none : nvme.controller.inFlight = [])
      (posted : nvme.OnePosted command status)
      (done : status = 0 → nvme.Transferred operation page)

/-- What the driver's phase says about the queues. -/
def InStep (nvme : NvmeBlk Data) : Prop :=
  match nvme.driver with
  | .idle => nvme.Quiet
  | .polling operation page command _ =>
    (operation.hasBuffer = true → nvme.allocated page = true) ∧ nvme.UnderWay operation page command

structure Settled (nvme : NvmeBlk Data) : Prop where
  linked : nvme.Linked
  inStep : nvme.InStep
  proper : ∀ outcome ∈ nvme.outcomes, outcome.Proper

section Laps

variable {nvme : NvmeBlk Data} {command status : Nat}

theorem NothingPosted.head_unshown (nothing : nvme.NothingPosted) (linked : nvme.Linked) :
    nvme.polled.phase ≠ nvme.queue.cqPhase := by
  have head := nothing.lapped nvme.queue.cqHead linked.headBound
  unfold Lapped at head
  rw [if_neg (lt_irrefl _)] at head
  unfold polled
  rw [head]
  exact Bool.not_ne_self _

theorem OnePosted.consume (posted : nvme.OnePosted command status) (linked : nvme.Linked) :
    nvme.consume.NothingPosted := by
  have headBound := linked.headBound
  refine ⟨posted.tail, ?_, ?_⟩
  · have phase := posted.phase
    rw [posted.tail] at phase
    exact phase
  intro slot slotBound
  have atSlot : (nvme.cq slot).phase =
      if slot ≤ nvme.queue.cqHead then nvme.queue.cqPhase else !nvme.queue.cqPhase := by
    by_cases isHead : slot = nvme.queue.cqHead
    · rw [isHead, if_pos (le_refl _)]
      exact posted.shown
    · have lapped := posted.lapped slot slotBound isHead
      rw [lapped]
      have same : slot < nvme.queue.cqHead ↔ slot ≤ nvme.queue.cqHead := by omega
      simp only [same]
  change (nvme.cq slot).phase = if slot < (nvme.queue.cqHead + 1) % ioQueueDepth then
      (if (nvme.queue.cqHead + 1) % ioQueueDepth = 0 then !nvme.queue.cqPhase
        else nvme.queue.cqPhase)
    else !(if (nvme.queue.cqHead + 1) % ioQueueDepth = 0 then !nvme.queue.cqPhase
        else nvme.queue.cqPhase)
  rw [atSlot]
  unfold ioQueueDepth at headBound slotBound ⊢
  by_cases wraps : nvme.queue.cqHead = 63
  · have zero : (nvme.queue.cqHead + 1) % 64 = 0 := by omega
    have behind : slot ≤ nvme.queue.cqHead := by omega
    rw [zero, if_pos behind, if_neg (Nat.not_lt_zero slot), if_pos rfl, Bool.not_not]
  · have forward : (nvme.queue.cqHead + 1) % 64 = nvme.queue.cqHead + 1 := by omega
    rw [forward, if_neg (Nat.succ_ne_zero _)]
    simp only [Nat.lt_succ_iff]

end Laps

section Steps

variable {nvme next : NvmeBlk Data}

theorem settled_start [Zero Data] (vwc : Bool) (disk : Nat → Data) :
    (start vwc disk).Settled where
  linked := ⟨rfl, rfl, Nat.zero_lt_succ 63, Nat.zero_lt_succ 63⟩
  inStep := ⟨rfl, rfl, rfl, rfl, fun _ _ => rfl⟩
  proper := fun _ mem => absurd mem not_mem_nil

theorem allocate_spec [Zero Data] (nvme : NvmeBlk Data) (operation : Operation Data) (page : Nat) :
    ∃ pages allocated, nvme.allocate operation page = { nvme with pages, allocated } ∧
      (operation.hasBuffer = true → allocated page = true) := by
  cases operation with
  | read sector | write sector data =>
    exact ⟨_, _, rfl, fun _ => update_self page true nvme.allocated⟩
  | flush => exact ⟨nvme.pages, nvme.allocated, rfl, fun buf => Bool.noConfusion buf⟩

theorem Settled.submitted [Zero Data] (settled : nvme.Settled) (idle : nvme.driver = .idle)
    (operation : Operation Data) (page : Nat) :
    ((nvme.allocate operation page).submit operation page).Settled := by
  obtain ⟨pages, allocated, changed, own⟩ := nvme.allocate_spec operation page
  have quiet := settled.inStep
  unfold InStep at quiet
  rw [idle] at quiet
  have linked := settled.linked
  rw [changed]
  refine ⟨⟨rfl, linked.credit, Nat.mod_lt _ (by decide), linked.headBound⟩, ⟨own, ?_⟩,
    settled.proper⟩
  have written : (({ nvme with pages, allocated } : NvmeBlk Data).submit operation page).sq
      nvme.controller.sqHead = ⟨operation.opcode, (nvme.queue.cid + 1) % 2 ^ 16, operation.lba,
        operation.prp1 page, nvme.commands + 1⟩ := by
    rw [quiet.fetched]
    exact update_self _ _ _
  refine .queued ?_ ?_ quiet.none ?_
    ⟨quiet.nothing.tail, quiet.nothing.phase, quiet.nothing.lapped⟩
  · exact quiet.fetched ▸ linked.tailBound
  · exact congrArg (fun head => (head + 1) % ioQueueDepth) quiet.fetched
  · exact written ▸ ⟨rfl, rfl, rfl, rfl⟩

variable {operation : Operation Data} {page : Nat}

theorem Settled.called [Zero Data] (settled : nvme.Settled) {bufLen : Nat}
    (taken : nvme.step (.call operation bufLen page) = some next) : next.Settled := by
  rw [step] at taken
  cases phase : nvme.driver with
  | polling => rw [phase] at taken; cases taken
  | idle =>
    rw [phase] at taken
    split_ifs at taken with short cacheless reused
    · cases taken
      exact settled
    · cases taken
      exact settled
    · cases taken
      exact settled.submitted phase operation page

variable {command : Nat}

theorem Settled.taken (settled : nvme.Settled) {status : Nat}
    (fetched : nvme.controller.sqHead = nvme.queue.sqTail) (none : nvme.controller.inFlight = [])
    (posted : nvme.OnePosted command status) (done : status = 0 → nvme.Transferred operation page) :
    (nvme.consume.finish operation page command (some nvme.polled.command)
      (decide (nvme.polled.status = 0))).Settled := by
  have linked := settled.linked
  have nothing := posted.consume linked
  have freed : ∃ allocated, nvme.consume.free operation page = { nvme.consume with allocated } := by
    unfold free
    split <;> exact ⟨_, rfl⟩
  obtain ⟨allocated, freed⟩ := freed
  unfold finish
  rw [freed]
  refine ⟨⟨linked.doorbell, rfl, linked.tailBound, Nat.mod_lt _ (by decide)⟩,
    ⟨fetched, none, nothing.tail, nothing.phase, nothing.lapped⟩, ?_⟩
  intro outcome mem
  rcases mem_append.mp mem with earlier | now
  · exact settled.proper outcome earlier
  rw [mem_singleton.mp now]
  refine ⟨congrArg some posted.command, ?_⟩
  rintro sector rfl ok
  have good : status = 0 := posted.status ▸ of_decide_eq_true ok
  refine ⟨_, if_pos ok, ?_⟩
  exact congrArg some (done good sector rfl).symm

theorem Settled.waited (settled : nvme.Settled) {iters : Nat}
    (phase : nvme.driver = .polling operation page command iters) :
    Settled { nvme with driver := .polling operation page command (iters + 1) } := by
  have waiting := settled.inStep
  unfold InStep at waiting
  rw [phase] at waiting
  refine ⟨⟨settled.linked.doorbell, settled.linked.credit, settled.linked.tailBound,
    settled.linked.headBound⟩, ⟨waiting.1, ?_⟩, settled.proper⟩
  cases waiting.2 with
  | queued bound follows none issued nothing =>
    exact .queued bound follows none issued ⟨nothing.tail, nothing.phase, nothing.lapped⟩
  | fetched entry taken one issued nothing =>
    exact .fetched entry taken one issued ⟨nothing.tail, nothing.phase, nothing.lapped⟩
  | executed entry status taken one issued nothing done =>
    exact .executed entry status taken one issued
      ⟨nothing.tail, nothing.phase, nothing.lapped⟩ done
  | posted status taken none posted done =>
    exact .posted status taken none ⟨posted.tail, posted.phase, posted.command,
      posted.status, posted.shown, posted.lapped⟩ done

theorem Settled.polled_step (settled : nvme.Settled) (inTime : nvme.timesOut = false)
    (taken : nvme.poll = some next) : next.Settled := by
  have linked := settled.linked
  have waiting := settled.inStep
  unfold poll at taken
  unfold InStep at waiting
  unfold timesOut at inTime
  cases phase : nvme.driver with
  | idle => rw [phase] at taken; cases taken
  | polling _ _ _ iters =>
    rw [phase] at taken waiting inTime
    dsimp only at taken inTime
    by_cases shown : nvme.polled.phase = nvme.queue.cqPhase
    · rw [if_pos shown] at taken
      cases taken
      cases waiting.2 with
      | queued _ _ _ _ nothing => exact absurd shown (nothing.head_unshown linked)
      | fetched _ _ _ _ nothing => exact absurd shown (nothing.head_unshown linked)
      | executed _ _ _ _ _ nothing => exact absurd shown (nothing.head_unshown linked)
      | posted _ fetched none posted done =>
        exact settled.taken fetched none posted done
    · have more : iters + 1 ≠ pollWarnIters := by
        intro last
        rw [bne_iff_ne.mpr shown] at inTime
        exact beq_eq_false_iff_ne.mp inTime last
      rw [if_neg shown, if_neg more] at taken
      cases taken
      exact settled.waited phase

theorem Settled.under_way (settled : nvme.Settled)
    (busy : nvme.controller.sqHead ≠ nvme.controller.sqDoorbell ∨ nvme.controller.inFlight ≠ []) :
    ∃ operation page command iters, nvme.driver = .polling operation page command iters ∧
      (operation.hasBuffer = true → nvme.allocated page = true) ∧
      nvme.UnderWay operation page command := by
  have inStep := settled.inStep
  unfold InStep at inStep
  cases phase : nvme.driver with
  | idle =>
    rw [phase] at inStep
    rcases busy with behind | held
    · exact absurd (inStep.fetched.trans settled.linked.doorbell.symm) behind
    · exact absurd inStep.none held
  | polling operation page command iters =>
    rw [phase] at inStep
    exact ⟨operation, page, command, iters, rfl, inStep⟩

theorem Settled.fetch_step (settled : nvme.Settled) (taken : nvme.fetch = some next) :
    next.Settled := by
  have linked := settled.linked
  unfold fetch at taken
  split_ifs at taken with empty
  cases taken
  obtain ⟨_, _, _, _, phase, own, underWay⟩ := settled.under_way (.inl empty)
  have caughtUp : nvme.controller.sqHead ≠ nvme.queue.sqTail := linked.doorbell ▸ empty
  cases underWay with
  | fetched _ fetched | executed _ _ fetched | posted _ fetched => exact absurd fetched caughtUp
  | queued _ follows none issued nothing =>
    refine ⟨⟨linked.doorbell, linked.credit, linked.tailBound, linked.headBound⟩, ?_,
      settled.proper⟩
    rw [phase]
    refine ⟨own, .fetched (nvme.sq nvme.controller.sqHead) follows ?_ issued
      ⟨nothing.tail, nothing.phase, nothing.lapped⟩⟩
    rw [none]
    rfl

theorem perform_spec {entry : SqEntry} (issued : Issued operation page command entry)
    (nvme : NvmeBlk Data) (status : Nat) (garbage : Data) :
    ∃ pages disk, nvme.perform entry status garbage =
        { nvme with pages, controller := { nvme.controller with disk } } ∧
      (status = 0 → ∀ sector, operation = .read sector → pages page = disk sector) := by
  unfold perform
  rw [issued.opcode]
  cases operation with
  | flush =>
    exact ⟨nvme.pages, nvme.controller.disk, rfl, fun _ _ other => by cases other⟩
  | write =>
    exact ⟨nvme.pages, _, rfl, fun _ _ other => by cases other⟩
  | read sector =>
    refine ⟨_, nvme.controller.disk, rfl, ?_⟩
    rintro good sector ⟨⟩
    have target : entry.prp1 = page := issued.prp1
    rw [if_pos good, target, issued.lba, update_self]
    rfl

variable {index : Nat}

theorem only_held {held found : SqEntry × Option Nat} (atIndex : [held][index]? = some found) :
    index = 0 ∧ found = held := by
  obtain ⟨bound, same⟩ := List.getElem?_eq_some_iff.mp atIndex
  rw [List.length_singleton] at bound
  obtain rfl : index = 0 := by omega
  exact ⟨rfl, same.symm⟩

theorem Settled.execute_step (settled : nvme.Settled) {status : Nat} {garbage : Data}
    (taken : nvme.execute index status garbage = some next) : next.Settled := by
  have linked := settled.linked
  unfold execute at taken
  split at taken
  case h_2 => cases taken
  rename_i entry atIndex
  cases taken
  have held : nvme.controller.inFlight ≠ [] := by
    intro empty
    rw [empty] at atIndex
    cases atIndex
  obtain ⟨_, _, _, _, phase, own, underWay⟩ := settled.under_way (.inr held)
  cases underWay with
  | queued _ _ none | posted _ _ none => exact absurd none held
  | executed _ _ _ one =>
    rw [one] at atIndex
    cases (only_held atIndex).2
  | fetched other fetched one issued nothing =>
    rw [one] at atIndex
    obtain ⟨first, same⟩ := only_held atIndex
    obtain ⟨rfl⟩ : entry = other := congrArg Prod.fst same
    obtain ⟨_, _, performed, brought⟩ := perform_spec issued nvme status garbage
    rw [performed]
    refine ⟨⟨linked.doorbell, linked.credit, linked.tailBound, linked.headBound⟩, ?_,
      settled.proper⟩
    rw [phase]
    refine ⟨own, .executed entry status fetched ?_ issued
      ⟨nothing.tail, nothing.phase, nothing.lapped⟩ brought⟩
    rw [one, first]
    rfl

theorem Settled.complete_step (settled : nvme.Settled) (taken : nvme.complete index = some next) :
    next.Settled := by
  have linked := settled.linked
  unfold complete at taken
  split at taken
  case h_2 => cases taken
  rename_i entry status atIndex
  by_cases full : (nvme.controller.cqTail + 1) % ioQueueDepth = nvme.controller.cqDoorbell
  · rw [if_pos full] at taken
    cases taken
  rw [if_neg full] at taken
  cases taken
  have held : nvme.controller.inFlight ≠ [] := by
    intro empty
    rw [empty] at atIndex
    cases atIndex
  obtain ⟨_, _, command, _, phase, own, underWay⟩ := settled.under_way (.inr held)
  cases underWay with
  | queued _ _ none | posted _ _ none => exact absurd none held
  | fetched _ _ one =>
    rw [one] at atIndex
    cases (only_held atIndex).2
  | executed other _ fetched one issued nothing done =>
    rw [one] at atIndex
    obtain ⟨first, same⟩ := only_held atIndex
    cases same
    refine ⟨⟨linked.doorbell, linked.credit, linked.tailBound, linked.headBound⟩, ?_,
      settled.proper⟩
    unfold InStep
    rw [phase]
    refine ⟨own, .posted status fetched ?_ ?_ done⟩
    · rw [one, first]
      rfl
    · -- The completion lands in the slot the driver polls, in the driver's phase.
      have tail := nothing.tail
      have posted : update nvme.cq nvme.controller.cqTail
          ⟨entry.cid, status, nvme.controller.phase, entry.command⟩ nvme.queue.cqHead =
            ⟨entry.cid, status, nvme.queue.cqPhase, command⟩ := by
        rw [tail, update_self, nothing.phase, issued.command]
      refine ⟨congrArg (fun slot => (slot + 1) % ioQueueDepth) tail, ?_,
        congrArg CqEntry.command posted, congrArg CqEntry.status posted,
        congrArg CqEntry.phase posted, ?_⟩
      · rw [nothing.phase]
      · intro slot bound other
        have unchanged : update nvme.cq nvme.controller.cqTail
            ⟨entry.cid, status, nvme.controller.phase, entry.command⟩ slot = nvme.cq slot :=
          update_of_ne (tail ▸ other) _ _
        exact (congrArg CqEntry.phase unchanged).trans (nothing.lapped slot bound)

theorem Settled.step_settled [Zero Data] (settled : nvme.Settled) {event : Event Data}
    (inTime : nvme.InTime event) (taken : nvme.step event = some next) : next.Settled := by
  cases event with
  | call => exact settled.called taken
  | poll => exact settled.polled_step inTime taken
  | fetch => exact settled.fetch_step taken
  | execute => exact settled.execute_step taken
  | complete => exact settled.complete_step taken

end Steps

theorem Settled.pages_allocated {nvme : NvmeBlk Data} (settled : nvme.Settled)
    {entry : SqEntry} (mem : entry ∈ nvme.outstanding) (buf : entry.opcode ≠ .flush) :
    nvme.allocated entry.prp1 = true := by
  have linked := settled.linked
  have allocatedOf : ∀ {operation : Operation Data} {page command : Nat},
      (operation.hasBuffer = true → nvme.allocated page = true) →
      Issued operation page command entry → nvme.allocated entry.prp1 = true := by
    intro operation page command own issued
    rw [issued.opcode] at buf
    rw [issued.prp1]
    cases operation with
    | flush => exact absurd rfl buf
    | read => exact own rfl
    | write => exact own rfl
  unfold outstanding at mem
  rw [linked.doorbell] at mem
  have noneQueued : nvme.controller.sqHead = nvme.queue.sqTail →
      (nvme.queue.sqTail + ioQueueDepth - nvme.controller.sqHead) % ioQueueDepth = 0 := by
    intro same
    rw [same, Nat.add_sub_cancel_left, Nat.mod_self]
  have inStep := settled.inStep
  unfold InStep at inStep
  cases phase : nvme.driver with
  | idle =>
    rw [phase] at inStep
    rw [noneQueued inStep.fetched, inStep.none] at mem
    cases mem
  | polling =>
    rw [phase] at inStep
    obtain ⟨own, underWay⟩ := inStep
    cases underWay with
    | queued bound _ none issued =>
      have one : (nvme.queue.sqTail + ioQueueDepth - nvme.controller.sqHead) %
          ioQueueDepth = 1 := by
        unfold ioQueueDepth at *
        omega
      have here : (nvme.controller.sqHead + 0) % ioQueueDepth = nvme.controller.sqHead :=
        Nat.mod_eq_of_lt bound
      rw [one, none] at mem
      have only : entry = nvme.sq ((nvme.controller.sqHead + 0) % ioQueueDepth) :=
        mem_singleton.mp mem
      rw [here] at only
      exact allocatedOf own (only ▸ issued)
    | fetched other taken one issued =>
      rw [noneQueued taken, one] at mem
      have only : entry = other := mem_singleton.mp mem
      exact allocatedOf own (only ▸ issued)
    | executed other _ taken one issued =>
      rw [noneQueued taken, one] at mem
      have only : entry = other := mem_singleton.mp mem
      exact allocatedOf own (only ▸ issued)
    | posted _ taken none =>
      rw [noneQueued taken, none] at mem
      cases mem

/-- In every run in which no poll reaches the limit, each call is decided by the
completion of its own command, an `Ok` read holds the content of its sector, and the page
of an unfinished command is never free. -/
theorem calls_decided_by_own_completion [Zero Data] (vwc : Bool) (disk : Nat → Data)
    (nvme : NvmeBlk Data) (reached : Reaches step InTime (start vwc disk) nvme) :
    (∀ outcome ∈ nvme.outcomes, outcome.Proper) ∧
      ∀ entry ∈ nvme.outstanding, entry.opcode ≠ .flush → nvme.allocated entry.prp1 = true := by
  have settled : nvme.Settled := Reaches.invariant
      (fun _ _ _ (before : Settled _) inTime taken => before.step_settled inTime taken)
      reached (settled_start vwc disk)
  exact ⟨settled.proper, fun _ member buffer => settled.pages_allocated member buffer⟩

/-- A sector is written and read back, and a third command is under way. -/
def exchange : List (Event Nat) :=
  [.call (.write 5 7) 512 1, .poll, .fetch, .poll, .execute 0 0 0, .complete 0, .poll,
    .call (.read 5) 512 1, .fetch, .execute 0 0 0, .poll, .complete 0, .poll,
    .call (.read 3) 512 2, .fetch, .poll]

theorem exchange_decided :
    (finalState step (start true id) exchange).outcomes =
        [⟨.write 5 7, 1, some 1, true, none, none⟩, ⟨.read 5, 2, some 2, true, some 7, some 7⟩] ∧
      (finalState step (start true id) exchange).outstanding = [⟨.read, 3, 3, 2, 3⟩] ∧
      (∀ outcome ∈ (finalState step (start true id) exchange).outcomes, outcome.Proper) ∧
      ∀ entry ∈ (finalState step (start true id) exchange).outstanding, entry.opcode ≠ .flush →
          (finalState step (start true id) exchange).allocated entry.prp1 = true :=
  ⟨by decide +kernel, by decide +kernel, calls_decided_by_own_completion true id _
      (reaches_final (by decide +kernel) (by decide +kernel))⟩

theorem polls_counted [Zero Data] (nvme : NvmeBlk Data) (operation : Operation Data)
    (page command : Nat) (unshown : nvme.polled.phase ≠ nvme.queue.cqPhase) (count : Nat) :
    ∀ iters, iters + count < pollWarnIters →
      runEvents step { nvme with driver := .polling operation page command iters }
          (replicate count .poll) =
        some { nvme with driver := .polling operation page command (iters + count) } := by
  induction count with
  | zero => exact fun iters _ => rfl
  | succ count ih =>
    intro iters bound
    have more : iters + 1 ≠ pollWarnIters := by omega
    have waited : step { nvme with driver := .polling operation page command iters } .poll =
        some { nvme with driver := .polling operation page command (iters + 1) } :=
      (if_neg unshown).trans (if_neg more)
    have total : iters + 1 + count = iters + (count + 1) := by omega
    rw [replicate_succ, runEvents, waited, Option.bind_some, ih (iters + 1) (by omega), total]

/-- A write that the controller does not fetch before the last poll. -/
def slowWrite : List (Event Nat) :=
  .call (.write 5 7) 512 1 :: (replicate 999999 .poll ++ [.poll])

/-- A read gets the page of the write, and then the controller comes to the write. -/
def lateCompletion : List (Event Nat) :=
  [.call (.read 3) 512 1, .fetch, .execute 0 0 0, .complete 0, .poll]

def lastPoll : NvmeBlk Nat :=
  { finalState step (start true id) [.call (.write 5 7) 512 1] with
    driver := .polling (.write 5 7) 1 1 999999 }

theorem run_slow_write (rest : List (Event Nat)) :
    runEvents step (start true id) (slowWrite ++ rest) =
      runEvents step lastPoll (.poll :: rest) := by
  have called := step_final
    (show (step (start true id) (.call (.write 5 7) 512 1)).isSome from by decide +kernel)
  have polls := polls_counted (finalState step (start true id) [.call (.write 5 7) 512 1])
    (.write 5 7) 1 1 (by decide +kernel) 999999 0 (by decide +kernel)
  rw [slowWrite, cons_append, append_assoc, runEvents, called, Option.bind_some, run_append]
  exact congrArg (fun state => Option.bind state fun middle =>
    runEvents step middle (.poll :: rest)) polls

/-- The write is given up and its page freed while the controller still has the command;
the next call, a read of another sector on that page, takes the write's completion and
returns zeros for a sector that holds 3. -/
theorem late_completion_taken : (∃ nvme, runEvents step (start true id) slowWrite = some nvme ∧
      nvme.outstanding = [⟨.write, 1, 5, 1, 1⟩] ∧ nvme.allocated 1 = false) ∧
    ∃ nvme, runEvents step (start true id) (slowWrite ++ lateCompletion) = some nvme ∧
      nvme.outcomes = [⟨.write 5 7, 1, none, false, none, none⟩,
        ⟨.read 3, 2, some 1, true, some 0, some 3⟩] := by
  have gaveUp := run_slow_write []
  rw [append_nil] at gaveUp
  refine ⟨⟨finalState step lastPoll [.poll], ?_, by decide +kernel, by decide +kernel⟩,
    ⟨finalState step lastPoll (.poll :: lateCompletion), ?_, by decide +kernel⟩⟩
  · rw [gaveUp]
    exact final_state_eq (by decide +kernel)
  · rw [run_slow_write]
    exact final_state_eq (by decide +kernel)

end NvmeBlk

end ViCell.Nvme

import ViCell.Cells.SpawnArgs

/-!
# Delivery of arguments

What a child's slot must hold while its first read is still to come, kept by
every step that leaves the argument slots to their owners.
-/

namespace ViCell.Cells

open Lib Function List Option

theorem personal_key_injective {first second : Nat} (firstSmall : first < 2 ^ 32)
    (secondSmall : second < 2 ^ 32) (same : personalKey first = personalKey second) :
    first = second := by
  have shifted := Nat.xor_right_injective same
  omega

variable {key : Nat}

theorem stash_other (map : Stash) {other : Nat} (apart : other ≠ key) (bytes : List ArgByte) :
    (map.stash key bytes).1[other]? = map[other]? := by
  unfold Stash.stash
  split
  · rfl
  · rw [Std.TreeMap.getElem?_insert, if_neg]
    rw [Nat.compare_eq_eq]
    exact fun same => apart same.symm

theorem stash_self (map : Stash) {bytes : List ArgByte} (short : bytes.length ≤ Stash.maxStashLen)
    (room : map.size < Stash.maxEntries ∨ map[key]? ≠ none) :
    (map.stash key bytes).1[key]? = some bytes := by
  unfold Stash.stash
  rw [if_neg]
  · rw [Std.TreeMap.getElem?_insert_self, take_of_length_le short]
  · rintro ⟨full, absent⟩
    rcases room with free | has
    · omega
    · exact has absent

theorem remove_other (map : Stash) {other : Nat} (apart : other ≠ key) :
    (map.remove key)[other]? = map[other]? := by
  unfold Stash.remove
  rw [Std.TreeMap.getElem?_erase, if_neg]
  rw [Nat.compare_eq_eq]
  exact fun same => apart same.symm

def Reading.looksShared : Reading → Bool
  | .personal _ => false
  | .shared key _ => decide (key = argvKey)

/-- What the child's slot holds while its arguments are still to be read. -/
def Transfer.Expects (wanted : List ArgByte) (slot : Option (List ArgByte)) : Transfer → Prop
  | .created => slot = none
  | .fetched bytes =>
    slot = none ∧ bytes = wanted ∧ wanted ≠ [] ∧ wanted.length ≤ Stash.maxStashLen
  | .finished => slot = if wanted = [] then none else some wanted

/-- What a read that has begun will return. -/
def Reading.Expects (wanted : List ArgByte) : Reading → Prop
  | .personal bytes => bytes = wanted
  | .shared key _ => key = argvKey → wanted = []

namespace ArgState

def Unread (state : ArgState) (child : Nat) : Prop :=
  ∃ record ∈ state.children child, record.args = none

instance (state : ArgState) (child : Nat) : Decidable (state.Unread child) :=
  inferInstanceAs (Decidable (∃ record ∈ state.children child, record.args = none))

/-- The key is not the slot of a child that has yet to read it. -/
def NotAwaited (state : ArgState) (key : Nat) : Prop :=
  ∀ child, child < state.nextTask → state.Unread child → personalKey child ≠ key

instance (state : ArgState) (key : Nat) : Decidable (state.NotAwaited key) :=
  inferInstanceAs (Decidable (∀ child, child < state.nextTask → _))

def shared (state : ArgState) : List ArgByte := (state.stash[argvKey]?).getD []

/-- The condition on a step. Slots of children are left alone; ids stay below
`2 ^ 32` and their slots are empty; when a spawn fetches the arguments the shared
key holds what its spawner stashed, 512 bytes at most; there is room for the
child's slot; the first read comes after the transfer and has room for the
arguments, and where it has to look under the shared key it finds nothing there. -/
def Meets (state : ArgState) : ArgEvent → Prop
  | .stash _ key _ => state.NotAwaited key
  | .stashClear _ key => state.NotAwaited key
  | .create _ => state.nextTask < 2 ^ 32 ∧ state.stash[personalKey state.nextTask]? = none
  | .createPlain => state.nextTask < 2 ^ 32 ∧ state.stash[personalKey state.nextTask]? = none
  | .fetch child => ∀ record ∈ state.children child,
      state.shared = record.wanted ∧ record.wanted.length ≤ 512
  | .place child =>
    state.stash.size < Stash.maxEntries ∨ state.stash[personalKey child]? ≠ none
  | .readBegin task key length => key = argvKey → ∀ record ∈ state.children task,
      record.args = none → record.transfer = .finished ∧ record.wanted.length ≤ length
  | .readEnd task => ∀ reading ∈ state.readings task, reading.looksShared = true →
      state.Unread task → state.shared = []

instance (state : ArgState) (event : ArgEvent) : Decidable (state.Meets event) := by
  unfold Meets
  split <;> infer_instance

structure Delivering (state : ArgState) : Prop where
  next : 0 < state.nextTask
  bounded : state.nextTask ≤ 2 ^ 32
  ids : ∀ child record, state.children child = some record → 0 < child ∧ child < state.nextTask
  readers : ∀ task reading, state.readings task = some reading → task < state.nextTask
  slots : ∀ child record, state.children child = some record → record.args = none →
    record.transfer.Expects record.wanted state.stash[personalKey child]?
  reads : ∀ child record reading, state.children child = some record → record.args = none →
    state.readings child = some reading → reading.Expects record.wanted
  args : ∀ child record args, state.children child = some record → record.args = some args →
    args = parseArgs record.wanted

theorem delivering_initial : initial.Delivering where
  next := by decide
  bounded := by decide
  ids := by
    intro child record found
    cases found
  readers := by
    intro task reading found
    cases found
  slots := by
    intro child record found
    cases found
  reads := by
    intro child record reading found
    cases found
  args := by
    intro child record args found
    cases found

section

variable {state : ArgState}

variable {stash : Stash}

theorem Delivering.with_stash (delivering : state.Delivering)
    (pending : Nat → Option (List ArgByte))
    (kept : ∀ child record, state.children child = some record → record.args = none →
      stash[personalKey child]? = state.stash[personalKey child]?) :
    Delivering { state with stash := stash, pending := pending } where
  next := delivering.next
  bounded := delivering.bounded
  ids := delivering.ids
  readers := delivering.readers
  slots := by
    intro child record found unread
    rw [kept child record found unread]
    exact delivering.slots child record found unread
  reads := delivering.reads
  args := delivering.args

variable {child : Nat} {record : Child}

theorem Delivering.awaited_ne (delivering : state.Delivering) {key : Nat}
    (spared : state.NotAwaited key) (found : state.children child = some record)
    (unread : record.args = none) : personalKey child ≠ key :=
  spared child (delivering.ids child record found).2 ⟨record, found, unread⟩

theorem Delivering.add_child (delivering : state.Delivering) (small : state.nextTask < 2 ^ 32)
    (unread : record.args = none)
    (expected : record.transfer.Expects record.wanted state.stash[personalKey state.nextTask]?) :
    (state.addChild record).Delivering := by
  have cases_ : ∀ child other, (state.addChild record).children child = some other →
      (child = state.nextTask ∧ other = record) ∨ state.children child = some other := by
    intro child other found
    unfold addChild at found
    dsimp only at found
    rw [update_apply] at found
    split at found
    · rename_i same
      cases found
      exact Or.inl ⟨same, rfl⟩
    · exact Or.inr found
  refine ⟨Nat.succ_pos _, small, ?_, ?_, ?_, ?_, ?_⟩
  · intro child other found
    change 0 < child ∧ child < state.nextTask + 1
    rcases cases_ child other found with ⟨same, _⟩ | old
    · have pos := delivering.next
      omega
    · have bounds := delivering.ids child other old
      omega
  · intro task reading found
    have bound := delivering.readers task reading found
    exact Nat.lt_succ_of_lt bound
  · intro child other found otherUnread
    rcases cases_ child other found with ⟨same, isRecord⟩ | old
    · subst same isRecord
      exact expected
    · exact delivering.slots child other old otherUnread
  · intro child other reading found otherUnread isReading
    rcases cases_ child other found with ⟨same, _⟩ | old
    · have bound := delivering.readers child reading isReading
      omega
    · exact delivering.reads child other reading old otherUnread isReading
  · intro child other args found isArgs
    rcases cases_ child other found with ⟨_, isRecord⟩ | old
    · rw [isRecord, unread] at isArgs
      cases isArgs
    · exact delivering.args child other args old isArgs

theorem Delivering.update_child (delivering : state.Delivering) {old new : Child}
    {readings : Nat → Option Reading} (found : state.children child = some old)
    (others : ∀ other record, other ≠ child → state.children other = some record →
      record.args = none → stash[personalKey other]? = state.stash[personalKey other]?)
    (elsewhere : ∀ other, other ≠ child → readings other = state.readings other)
    (fewer : ∀ reading, readings child = some reading → child < state.nextTask)
    (slot : new.args = none → new.transfer.Expects new.wanted stash[personalKey child]?)
    (read : new.args = none → ∀ reading, readings child = some reading → reading.Expects new.wanted)
    (out : ∀ args, new.args = some args → args = parseArgs new.wanted) :
    Delivering { state with
      stash := stash, readings := readings,
      children := update state.children child (some new) } := by
  have cases_ : ∀ other record, update state.children child (some new) other = some record →
      (other = child ∧ record = new) ∨ (other ≠ child ∧ state.children other = some record) := by
    intro other record isRecord
    rw [update_apply] at isRecord
    split at isRecord
    · rename_i isChild
      cases isRecord
      exact Or.inl ⟨isChild, rfl⟩
    · rename_i apart
      exact Or.inr ⟨apart, isRecord⟩
  refine ⟨delivering.next, delivering.bounded, ?_, ?_, ?_, ?_, ?_⟩
  · intro other record isRecord
    rcases cases_ other record isRecord with ⟨isChild, _⟩ | ⟨_, earlier⟩
    · rw [isChild]
      exact delivering.ids child old found
    · exact delivering.ids other record earlier
  · intro task reading isReading
    change readings task = some reading at isReading
    by_cases isChild : task = child
    · subst isChild
      exact fewer reading isReading
    · rw [elsewhere task isChild] at isReading
      exact delivering.readers task reading isReading
  · intro other record isRecord unread
    rcases cases_ other record isRecord with ⟨isChild, isNew⟩ | ⟨apart, earlier⟩
    · subst isChild isNew
      exact slot unread
    · rw [others other record apart earlier unread]
      exact delivering.slots other record earlier unread
  · intro other record reading isRecord unread isReading
    change readings other = some reading at isReading
    rcases cases_ other record isRecord with ⟨isChild, isNew⟩ | ⟨apart, earlier⟩
    · subst isChild isNew
      exact read unread reading isReading
    · rw [elsewhere other apart] at isReading
      exact delivering.reads other record reading earlier unread isReading
  · intro other record args isRecord isArgs
    rcases cases_ other record isRecord with ⟨_, isNew⟩ | ⟨_, earlier⟩
    · subst isNew
      exact out args isArgs
    · exact delivering.args other record args earlier isArgs

variable {task : Nat}

theorem Delivering.keys_apart (delivering : state.Delivering) (small : task < state.nextTask)
    (found : state.children child = some record) (apart : child ≠ task) :
    personalKey child ≠ personalKey task := by
  intro same
  have bounded := delivering.bounded
  have inside := (delivering.ids child record found).2
  exact apart (personal_key_injective (by omega) (by omega) same)

section

variable (delivering : state.Delivering)
include delivering

section

variable (found : state.children child = some record)
include found

theorem Delivering.set_transfer {transfer : Transfer}
    (others : ∀ other record, other ≠ child → state.children other = some record →
      record.args = none → stash[personalKey other]? = state.stash[personalKey other]?)
    (slot : record.args = none → transfer.Expects record.wanted stash[personalKey child]?) :
    Delivering { state.setTransfer child transfer with stash := stash } := by
  unfold setTransfer
  rw [found]
  exact delivering.update_child found others (fun _ _ => rfl)
    (fun reading isReading => delivering.readers child reading isReading) slot
    (fun unread reading isReading =>
      delivering.reads child record reading found unread isReading)
    (fun args isArgs => delivering.args child record args found isArgs)

theorem Delivering.fetch (fresh : record.transfer = .created) (met : state.Meets (.fetch child)) :
    (state.fetch child).Delivering := by
  obtain ⟨right, short⟩ := met record found
  have bytes : state.stash.restore argvKey 512 = record.wanted := by
    change state.shared.take 512 = record.wanted
    rw [right, take_of_length_le short]
  have empty : record.args = none → state.stash[personalKey child]? = none := by
    intro unread
    have slot := delivering.slots child record found unread
    rw [fresh] at slot
    exact slot
  unfold ArgState.fetch
  dsimp only
  rw [bytes]
  split
  · rename_i nothing
    refine delivering.set_transfer found (fun _ _ _ _ _ => rfl) ?_
    intro unread
    change state.stash[personalKey child]? = if record.wanted = [] then none else _
    rw [if_pos nothing]
    exact empty unread
  · rename_i something
    refine delivering.set_transfer found (fun _ _ _ _ _ => rfl) ?_
    intro unread
    refine ⟨empty unread, rfl, something, Nat.le_trans short ?_⟩
    decide

theorem Delivering.place {bytes : List ArgByte}
    (isFetched : record.transfer = .fetched bytes) (met : state.Meets (.place child)) :
    (state.place child bytes).Delivering := by
  refine delivering.set_transfer found ?_ ?_
  · intro other otherRecord apart isRecord _
    apply stash_other
    exact delivering.keys_apart (delivering.ids child record found).2 isRecord apart
  · intro unread
    have slot := delivering.slots child record found unread
    rw [isFetched] at slot
    obtain ⟨_, same, something, short⟩ := slot
    subst same
    change _ = if record.wanted = [] then none else some record.wanted
    rw [if_neg something]
    exact stash_self state.stash short met

theorem Delivering.restore_finished
    (unread : record.args = none) (finished : record.transfer = .finished) {length : Nat}
    (fits : record.wanted.length ≤ length) :
    state.stash.restore (personalKey child) length = record.wanted := by
  have slot := delivering.slots child record found unread
  rw [finished] at slot
  unfold Stash.restore
  rw [slot]
  split
  · rename_i nothing
    rw [nothing]
    exact take_nil
  · exact take_of_length_le fits

end

theorem Delivering.put_reading (put : Option Reading)
    (valid : ∀ reading, put = some reading → task < state.nextTask ∧
      ∀ record, state.children task = some record → record.args = none →
        reading.Expects record.wanted) :
    Delivering { state with readings := update state.readings task put } where
  next := delivering.next
  bounded := delivering.bounded
  ids := delivering.ids
  readers := by
    intro other reading isReading
    rcases eq_or_ne other task with rfl | apart
    · exact (valid reading (update_self other put state.readings ▸ isReading)).1
    · exact delivering.readers other reading (update_of_ne apart put state.readings ▸ isReading)
  slots := delivering.slots
  reads := by
    intro child record reading found unread isReading
    rcases eq_or_ne child task with rfl | apart
    · exact (valid reading (update_self child put state.readings ▸ isReading)).2 record found unread
    · exact delivering.reads child record reading found unread
        (update_of_ne apart put state.readings ▸ isReading)
  args := delivering.args

theorem Delivering.read_begin {key length : Nat} (exists_ : task < state.nextTask)
    (met : state.Meets (.readBegin task key length)) :
    (state.readBegin task key length).Delivering := by
  unfold ArgState.readBegin
  dsimp only
  split
  · rename_i personal
    refine delivering.put_reading _ (fun reading same => ⟨exists_, ?_⟩)
    cases same
    intro record found unread
    obtain ⟨finished, fits⟩ := met personal.1 record found unread
    exact delivering.restore_finished found unread finished fits
  · rename_i elsewhere
    refine delivering.put_reading _ (fun reading same => ⟨exists_, ?_⟩)
    cases same
    intro record found unread isArgv
    obtain ⟨finished, fits⟩ := met isArgv record found unread
    have bytes := delivering.restore_finished found unread finished fits
    by_contra something
    apply elsewhere
    rw [bytes]
    exact ⟨isArgv, something⟩

theorem Delivering.return_args {bytes : List ArgByte}
    (right : ∀ record, state.children task = some record → record.args = none →
      bytes = record.wanted)
    (others : ∀ other record, other ≠ task → state.children other = some record →
      record.args = none → stash[personalKey other]? = state.stash[personalKey other]?) :
    ({ state with stash := stash }.returnArgs task bytes).Delivering := by
  unfold ArgState.returnArgs
  cases found : state.children task with
  | none =>
    have unchanged : update state.children task none = state.children := by
      rw [← found]
      exact update_eq_self task state.children
    rw [map_none, unchanged]
    refine (delivering.put_reading none nofun).with_stash state.pending ?_
    intro child record isRecord unread
    refine others child record ?_ isRecord unread
    intro same
    subst same
    rw [found] at isRecord
    cases isRecord
  | some record =>
    have filled : record.args.or (some (parseArgs bytes)) ≠ none := by
      cases record.args <;> simp
    refine delivering.update_child found others ?_ ?_ ?_ ?_ ?_
    · intro other apart
      exact update_of_ne apart _ _
    · intro reading isReading
      rw [update_self] at isReading
      cases isReading
    · intro unread
      exact absurd unread filled
    · intro unread
      exact absurd unread filled
    · intro args isArgs
      dsimp only at isArgs ⊢
      cases earlier : record.args with
      | none =>
        rw [earlier, right record found earlier] at isArgs
        exact (some.inj isArgs).symm
      | some =>
        rw [earlier] at isArgs
        cases isArgs
        exact delivering.args task record _ found earlier

theorem Delivering.read_end {reading : Reading} (isReading : state.readings task = some reading)
    (met : state.Meets (.readEnd task)) : (state.readEnd task reading).Delivering := by
  cases reading with
  | personal =>
    refine delivering.return_args ?_ ?_
    · intro record found unread
      exact delivering.reads task record _ found unread isReading
    · intro other record apart found _
      apply remove_other
      exact delivering.keys_apart (delivering.readers task _ isReading) found apart
  | shared _ length =>
    unfold ArgState.readEnd
    dsimp only
    split
    · rename_i isArgv
      subst isArgv
      refine delivering.return_args ?_ (fun _ _ _ _ _ => rfl)
      intro record found unread
      have nothing := delivering.reads task record _ found unread isReading rfl
      have looks : (Reading.shared argvKey length).looksShared = true := by
        simp [Reading.looksShared]
      have shared := met _ isReading looks ⟨record, found, unread⟩
      change state.shared.take length = record.wanted
      rw [shared, nothing]
      exact take_nil
    · exact delivering.put_reading none nofun

end

theorem transfer_found {transfer : Transfer}
    (isTransfer : (state.children child).map Child.transfer = some transfer) :
    ∃ record, state.children child = some record ∧ record.transfer = transfer :=
  map_eq_some_iff.mp isTransfer

theorem step_delivering {event : ArgEvent} {after : ArgState} (delivering : state.Delivering)
    (met : state.Meets event) (ran : state.step event = some after) : after.Delivering := by
  cases event with
  | stash _ _ bytes =>
    dsimp only [step] at ran
    split at ran
    · cases ran
      refine delivering.with_stash _ ?_
      intro child record found unread
      exact stash_other state.stash (delivering.awaited_ne met found unread) bytes
    · cases ran
  | stashClear =>
    cases ran
    refine delivering.with_stash state.pending ?_
    intro child record found unread
    exact remove_other state.stash (delivering.awaited_ne met found unread)
  | create spawner =>
    cases ran
    have added : (state.addChild ⟨(state.pending spawner).getD [], .created, none⟩).Delivering :=
      delivering.add_child met.1 rfl met.2
    exact added.with_stash _ (fun _ _ _ _ => rfl)
  | createPlain =>
    cases ran
    exact delivering.add_child met.1 rfl met.2
  | fetch =>
    dsimp only [step] at ran
    split at ran
    · rename_i isCreated
      cases ran
      obtain ⟨record, found, fresh⟩ := transfer_found isCreated
      exact delivering.fetch found fresh met
    · cases ran
  | place =>
    dsimp only [step] at ran
    split at ran
    · rename_i bytes isFetched
      cases ran
      obtain ⟨record, found, fetched⟩ := transfer_found isFetched
      exact delivering.place found fetched met
    · cases ran
  | readBegin =>
    dsimp only [step] at ran
    split at ran
    · rename_i enabled
      cases ran
      exact delivering.read_begin enabled.1 met
    · cases ran
  | readEnd =>
    obtain ⟨_, isReading, same⟩ := map_eq_some_iff.mp ran
    subst same
    exact delivering.read_end isReading met

end

/-- In every run whose steps meet the condition, what the first argument read of
a child returned are the arguments its spawner stashed for the spawn, and none if
it stashed none. -/
theorem children_read_own_args {state : ArgState} (reached : Reaches step Meets initial state) :
    ∀ child record args, state.children child = some record → record.args = some args →
      args = parseArgs record.wanted ∧ (record.wanted = [] → args = []) := by
  have delivering : state.Delivering := reached.invariant
    (fun _ _ _ held met stepped => step_delivering held met stepped) delivering_initial
  intro child record args found isArgs
  have right := delivering.args child record args found isArgs
  refine ⟨right, ?_⟩
  intro nothing
  rw [right, nothing]
  rfl

def argA : List ArgByte := [97]

def argBC : List ArgByte := [98, 32, 99]

/-- Two spawners take turns; the second child reads while a third one, which gets
no arguments, is still to come. -/
def orderlyRun : List ArgEvent :=
  [.stash 1 argvKey argA, .create 1, .fetch 2, .place 2, .stash 2 argvKey argBC, .create 2,
    .readBegin 2 argvKey 512, .fetch 3, .place 3, .readEnd 2, .readBegin 3 argvKey 512,
    .stash 1 argvKey [], .readEnd 3, .create 1, .fetch 4, .readBegin 4 argvKey 512, .readEnd 4]

theorem orderly_run_delivers : ∃ state record, runEvents step initial orderlyRun = some state ∧
      state.children 3 = some record ∧ record.wanted = argBC ∧
      record.args = some (parseArgs argBC) ∧ parseArgs argBC = [[98], [99]] := by
  have evaluated : (runEvents step initial orderlyRun).bind (fun state => state.children 3) =
      some ⟨argBC, .finished, some [[98], [99]]⟩ := by
    decide +kernel
  have met : AllMeet step Meets initial orderlyRun := by decide +kernel
  obtain ⟨state, executed, found⟩ := bind_eq_some_iff.mp evaluated
  have right := (children_read_own_args (reaches_of_run executed met) 3 _ _ found rfl).1
  exact ⟨state, _, executed, found, rfl, congrArg some right, right.symm⟩

/-- A child spawned without arguments reads those of the spawn before it, or
those that are stashed for the next spawn. -/
theorem child_reads_foreign_args :
    (runEvents step initial
        [.stash 1 argvKey argA, .create 1, .fetch 2, .place 2, .readBegin 2 argvKey 512, .readEnd 2,
          .create 2, .fetch 3, .place 3, .readBegin 3 argvKey 512, .readEnd 3]).bind
      (fun state => state.children 3) = some ⟨[], .finished, some [[97]]⟩ ∧
    (runEvents step initial
        [.stash 1 argvKey [], .create 1, .fetch 2, .stash 1 argvKey argA, .readBegin 2 argvKey 512,
          .readEnd 2]).bind
      (fun state => state.children 2) = some ⟨[], .finished, some [[97]]⟩ := by
  decide +kernel

end ArgState

end ViCell.Cells

import ViCell.Audit.Ring

/-!
# The audit ring is a queue of records

As long as no two calls are inside `log_event` at once, and no two inside
`drain`, what has been drained and what is stored are together the bytes of the
accepted records.
-/

namespace ViCell.Audit

open Lib Lib.RingWindow Function List

theorem ring_divides_word : bufSize ∣ 2 ^ 64 := by decide

theorem and_mask (place : Nat) : place &&& mask = place % bufSize := by
  exact Nat.and_two_pow_sub_one_eq_mod place 18

theorem wrapped_place (start offset : Nat) :
    wrappingAdd (start % 2 ^ 64) offset &&& mask = (start + offset) % bufSize := by
  rw [and_mask, wrappingAdd, Nat.mod_add_mod, Nat.mod_mod_of_dvd _ ring_divides_word]

theorem wrapping_add_counter (start count : Nat) :
    wrappingAdd (start % 2 ^ 64) count = (start + count) % 2 ^ 64 := by
  rw [wrappingAdd, Nat.mod_add_mod]

theorem wrapping_sub_counter (start : Nat) {count : Nat} (small : count ≤ bufSize) :
    wrappingSub ((start + count) % 2 ^ 64) (start % 2 ^ 64) = count := by
  apply wrapped_difference
  exact Nat.lt_of_le_of_lt small (by decide)

@[simp] theorem length_record (record : Record) :
    record.bytes.length = recordLen record.payload := by
  simp only [Record.bytes, length_append, Bytes.length_encode, length_cons,
    length_take, recordLen, payloadLen]
  omega

theorem record_len_le (payload : List Byte) : recordLen payload ≤ bufSize := by
  have bound : payloadLen payload ≤ 255 := Nat.min_le_right _ _
  have size : (265 : Nat) ≤ bufSize := by decide
  unfold recordLen
  omega

namespace AuditRing

variable {contexts : Nat}

/-- What holds of a context in the middle of a call. `produced` counts the bytes
of the accepted records, `consumed` those that were drained. -/
def Sound (ring : AuditRing contexts) (origin consumed produced : Nat) : Activity → Prop
  | .idle => True
  | .logging _ _ head => head = ring.head
  | .writing record head written =>
    head = ring.head ∧ written ≤ record.bytes.length ∧
      produced - consumed + record.bytes.length ≤ bufSize ∧
      window ring.buf bufSize (origin + produced) written = record.bytes.take written
  | .draining _ head =>
    ∃ seen, consumed ≤ seen ∧ seen ≤ produced ∧ head = (origin + seen) % 2 ^ 64
  | .copying tail toCopy out =>
    tail = ring.tail ∧ consumed + toCopy ≤ produced ∧ out.length ≤ toCopy ∧
      out = window ring.buf bufSize (origin + consumed) out.length

/-- The counters, the bytes between them and the calls under way. -/
structure Consistent (ring : AuditRing contexts) (origin : Nat) : Prop where
  head : ring.head = (origin + ring.stream.length) % 2 ^ 64
  tail : ring.tail = (origin + ring.drained.length) % 2 ^ 64
  order : ring.drained.length ≤ ring.stream.length
  room : ring.stream.length - ring.drained.length ≤ bufSize
  content : ring.drained ++ window ring.buf bufSize (origin + ring.drained.length)
    (ring.stream.length - ring.drained.length) = ring.stream
  sound : ∀ context, ring.Sound origin ring.drained.length ring.stream.length
    (ring.contexts context)
  oneLog : ∀ first second, (ring.contexts first).isLog = true →
    (ring.contexts second).isLog = true → first = second
  oneDrain : ∀ first second, (ring.contexts first).isDrain = true →
    (ring.contexts second).isDrain = true → first = second

theorem consistent_empty (origin : Nat) : (empty origin : AuditRing contexts).Consistent origin where
  head := rfl
  tail := rfl
  order := Nat.le_refl _
  room := Nat.zero_le _
  content := rfl
  sound := fun _ => trivial
  oneLog := fun _ _ isLog _ => nomatch isLog
  oneDrain := fun _ _ isDrain _ => nomatch isDrain

variable {origin : Nat}

section

variable {ring : AuditRing contexts} (consistent : ring.Consistent origin)
include consistent

theorem Consistent.sound_at {context : Fin contexts} {activity : Activity}
    (calling : ring.contexts context = activity) :
    ring.Sound origin ring.drained.length ring.stream.length activity :=
  calling ▸ consistent.sound context

theorem Consistent.stored_length :
    wrappingSub ring.head ring.tail = ring.stream.length - ring.drained.length := by
  have split : origin + ring.stream.length =
      origin + ring.drained.length + (ring.stream.length - ring.drained.length) := by
    have order := consistent.order
    omega
  rw [consistent.head, consistent.tail, split]
  exact wrapping_sub_counter _ consistent.room

theorem Consistent.stored_eq : ring.stored = window ring.buf bufSize (origin + ring.drained.length)
      (ring.stream.length - ring.drained.length) := by
  unfold stored
  rw [consistent.stored_length, consistent.tail, window_wrapped ring_divides_word]

theorem Consistent.drained_stored : ring.drained ++ ring.stored = ring.stream := by
  rw [consistent.stored_eq]
  exact consistent.content

end

section Steps

variable {ring after : AuditRing contexts} {origin : Nat} {context : Fin contexts}

theorem contexts_enter (other : Fin contexts) (activity : Activity) :
    (ring.enter context activity).contexts other =
      if other = context then activity else ring.contexts other :=
  update_apply _ _ _ _

section

variable {kind : Activity → Bool} {activity : Activity}
  (one : ∀ first second, kind (ring.contexts first) = true →
    kind (ring.contexts second) = true → first = second)
include one

theorem other_of_one (calling : ring.contexts context = activity) (isKind : kind activity = true)
    (other : Fin contexts) (ne : other ≠ context) :
    kind (ring.contexts other) = false := by
  rw [Bool.eq_false_iff]
  intro otherIs
  exact ne (one other context otherIs (calling ▸ isKind))

theorem none_of_one (idle : kind .idle = false) (calling : ring.contexts context = activity)
    (isKind : kind activity = true) (other : Fin contexts) :
    kind ((ring.enter context .idle).contexts other) = false := by
  rw [contexts_enter]
  split
  · exact idle
  next ne => exact other_of_one one calling isKind other ne

theorem one_enter (alone : kind activity = true → ∀ other, other ≠ context →
      kind (ring.contexts other) = false) (first second : Fin contexts)
    (firstIn : kind ((ring.enter context activity).contexts first) = true)
    (secondIn : kind ((ring.enter context activity).contexts second) = true) :
    first = second := by
  rw [contexts_enter] at firstIn secondIn
  split at firstIn
  next isFirst =>
    split at secondIn
    next isSecond => exact isFirst.trans isSecond.symm
    next ne =>
      rw [alone firstIn second ne] at secondIn
      cases secondIn
  next firstOther =>
    split at secondIn
    next isSecond =>
      rw [alone secondIn first firstOther] at firstIn
      cases firstIn
    next => exact one first second firstIn secondIn

end

theorem Consistent.enter (consistent : ring.Consistent origin) {activity : Activity}
    (sound : ring.Sound origin ring.drained.length ring.stream.length activity)
    (logAlone : activity.isLog = true → ∀ other, other ≠ context →
      (ring.contexts other).isLog = false)
    (drainAlone : activity.isDrain = true → ∀ other, other ≠ context →
      (ring.contexts other).isDrain = false) :
    (ring.enter context activity).Consistent origin where
  head := consistent.head
  tail := consistent.tail
  order := consistent.order
  room := consistent.room
  content := consistent.content
  sound := by
    intro other
    rw [contexts_enter]
    split
    · exact sound
    · exact consistent.sound other
  oneLog := one_enter consistent.oneLog logAlone
  oneDrain := one_enter consistent.oneDrain drainAlone

theorem Consistent.leave (consistent : ring.Consistent origin) (context : Fin contexts) :
    (ring.enter context .idle).Consistent origin := by
  apply consistent.enter
  · trivial
  · exact fun isLog => nomatch isLog
  · exact fun isDrain => nomatch isDrain

theorem Consistent.with_dropped (consistent : ring.Consistent origin) (dropped : Nat) :
    Consistent { ring with dropped := dropped } origin :=
  ⟨consistent.head, consistent.tail, consistent.order, consistent.room, consistent.content,
    consistent.sound, consistent.oneLog, consistent.oneDrain⟩

variable {event : AuditEvent} {payload : List Byte}

section

variable (consistent : ring.Consistent origin)
include consistent

theorem log_load_head_consistent (alone : ∀ other, (ring.contexts other).isLog = false)
    (run : ring.logLoadHead context event payload = some after) : after.Consistent origin := by
  unfold logLoadHead at run
  split at run
  next =>
    cases run
    apply consistent.enter
    · rfl
    · exact fun _ other _ => alone other
    · exact fun isDrain => nomatch isDrain
  next => cases run

theorem drain_load_head_consistent {room : Nat}
    (alone : ∀ other, (ring.contexts other).isDrain = false)
    (run : ring.drainLoadHead context room = some after) : after.Consistent origin := by
  unfold drainLoadHead at run
  split at run
  next =>
    cases run
    apply consistent.enter
    · exact ⟨ring.stream.length, consistent.order, Nat.le_refl _, consistent.head⟩
    · exact fun isLog => nomatch isLog
    · exact fun _ other _ => alone other
  next => cases run

/-- The test of `log_event` compares the bytes stored now with the ring's size. -/
theorem Consistent.log_test {head : Nat}
    (calling : ring.contexts context = .logging event payload head) :
    (wrappingSub head ring.tail + recordLen payload) % 2 ^ 64 =
      ring.stored.length + recordLen payload := by
  have isHead : head = ring.head := consistent.sound_at calling
  have small : ring.stored.length + recordLen payload < 2 ^ 64 := by
    have stored : ring.stored.length ≤ bufSize := by
      rw [consistent.stored_eq, length_window]
      exact consistent.room
    have record := record_len_le payload
    have size : bufSize + bufSize < 2 ^ 64 := by decide
    omega
  have length : wrappingSub head ring.tail = ring.stored.length := by
    rw [isHead, stored, length_window]
  rw [length, Nat.mod_eq_of_lt small]

theorem log_load_tail_consistent {mtime : Nat} (run : ring.logLoadTail context mtime = some after) :
    after.Consistent origin := by
  unfold logLoadTail at run
  split at run
  next event payload head calling =>
    have test := consistent.log_test calling
    rw [test] at run
    split at run
    next =>
      cases run
      exact (consistent.leave context).with_dropped _
    next fits =>
      cases run
      apply consistent.enter
      · refine ⟨consistent.sound_at calling, Nat.zero_le _, ?_, ?_⟩
        · rw [length_record]
          rw [consistent.stored_eq, length_window] at fits
          exact Nat.le_of_not_lt fits
        · rfl
      · exact fun _ => other_of_one consistent.oneLog calling rfl
      · exact fun isDrain => nomatch isDrain
  next => cases run

theorem Consistent.write_free (byte : Byte) {distance : Nat}
    (noLog : ∀ other, (ring.contexts other).isLog = false)
    (free : ring.stream.length - ring.drained.length ≤ distance) (near : distance < bufSize) :
    Consistent { ring with
      buf := update ring.buf
        ((origin + ring.drained.length + distance) % bufSize) byte } origin := by
  have kept : ∀ count, count ≤ ring.stream.length - ring.drained.length →
      window (update ring.buf ((origin + ring.drained.length + distance) % bufSize) byte)
        bufSize (origin + ring.drained.length) count =
        window ring.buf bufSize (origin + ring.drained.length) count := by
    intro count inside
    exact window_write_after (Nat.le_trans inside free) near byte
  refine ⟨consistent.head, consistent.tail, consistent.order, consistent.room, ?_, ?_,
    consistent.oneLog, consistent.oneDrain⟩
  · exact (congrArg _ (kept _ (Nat.le_refl _))).trans consistent.content
  · intro other
    have sound := consistent.sound other
    have notLog := noLog other
    cases inside : ring.contexts other with
    | idle => trivial
    | logging event payload head | writing record head written =>
      rw [inside] at notLog
      cases notLog
    | draining =>
      rw [inside] at sound
      exact sound
    | copying _ _ out =>
      rw [inside] at sound
      obtain ⟨isTail, available, copied, bytes⟩ := sound
      refine ⟨isTail, available, copied, ?_⟩
      have inWindow : out.length ≤ ring.stream.length - ring.drained.length := by
        omega
      exact bytes.trans (kept out.length inWindow).symm

theorem log_write_byte_consistent (run : ring.logWriteByte context = some after) :
    after.Consistent origin := by
  unfold logWriteByte at run
  split at run
  next record head written calling =>
    obtain ⟨byte, found, built⟩ := Option.map_eq_some_iff.mp run
    obtain ⟨isHead, _, fits, prior⟩ := consistent.sound_at calling
    obtain ⟨within, isByte⟩ := List.getElem?_eq_some_iff.mp found
    have order := consistent.order
    have place : wrappingAdd head written &&& mask =
        (origin + ring.stream.length + written) % bufSize := by
      rw [isHead, consistent.head, wrapped_place]
    have offset : origin + ring.stream.length + written = origin + ring.drained.length +
        (ring.stream.length - ring.drained.length + written) := by
      omega
    -- The context is taken out of the call, the byte written, and the context put back.
    have noLog := none_of_one consistent.oneLog rfl calling rfl
    have near : ring.stream.length - ring.drained.length + written < bufSize := by omega
    have stored := (consistent.leave context).write_free byte noLog
      (Nat.le_add_right _ written) near
    have pushed : window (update ring.buf
        ((origin + ring.stream.length + written) % bufSize) byte) bufSize
        (origin + ring.stream.length) (written + 1) = record.bytes.take (written + 1) := by
      rw [window_push (by omega), prior, take_succ_eq_append_getElem within, isByte]
    have same : after = AuditRing.enter
        { ring.enter context .idle with
          buf := update ring.buf ((origin + ring.drained.length +
            (ring.stream.length - ring.drained.length + written)) % bufSize) byte }
        context (.writing record head (written + 1)) := by
      rw [← built, place, offset]
      simp only [AuditRing.enter, update_idem]
    rw [same]
    apply stored.enter
    · refine ⟨isHead, within, fits, ?_⟩
      rw [offset] at pushed
      exact pushed
    · exact fun _ other _ => noLog other
    · exact fun isDrain => nomatch isDrain
  next => cases run

end

section

variable (consistent : ring.Consistent origin)
include consistent

theorem Consistent.append {record : Record} (noLog : ∀ other, (ring.contexts other).isLog = false)
    (fits : ring.stream.length - ring.drained.length + record.bytes.length ≤ bufSize)
    (whole : window ring.buf bufSize (origin + ring.stream.length) record.bytes.length =
      record.bytes) :
    Consistent { ring with
      head := wrappingAdd ring.head (recordLen record.payload)
      accepted := ring.accepted ++ [record] } origin := by
  have order := consistent.order
  have longer : (ring.stream ++ record.bytes).length =
      ring.stream.length + record.bytes.length := length_append
  have grown : stream { ring with
      head := wrappingAdd ring.head (recordLen record.payload),
      accepted := ring.accepted ++ [record] } = ring.stream ++ record.bytes := by
    simp only [stream, flatMap_append, flatMap_singleton]
  constructor
  · rw [grown, longer, length_record]
    rw [consistent.head, wrapping_add_counter, Nat.add_assoc]
  · exact consistent.tail
  · rw [grown, longer]
    exact Nat.le_trans order (Nat.le_add_right _ _)
  · rw [grown, longer]
    change ring.stream.length + record.bytes.length - ring.drained.length ≤ bufSize
    omega
  · rw [grown, longer]
    have split : ring.stream.length + record.bytes.length - ring.drained.length =
        ring.stream.length - ring.drained.length + record.bytes.length := by
      omega
    have start : origin + ring.drained.length +
        (ring.stream.length - ring.drained.length) = origin + ring.stream.length := by
      omega
    rw [split, window_add, start, whole, ← append_assoc, consistent.content]
  · intro other
    rw [grown, longer]
    have sound := consistent.sound other
    have notLog := noLog other
    cases inside : ring.contexts other with
    | idle => trivial
    | logging event payload head | writing record head written =>
      rw [inside] at notLog
      cases notLog
    | draining =>
      rw [inside] at sound
      obtain ⟨seen, later, upTo, isHead⟩ := sound
      exact ⟨seen, later, Nat.le_trans upTo (Nat.le_add_right _ _), isHead⟩
    | copying =>
      rw [inside] at sound
      obtain ⟨isTail, available, copied, bytes⟩ := sound
      exact ⟨isTail, Nat.le_trans available (Nat.le_add_right _ _), copied, bytes⟩
  · exact consistent.oneLog
  · exact consistent.oneDrain

theorem log_publish_consistent (run : ring.logPublish context = some after) :
    after.Consistent origin ∧ ∃ record, ring.contexts context =
        .writing record ring.head record.bytes.length ∧
      after.accepted = ring.accepted ++ [record] ∧ after.drained = ring.drained := by
  unfold logPublish at run
  split at run
  next record head written calling =>
    split at run
    next complete =>
      cases run
      obtain ⟨isHead, _, fits, whole⟩ := consistent.sound_at calling
      rw [complete, take_length] at whole
      have noLog := none_of_one consistent.oneLog rfl calling rfl
      refine ⟨?_, record, ?_, rfl, rfl⟩
      · rw [isHead]
        exact (consistent.leave context).append noLog fits whole
      · rw [calling, isHead, complete]
    next => cases run
  next => cases run

theorem drain_load_tail_consistent (run : ring.drainLoadTail context = some after) :
    after.Consistent origin := by
  unfold drainLoadTail at run
  split at run
  next room head calling =>
    obtain ⟨seen, after, _, isHead⟩ := consistent.sound_at calling
    have filled := consistent.room
    have available : wrappingSub head ring.tail = seen - ring.drained.length := by
      have split : origin + seen = origin + ring.drained.length + (seen - ring.drained.length) := by
        omega
      rw [isHead, consistent.tail, split]
      exact wrapping_sub_counter _ (by omega)
    dsimp only at run
    split at run
    next =>
      cases run
      exact consistent.leave context
    next =>
      cases run
      apply consistent.enter
      · refine ⟨rfl, ?_, Nat.zero_le _, rfl⟩
        omega
      · exact fun isLog => nomatch isLog
      · exact fun _ => other_of_one consistent.oneDrain calling rfl
  next => cases run

theorem drain_copy_byte_consistent (run : ring.drainCopyByte context = some after) :
    after.Consistent origin := by
  unfold drainCopyByte at run
  split at run
  next tail toCopy out calling =>
    obtain ⟨isTail, available, _, bytes⟩ := consistent.sound_at calling
    split at run
    next more =>
      cases run
      have place : wrappingAdd tail out.length &&& mask =
          (origin + ring.drained.length + out.length) % bufSize := by
        rw [isTail, consistent.tail, wrapped_place]
      apply consistent.enter
      · refine ⟨isTail, available, ?_, ?_⟩
        · rw [length_append]
          exact more
        · rw [length_append, length_singleton, window_succ, ← bytes, place]
      · exact fun isLog => nomatch isLog
      · exact fun _ => other_of_one consistent.oneDrain calling rfl
    next => cases run
  next => cases run

theorem Consistent.take {count : Nat} (noDrain : ∀ other, (ring.contexts other).isDrain = false)
    (available : ring.drained.length + count ≤ ring.stream.length) :
    Consistent { ring with
      tail := wrappingAdd ring.tail count
      drained := ring.drained ++
        window ring.buf bufSize (origin + ring.drained.length) count } origin := by
  have filled := consistent.room
  have longer : (ring.drained ++
      window ring.buf bufSize (origin + ring.drained.length) count).length =
        ring.drained.length + count := by
    rw [length_append, length_window]
  constructor
  · exact consistent.head
  · rw [longer, consistent.tail, wrapping_add_counter, Nat.add_assoc]
  · rw [longer]
    exact available
  · rw [longer]
    change ring.stream.length - (ring.drained.length + count) ≤ bufSize
    omega
  · rw [longer]
    have split : ring.stream.length - ring.drained.length =
        count + (ring.stream.length - (ring.drained.length + count)) := by
      omega
    have content := consistent.content
    rw [split, window_add, ← append_assoc, Nat.add_assoc] at content
    exact content
  · intro other
    rw [longer]
    have sound := consistent.sound other
    have notDrain := noDrain other
    cases inside : ring.contexts other with
    | idle => trivial
    | logging =>
      rw [inside] at sound
      exact sound
    | writing record =>
      rw [inside] at sound
      obtain ⟨isHead, within, _, prior⟩ := sound
      refine ⟨isHead, within, ?_, prior⟩
      change ring.stream.length - (ring.drained.length + count) + record.bytes.length ≤ bufSize
      omega
    | draining room head | copying tail toCopy out =>
      rw [inside] at notDrain
      cases notDrain
  · exact consistent.oneLog
  · exact consistent.oneDrain

theorem drain_store_tail_consistent (run : ring.drainStoreTail context = some after) :
    after.Consistent origin := by
  unfold drainStoreTail at run
  split at run
  next tail toCopy out calling =>
    split at run
    next complete =>
      cases run
      obtain ⟨isTail, available, _, bytes⟩ := consistent.sound_at calling
      rw [isTail, bytes, complete]
      exact (consistent.leave context).take
        (none_of_one consistent.oneDrain rfl calling rfl) available
    next => cases run
  next => cases run

theorem step_consistent {event : RingStep contexts} (alone : ring.Alone event)
    (ran : ring.step event = some after) : after.Consistent origin := by
  cases event with
  | logLoadHead => exact log_load_head_consistent consistent alone ran
  | logLoadTail => exact log_load_tail_consistent consistent ran
  | logWriteByte => exact log_write_byte_consistent consistent ran
  | logPublish => exact (log_publish_consistent consistent ran).1
  | drainLoadHead => exact drain_load_head_consistent consistent alone ran
  | drainLoadTail => exact drain_load_tail_consistent consistent ran
  | drainCopyByte => exact drain_copy_byte_consistent consistent ran
  | drainStoreTail => exact drain_store_tail_consistent consistent ran

theorem Consistent.log_publish (ran : ring.step (.logPublish context) = some after) :
    ∃ record, ring.contexts context = .writing record ring.head record.bytes.length ∧
      after.accepted = ring.accepted ++ [record] ∧ after.stored = ring.stored ++ record.bytes := by
  obtain ⟨still, record, calling, accepted, drained⟩ := log_publish_consistent consistent ran
  refine ⟨record, calling, accepted, ?_⟩
  have was := consistent.drained_stored
  have later := still.drained_stored
  have grown : after.stream = ring.stream ++ record.bytes := by
    rw [stream, accepted, flatMap_append, flatMap_singleton]
    rfl
  rw [drained, grown, ← was, append_assoc] at later
  exact append_cancel_left later

end

end Steps

/-- In every run in which calls of one function do not overlap, the drained bytes
are a prefix of the accepted records; the ring holds the rest of them; a record
is dropped exactly if it does not fit, and then only the count of drops changes;
and a published record appears whole behind the stored bytes. -/
theorem drained_bytes_are_accepted_records {contexts origin : Nat}
    {events : List (RingStep contexts)} {ring : AuditRing contexts}
    (executed : runEvents step (empty origin) events = some ring)
    (alone : AllMeet step Alone (empty origin) events) :
    ring.drained <+: ring.stream ∧ ring.drained ++ ring.stored = ring.stream ∧
      (∀ context mtime event payload head, ring.contexts context = .logging event payload head →
          ring.step (.logLoadTail context mtime) = some
            (if bufSize < ring.stored.length + recordLen payload then
              { ring.enter context .idle with dropped := wrappingAdd ring.dropped 1 }
            else
              ring.enter context
                (.writing { mtime := mtime, event := event, payload := payload } ring.head 0))) ∧
      ∀ context after, ring.step (.logPublish context) = some after →
        ∃ record, ring.contexts context = .writing record ring.head record.bytes.length ∧
          after.accepted = ring.accepted ++ [record] ∧
          after.stored = ring.stored ++ record.bytes := by
  have consistent : ring.Consistent origin := (reaches_of_run executed alone).invariant
      (fun _ _ _ held met stepped => step_consistent held met stepped) (consistent_empty origin)
  refine ⟨?_, consistent.drained_stored, ?_, ?_⟩
  · rw [← consistent.drained_stored]
    exact prefix_append _ _
  · intro context mtime event payload head calling
    have isHead : head = ring.head := consistent.sound_at calling
    simp only [step, logLoadTail, calling]
    rw [consistent.log_test calling, isHead]
    split <;> rfl
  · intro context after stepped
    exact consistent.log_publish stepped

/-- Context 0 logs a record across the wrap of both counters, while context 1
drains a first part of the record before. -/
def wrappingRun : List (RingStep 3) :=
  ([.logLoadHead 0 .cellSpawn [7], .logLoadTail 0 5] : List (RingStep 3)) ++
    replicate 11 (RingStep.logWriteByte 0) ++
    ([.logPublish 0, .logLoadHead 0 .cellExit [], .logLoadTail 0 6, .drainLoadHead 1 4,
      .logWriteByte 0, .drainLoadTail 1, .drainCopyByte 1, .drainCopyByte 1] :
      List (RingStep 3)) ++
    replicate 9 (RingStep.logWriteByte 0) ++
    ([.drainCopyByte 1, .drainCopyByte 1, .drainStoreTail 1, .logPublish 0] :
      List (RingStep 3))

theorem wrapping_run_drains_prefix :
    ∃ ring : AuditRing 3, runEvents step (empty (2 ^ 64 - 14)) wrappingRun = some ring ∧
      ring.head = 7 ∧ ring.drained.length = 4 ∧ ring.drained <+: ring.stream := by
  have evaluated : (runEvents step (empty (2 ^ 64 - 14)) wrappingRun).map
      (fun ring => (ring.head, ring.drained.length)) = some (7, 4) := by decide +kernel
  have alone : AllMeet step Alone (empty (2 ^ 64 - 14)) wrappingRun := by decide +kernel
  obtain ⟨ring, executed, facts⟩ := Option.map_eq_some_iff.mp evaluated
  simp only [Prod.mk.injEq] at facts
  exact ⟨ring, executed, facts.1, facts.2, (drained_bytes_are_accepted_records executed alone).1⟩

/-- Two harts inside `log_event`: both load the same head, and the second record
is written over the first. -/
def racingRun : List (RingStep 3) :=
  ([.logLoadHead 0 .ipcSend [], .logLoadHead 1 .cellExit [], .logLoadTail 0 5,
      .logLoadTail 1 5] : List (RingStep 3)) ++
    replicate 10 (RingStep.logWriteByte 0) ++ replicate 10 (RingStep.logWriteByte 1) ++
    ([.logPublish 0, .logPublish 1, .drainLoadHead 2 64, .drainLoadTail 2] :
      List (RingStep 3)) ++
    replicate 10 (RingStep.drainCopyByte 2) ++ [RingStep.drainStoreTail 2]

theorem racing_records_overwritten :
    ∃ ring : AuditRing 3, runEvents step (empty 0) racingRun = some ring ∧
      ring.accepted.length = 2 ∧ ring.drained.length = 10 ∧ ring.head = 10 ∧
      ¬ ring.drained <+: ring.stream := by
  have evaluated : (runEvents step (empty 0) racingRun).map
      (fun ring => (ring.accepted.length, ring.drained.length, ring.head,
        decide (ring.drained <+: ring.stream))) = some (2, 10, 10, false) := by decide +kernel
  obtain ⟨ring, executed, facts⟩ := Option.map_eq_some_iff.mp evaluated
  simp only [Prod.mk.injEq, decide_eq_false_iff_not] at facts
  exact ⟨ring, executed, facts.1, facts.2.1, facts.2.2.1, facts.2.2.2⟩

end AuditRing

end ViCell.Audit

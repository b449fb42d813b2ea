import ViCell.Http.BodyReader

/-!
# What a body reader owes

A body taken one byte at a time gives its payload and the way it ends. The reader
returns that payload and ends that way, wherever its input is cut and whatever
buffers it is given.
-/

namespace ViCell.Http

open List

/-- Where a body is left off. Data in chunks is followed by a line end. -/
inductive Stage where
  | size (line : List Byte)
  | data (left : Nat) (inChunks : Bool)
  | lineEnd
  | lineFeed
  | trailer (prevCr content : Bool)
  | finished

inductive BodyEnd where
  | complete (rest : List Byte)
  | fails (error : HttpError)

def BodyEnd.result : BodyEnd → Except HttpError (List Byte)
  | .complete _ => .ok []
  | .fails error => .error error

namespace Stage

def ofData (left : Nat) (inChunks : Bool) : Stage :=
  if left = 0 then if inChunks then .lineEnd else .finished else .data left inChunks

def ofSize (count : Nat) : Stage := if count = 0 then .trailer false false else .data count true

variable (parser : List Byte → SizeParse)

/-- The stage behind the bytes of a size line so far, unless they are malformed. -/
def ofLine (line : List Byte) : Option Stage :=
  match if line = [] then .more else parser line with
  | .complete _ count => if count > maxChunkSize then none else some (ofSize count)
  | .invalid => none
  | .more => some (.size line)

/-- The next stage and the payload of one byte, unless the body is malformed. -/
def push : Stage → Byte → Option (Stage × List Byte)
  | .size line, byte =>
    if line.length ≥ lineBufLen then none else (ofLine parser (line ++ [byte])).map (·, [])
  | .data left inChunks, byte => some (ofData (left - 1) inChunks, [byte])
  | .lineEnd, byte => if byte = cr then some (.lineFeed, []) else none
  | .lineFeed, byte => if byte = lf then some (.size [], []) else none
  | .trailer prevCr content, byte =>
    some (if byte = cr then .trailer true (content || prevCr)
      else if byte = lf ∧ prevCr = true then
        if content = false then .finished else .trailer false false
      else .trailer false true, [])
  | .finished, _ => none

def decode : List Byte → Stage → List Byte × BodyEnd
  | rest, .finished => ([], .complete rest)
  | [], _ => ([], .fails .unexpectedEof)
  | byte :: rest, stage =>
    match stage.push parser byte with
    | none => ([], .fails .badChunk)
    | some (next, out) => (out ++ (decode rest next).1, (decode rest next).2)

variable {parser} {stage next : Stage} {byte : Byte} {rest out : List Byte}

@[simp] theorem decode_finished : decode parser rest .finished = ([], .complete rest) := by
  cases rest <;> rfl

theorem decode_nil (unfinished : stage ≠ .finished) :
    decode parser [] stage = ([], .fails .unexpectedEof) := by
  cases stage with
  | finished => exact absurd rfl unfinished
  | _ => rfl

theorem decode_cons (pushed : stage.push parser byte = some (next, out)) :
    decode parser (byte :: rest) stage =
      (out ++ (decode parser rest next).1, (decode parser rest next).2) := by
  cases stage with
  | finished => cases pushed
  | _ =>
    rw [decode, pushed]
    exact Stage.noConfusion

theorem decode_malformed (unfinished : stage ≠ .finished) (pushed : stage.push parser byte = none) :
    decode parser (byte :: rest) stage = ([], .fails .badChunk) := by
  cases stage with
  | finished => exact absurd rfl unfinished
  | _ =>
    rw [decode, pushed]
    exact Stage.noConfusion

theorem of_data_positive {left : Nat} (pos : 0 < left) (inChunks : Bool) :
    ofData left inChunks = .data left inChunks := if_neg (Nat.ne_of_gt pos)

theorem decode_data (inChunks : Bool) {data : List Byte} {left : Nat} (fits : data.length ≤ left) :
    decode parser (data ++ rest) (ofData left inChunks) =
      (data ++ (decode parser rest (ofData (left - data.length) inChunks)).1,
        (decode parser rest (ofData (left - data.length) inChunks)).2) := by
  induction data generalizing left with
  | nil => rfl
  | cons byte data ih =>
    rw [length_cons] at fits ⊢
    rw [of_data_positive (by omega), cons_append, decode_cons rfl,
      ih (by omega), Nat.sub_sub, Nat.add_comm 1]
    rfl

theorem decode_short (inChunks : Bool) {data : List Byte} {left : Nat}
    (short : data.length < left) :
    decode parser data (ofData left inChunks) = (data, .fails .unexpectedEof) := by
  have all := @decode_data parser [] inChunks data left (Nat.le_of_lt short)
  rw [of_data_positive (Nat.sub_pos_of_lt short), decode_nil Stage.noConfusion, append_nil]
    at all
  exact all

theorem decode_truncated {front missing payload : List Byte} (proper : missing ≠ [])
    (whole : decode parser (front ++ missing) stage = (payload, .complete [])) :
    ∃ bytes, decode parser front stage = (bytes, .fails .unexpectedEof) ∧ bytes <+: payload := by
  induction front generalizing stage payload with
  | nil =>
    refine ⟨[], decode_nil ?_, nil_prefix⟩
    rintro rfl
    rw [decode_finished] at whole
    exact proper (BodyEnd.complete.inj (Prod.mk.inj whole).2)
  | cons byte front ih =>
    rw [cons_append] at whole
    cases pushed : stage.push parser byte with
    | none =>
      cases stage with
      | finished => cases decode_finished.symm.trans whole
      | _ => cases (decode_malformed (by exact Stage.noConfusion) pushed).symm.trans whole
    | some taken =>
      rw [decode_cons pushed] at whole ⊢
      obtain ⟨isPayload, ends⟩ := Prod.mk.inj whole
      obtain ⟨bytes, decoded, inOrder⟩ := ih (Prod.ext rfl ends)
      rw [decoded, ← isPayload]
      exact ⟨_, rfl, (prefix_append_right_inj _).mpr inOrder⟩

end Stage

namespace Source

variable {source : Source}

theorem leftover_empty_iff : source.leftoverEmpty = true ↔
    source.leftover.length ≤ source.leftoverPos := by
  unfold leftoverEmpty
  rw [decide_eq_true_eq]

theorem input_of_empty (empty : source.leftoverEmpty = true) :
    source.input = source.transport.pending := by
  unfold input
  rw [drop_eq_nil_of_le (leftover_empty_iff.mp empty), nil_append]

theorem leftover_inside (some : source.leftoverEmpty = false) :
    source.leftoverPos < source.leftover.length := by
  by_contra past
  rw [leftover_empty_iff.mpr (Nat.le_of_not_lt past)] at some
  cases some

theorem next_byte_spec :
    ∃ after, source.nextByte = (source.input.head?, after) ∧ after.input = source.input.tail := by
  unfold nextByte
  cases empty : source.leftoverEmpty with
  | false =>
    have inside := leftover_inside empty
    refine ⟨{ source with leftoverPos := source.leftoverPos + 1 }, ?_, ?_⟩
    · rw [input, drop_eq_getElem_cons inside, getD_eq_getElem _ _ inside]
      rfl
    · unfold input
      rw [drop_eq_getElem_cons inside]
      rfl
  | true =>
    have one : min (max 1 (source.transport.grants source.transport.count)) 1 = 1 := by omega
    have still : (source.readTransport 1).2.leftoverEmpty = true := empty
    refine ⟨(source.readTransport 1).2, ?_, ?_⟩
    · rw [if_neg Bool.noConfusion, input_of_empty empty, readTransport, Transport.read, one]
      dsimp only
      rw [head?_take, if_neg Nat.one_ne_zero]
    · rw [input_of_empty still, input_of_empty empty, readTransport, Transport.read, one, drop_one]

theorem fill_spec {room : Nat} (pos : 0 < room) :
    ∃ data after, source.fill room = (data, after) ∧ data.length ≤ room ∧
      source.input = data ++ after.input ∧ (data = [] → source.input = []) := by
  unfold fill
  rw [if_neg (Nat.ne_of_gt pos)]
  cases empty : source.leftoverEmpty with
  | false =>
    have inside := leftover_inside empty
    refine ⟨_, _, if_pos rfl, length_take_le _ _, ?_, ?_⟩
    · unfold input
      rw [← append_assoc, ← drop_drop, length_take, take_eq_take_min, take_append_drop]
    · intro isNil
      have zero := congrArg length isNil
      rw [length_take, length_drop, length_nil] at zero
      omega
  | true =>
    have still : (source.readTransport room).2.leftoverEmpty = true := empty
    refine ⟨_, _, if_neg Bool.noConfusion, ?_, ?_, ?_⟩
    · rw [length_take]
      omega
    · rw [input_of_empty empty]
      refine Eq.trans ?_ (congrArg _ (input_of_empty still).symm)
      exact (take_append_drop _ _).symm
    · intro isNil
      rw [input_of_empty empty]
      exact (take_eq_nil_iff.mp isNil).resolve_left (by omega)

end Source

namespace Chunked

open Stage

variable {parser : List Byte → SizeParse} {chunked : Chunked} {source : Source}

theorem parse_size_line_spec {fuel : Nat} (enough : lineBufLen + 1 < fuel + chunked.lineBuf.length)
    (short : chunked.lineBuf.length ≤ lineBufLen) :
    ∃ result left rest, parseSizeLine parser fuel chunked source = some (result, left, rest) ∧
      let owed := (ofLine parser chunked.lineBuf).elim ([], .fails .badChunk)
        (decode parser source.input)
      match result with
      | .error error => owed = ([], .fails error)
      | .ok none => owed = ([], .fails .unexpectedEof)
      | .ok (some count) => left = { chunked with lineBuf := [] } ∧
        owed = decode parser rest.input (ofSize count) := by
  induction fuel generalizing chunked source with
  | zero => omega
  | succ fuel ih =>
    rw [parseSizeLine, ofLine]
    cases if chunked.lineBuf = [] then SizeParse.more else parser chunked.lineBuf with
    | invalid => exact ⟨_, _, _, rfl, rfl⟩
    | complete _ count =>
      dsimp only
      split
      · exact ⟨_, _, _, rfl, rfl⟩
      · exact ⟨_, _, _, rfl, rfl, rfl⟩
    | more =>
      obtain ⟨next, got, isNext⟩ := @Source.next_byte_spec source
      rw [got]
      dsimp only [Option.elim]
      cases isInput : source.input with
      | nil => exact ⟨_, _, _, rfl, rfl⟩
      | cons byte rest =>
        rw [isInput, tail_cons] at isNext
        dsimp only [head?_cons]
        rw [decode, push, ← isNext]
        · split
          · exact ⟨_, _, _, rfl, rfl⟩
          · obtain ⟨result, left, last, parsed, spec⟩ := @ih
              { chunked with lineBuf := chunked.lineBuf ++ [byte] } next
              (by rw [length_append, length_singleton]; omega)
              (by rw [length_append, length_singleton]; omega)
            refine ⟨result, left, last, parsed, ?_⟩
            cases taken : ofLine parser (chunked.lineBuf ++ [byte]) <;> rw [taken] at spec <;>
              exact spec
        · exact Stage.noConfusion

/-- The loop collects what it wants in however many pieces it comes. -/
theorem serve_loop_spec {fuel want : Nat} {written : List Byte} (room : written.length ≤ want)
    (enough : want < fuel + written.length) (pos : 0 < want) :
    ∃ left, left.input = source.input.drop (want - written.length) ∧
      serveLoop fuel source want written =
        some (if written ++ source.input = [] then .error .unexpectedEof
          else .ok (written ++ source.input.take (want - written.length)), left) := by
  induction fuel generalizing source written with
  | zero => omega
  | succ fuel ih =>
    rw [serveLoop]
    by_cases wants : written.length < want
    · obtain ⟨data, next, filled, fits, isInput, atEnd⟩ :=
        @Source.fill_spec source (want - written.length) (Nat.sub_pos_of_lt wants)
      rw [if_pos wants, filled]
      cases data with
      | nil =>
        rw [atEnd rfl] at isInput ⊢
        refine ⟨next, by simpa using isInput, ?_⟩
        rw [take_nil, append_nil]
        dsimp only
        split <;> rfl
      | cons byte data =>
        obtain ⟨left, isLeft, looped⟩ := @ih next (written ++ byte :: data)
          (by rw [length_append]; omega)
          (by rw [length_append, length_cons]; omega)
        refine ⟨left, ?_, looped.trans ?_⟩
        · rw [isLeft, isInput, drop_append, drop_eq_nil_of_le fits, length_append,
            Nat.sub_sub, nil_append]
        · rw [if_neg (by simp), if_neg (by simp [isInput]), isInput, take_append,
            take_of_length_le fits, length_append, Nat.sub_sub, append_assoc]
    · have all : want - written.length = 0 := by omega
      have some : ¬ written ++ source.input = [] := by
        intro none
        rw [(append_eq_nil_iff.mp none).1, length_nil] at wants
        omega
      refine ⟨source, by rw [all, drop_zero], ?_⟩
      rw [if_neg wants, if_neg some, all, take_zero, append_nil]

theorem consume_spec : ∃ result rest, consume [cr, lf] source = (result, rest) ∧
      match result with
      | .error error => decode parser source.input .lineEnd = ([], .fails error)
      | .ok () => decode parser source.input .lineEnd = decode parser rest.input (.size []) := by
  obtain ⟨next, got, isNext⟩ := @Source.next_byte_spec source
  obtain ⟨last, gotLast, isLast⟩ := @Source.next_byte_spec next
  rw [consume, got]
  cases isInput : source.input with
  | nil => exact ⟨_, _, rfl, rfl⟩
  | cons first rest =>
    rw [isInput, tail_cons] at isNext
    rw [isNext] at gotLast isLast
    dsimp only [head?_cons, decode, push]
    split
    · rw [consume, gotLast]
      cases rest with
      | nil => exact ⟨_, _, rfl, rfl⟩
      | cons second rest =>
        dsimp only [head?_cons, decode, push]
        split
        · exact ⟨_, _, rfl, by rw [isLast]; rfl⟩
        · exact ⟨_, _, rfl, rfl⟩
    · exact ⟨_, _, rfl, rfl⟩

theorem drain_trailer_spec {fuel : Nat} {prevCr content : Bool} (enough : source.input.length < fuel) :
    ∃ result rest, drainTrailer fuel prevCr content source = some (result, rest) ∧
      match result with
      | .error error => decode parser source.input (.trailer prevCr content) = ([], .fails error)
      | .ok () => decode parser source.input (.trailer prevCr content) = ([], .complete rest.input) := by
  induction fuel generalizing source prevCr content with
  | zero => omega
  | succ fuel ih =>
    obtain ⟨next, got, isNext⟩ := @Source.next_byte_spec source
    rw [drainTrailer, got]
    cases isInput : source.input with
    | nil => exact ⟨_, _, rfl, rfl⟩
    | cons byte rest =>
      rw [isInput, tail_cons] at isNext
      rw [isInput, length_cons, ← isNext] at enough
      rw [decode_cons rfl, ← isNext]
      dsimp only [head?_cons]
      split
      · exact ih (by omega)
      · split
        · split
          · exact ⟨_, _, rfl, by simp⟩
          · exact ih (by omega)
        · exact ih (by omega)

def stage (chunked : Chunked) : Stage :=
  if chunked.done then .finished
  else match chunked.phase with
  | .size => .size chunked.lineBuf
  | .data => .ofData chunked.chunkRemaining true
  | .trailingCrlf => .lineEnd
  | .trailer => .trailer false false

end Chunked

namespace BodyReader

open Stage

/-- The payload to come, and how it ends. -/
def owed (parser : List Byte → SizeParse) (reader : BodyReader) : List Byte × BodyEnd :=
  decode parser reader.source.input
    (match reader.state with
    | .contentLength remaining => .ofData remaining false
    | .chunked chunked => chunked.stage)

/-- Between two calls no size line is begun, and a chunk has data left. -/
def Ready (reader : BodyReader) : Prop :=
  ∀ chunked, reader.state = .chunked chunked → chunked.done = true ∨
    chunked.lineBuf = [] ∧ (chunked.phase = .data → 0 < chunked.chunkRemaining)

/-- What a call may do: return a part of what is owed, or the end after all of it. -/
inductive Answers (parser : List Byte → SizeParse) (owed : List Byte × BodyEnd) :
    Except HttpError (List Byte) → BodyReader → Prop where
  | part {data : List Byte} {next : BodyReader} (nonempty : data ≠ []) (ready : next.Ready)
      (rest : owed = (data ++ (next.owed parser).1, (next.owed parser).2)) :
      Answers parser owed (.ok data) next
  | complete {next : BodyReader} (ready : next.Ready)
      (all : owed = ([], .complete next.source.input)) (same : next.owed parser = owed) :
      Answers parser owed (.ok []) next
  | fails {error : HttpError} {next : BodyReader} (all : owed = ([], .fails error)) :
      Answers parser owed (.error error) next

end BodyReader

namespace Chunked

open Stage BodyReader

variable {parser : List Byte → SizeParse} {chunked : Chunked} {source : Source} {room fuel : Nat}

def Serves (parser : List Byte → SizeParse) (owed : List Byte × BodyEnd)
    (outcome : Option (Except HttpError (List Byte) × Chunked × Source)) : Prop :=
  ∃ result chunked source, outcome = some (result, chunked, source) ∧
    Answers parser owed result ⟨.chunked chunked, source⟩

theorem served_stage (running : chunked.done = false) (phase : chunked.phase = .data)
    (count : Nat) :
    (chunked.served count).stage = .ofData (chunked.chunkRemaining - count) true := by
  unfold served stage ofData
  rw [running, phase]
  by_cases all : chunked.chunkRemaining - count = 0
  · simp [all]
  · simp [all]

theorem serves_data (pos : 0 < room) (running : chunked.done = false)
    (line : chunked.lineBuf = []) (phase : chunked.phase = .data)
    (some : 0 < chunked.chunkRemaining) :
    Serves parser (decode parser source.input (.ofData chunked.chunkRemaining true))
      (readChunked parser (fuel + 1) chunked source room) := by
  have want : 0 < min chunked.chunkRemaining room := Nat.lt_min.mpr ⟨some, pos⟩
  obtain ⟨left, isLeft, looped⟩ := @serve_loop_spec source (min chunked.chunkRemaining room + 1)
    (min chunked.chunkRemaining room) [] (Nat.zero_le _) (Nat.lt_succ_self _) want
  simp only [nil_append, length_nil] at looped isLeft
  rw [readChunked, running, phase]
  unfold serveChunkData
  dsimp only
  rw [looped]
  by_cases none : source.input = []
  · rw [none, decode_short true some]
    exact ⟨_, _, _, rfl, .fails rfl⟩
  · rw [if_neg none]
    refine ⟨_, _, _, rfl, .part ?_ ?_ ?_⟩
    · simp [none]
      omega
    · rintro _ ⟨⟩
      refine .inr ⟨line, fun isData => ?_⟩
      unfold served at isData ⊢
      dsimp only at isData ⊢
      split at isData
      · cases isData
      · omega
    · unfold owed
      dsimp only
      rw [served_stage running phase, isLeft, ← decode_data true, take_append_drop]
      exact (length_take_le _ _).trans (Nat.min_le_left _ _)

theorem serves_trailer (running : chunked.done = false) (phase : chunked.phase = .trailer) :
    Serves parser (decode parser source.input (.trailer false false))
      (readChunked parser (fuel + 1) chunked source room) := by
  obtain ⟨result, rest, drained, ended⟩ := @drain_trailer_spec parser source
    (source.input.length + 1) false false (Nat.lt_succ_self _)
  rw [readChunked, running, phase]
  rw [drained]
  cases result with
  | error => exact ⟨_, _, _, rfl, .fails ended⟩
  | ok =>
    refine ⟨_, _, _, rfl, .complete ?_ ended ?_⟩
    · rintro _ ⟨⟩
      exact .inl rfl
    · exact decode_finished.trans ended.symm

theorem serves_size (pos : 0 < room) (running : chunked.done = false)
    (line : chunked.lineBuf = []) (phase : chunked.phase = .size) :
    Serves parser (decode parser source.input (.size []))
      (readChunked parser (fuel + 2) chunked source room) := by
  obtain ⟨result, left, rest, parsed, taken⟩ := @parse_size_line_spec parser chunked source
    (lineBufLen + 2) (Nat.lt_add_right _ (Nat.lt_succ_self _)) (by rw [line]; exact Nat.zero_le _)
  rw [line] at taken
  rw [readChunked, running, if_neg Bool.false_ne_true, phase]
  rw [parsed]
  match result with
  | .error _ | .ok none => exact ⟨_, _, _, rfl, .fails taken⟩
  | .ok (some count) =>
    obtain ⟨rfl, same⟩ := taken
    rw [show decode parser source.input (.size []) = _ from same]
    unfold ofSize
    dsimp only
    by_cases zero : count = 0
    · rw [if_pos zero, if_pos zero]
      exact serves_trailer running rfl
    · rw [if_neg zero, if_neg zero, ← of_data_positive (Nat.pos_of_ne_zero zero)]
      exact @serves_data parser (beginChunk { chunked with lineBuf := [] } count) rest room fuel pos
        running rfl rfl (Nat.pos_of_ne_zero zero)

theorem serves_crlf (pos : 0 < room) (running : chunked.done = false)
    (line : chunked.lineBuf = []) (phase : chunked.phase = .trailingCrlf) :
    Serves parser (decode parser source.input .lineEnd)
      (readChunked parser (fuel + 3) chunked source room) := by
  obtain ⟨result, rest, consumed, taken⟩ := @consume_spec parser source
  rw [readChunked, running, phase]
  rw [consumed]
  cases result with
  | error => exact ⟨_, _, _, rfl, .fails taken⟩
  | ok =>
    rw [taken]
    exact serves_size pos running line rfl

end Chunked

namespace BodyReader

open Stage

variable {parser : List Byte → SizeParse} {reader : BodyReader} {rooms : List Nat}

theorem read_answers {room : Nat} (ready : reader.Ready) (pos : 0 < room) :
    ∃ result next, reader.read parser room = some (result, next) ∧
      Answers parser (reader.owed parser) result next := by
  obtain ⟨state, source⟩ := reader
  unfold BodyReader.read owed
  rw [if_neg (Nat.ne_of_gt pos)]
  cases state with
  | contentLength remaining =>
    unfold readContentLength
    dsimp only
    by_cases zero : remaining = 0
    · rw [zero]
      exact ⟨_, _, rfl, .complete (by rintro _ ⟨⟩) decode_finished rfl⟩
    rw [if_neg zero]
    have some := Nat.pos_of_ne_zero zero
    obtain ⟨data, left, filled, fits, isInput, atEnd⟩ :=
      @Source.fill_spec source (min remaining room) (Nat.lt_min.mpr ⟨some, pos⟩)
    rw [filled]
    by_cases none : data = []
    · rw [if_pos none, atEnd none, decode_short false some]
      exact ⟨_, _, rfl, .fails rfl⟩
    · rw [if_neg none]
      refine ⟨_, _, rfl, .part none (by rintro _ ⟨⟩) ?_⟩
      rw [isInput]
      exact decode_data false (fits.trans (Nat.min_le_left _ _))
  | chunked chunked =>
    dsimp only
    have serves : Chunked.Serves parser (decode parser source.input chunked.stage)
        (chunked.readChunked parser 4 source room) := by
      unfold Chunked.stage
      cases running : chunked.done with
      | true =>
        rw [Chunked.readChunked, running]
        refine ⟨_, _, _, rfl, .complete ready decode_finished ?_⟩
        unfold owed Chunked.stage
        dsimp only
        rw [running, if_pos rfl]
      | false =>
        obtain done | ⟨line, data⟩ := ready chunked rfl
        · rw [running] at done
          cases done
        cases phase : chunked.phase with
        | size =>
          rw [line]
          exact Chunked.serves_size pos running line phase
        | data => exact Chunked.serves_data pos running line phase (data phase)
        | trailingCrlf => exact Chunked.serves_crlf pos running line phase
        | trailer => exact Chunked.serves_trailer running phase
    obtain ⟨result, next, rest, ran, answers⟩ := serves
    rw [ran]
    exact ⟨_, _, rfl, answers⟩

/-- A consumer's calls with these buffers, up to the end of the body or an error: the bytes
they return, and the result that ended them. -/
def readBody (parser : List Byte → SizeParse) : BodyReader → List Nat →
    Option (List Byte × Option (Except HttpError (List Byte)) × BodyReader)
  | reader, [] => some ([], none, reader)
  | reader, room :: rooms =>
    match reader.read parser room with
    | none => none
    | some (.ok (byte :: others), reader) =>
      (readBody parser reader rooms).map fun (more, last) => (byte :: others ++ more, last)
    | some (result, reader) => some ([], some result, reader)

/-- The calls return what is owed in order, and if they get to an end, all of it; more calls
than bytes do. -/
theorem read_body_spec (ready : reader.Ready) (pos : ∀ room ∈ rooms, 0 < room) :
    ∃ bytes ending last, reader.readBody parser rooms = some (bytes, ending, last) ∧
      bytes <+: (reader.owed parser).1 ∧
      (∀ result, ending = some result →
        bytes = (reader.owed parser).1 ∧ result = (reader.owed parser).2.result ∧
          ∀ rest, (reader.owed parser).2 = .complete rest → last.source.input = rest) ∧
      ((reader.owed parser).1.length < rooms.length → ending ≠ none) := by
  induction rooms generalizing reader with
  | nil =>
    refine ⟨[], none, reader, rfl, nil_prefix, ?_, fun few => absurd few (Nat.not_lt_zero _)⟩
    rintro _ ⟨⟩
  | cons room rooms ih =>
    obtain ⟨result, next, ran, answers⟩ := @read_answers parser reader room ready
      (pos room mem_cons_self)
    rw [readBody, ran]
    cases answers with
    | @part data _ nonempty nextReady rest =>
      obtain ⟨bytes, ending, last, readOn, inOrder, atEnd, ends⟩ :=
        ih nextReady (fun other mem => pos other (mem_cons_of_mem _ mem))
      obtain ⟨byte, others, rfl⟩ := exists_cons_of_ne_nil nonempty
      dsimp only
      rw [readOn, rest]
      refine ⟨_, ending, last, rfl, (prefix_append_right_inj _).mpr inOrder, ?_, ?_⟩
      · intro result ended
        rw [(atEnd result ended).1]
        exact ⟨rfl, (atEnd result ended).2⟩
      · intro few
        rw [length_append, length_cons, length_cons] at few
        exact ends (by omega)
    | complete _ all =>
      rw [all]
      refine ⟨[], _, _, rfl, nil_prefix, ?_, fun _ => Option.some_ne_none _⟩
      rintro _ ⟨⟩
      exact ⟨rfl, rfl, fun _ => BodyEnd.complete.inj⟩
    | fails all =>
      rw [all]
      refine ⟨[], _, _, rfl, nil_prefix, ?_, fun _ => Option.some_ne_none _⟩
      rintro _ ⟨⟩
      exact ⟨rfl, rfl, fun _ => BodyEnd.noConfusion⟩

def startStage (framing : Framing) (contentLength : Option Nat) : Stage :=
  match framing with
  | .contentLength => .ofData (contentLength.getD 0) false
  | .chunked => .size []

theorem owed_new (framing : Framing) (contentLength : Option Nat) (leftover : List Byte)
    (transport : Transport) :
    (new framing contentLength leftover transport).owed parser =
      decode parser (leftover ++ transport.pending) (startStage framing contentLength) := by
  cases framing <;> rfl

theorem ready_new (framing : Framing) (contentLength : Option Nat) (leftover : List Byte)
    (transport : Transport) : (new framing contentLength leftover transport).Ready := by
  cases framing with
  | contentLength => rintro _ ⟨⟩
  | chunked =>
    rintro _ ⟨⟩
    exact .inr ⟨rfl, by rintro ⟨⟩⟩

end BodyReader

end ViCell.Http

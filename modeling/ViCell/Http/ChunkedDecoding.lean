import ViCell.Http.ByteDecoder
import ViCell.Http.ChunkSize

/-!
# Decoding a chunked body

Whatever part of an encoded body came with the headers, however the transport cuts the
rest, and whatever buffers the caller brings, the reader returns the payload of the
chunks, then the end, and leaves what follows the body in its source.
-/

namespace ViCell.Http

open List

structure Chunk where
  line : List Byte
  data : List Byte
  isLine : SizeLine line data.length
  short : line.length ≤ lineBufLen
  nonempty : data ≠ []
  small : data.length ≤ maxChunkSize

structure Ending where
  line : List Byte
  fields : List (List Byte)
  isLine : SizeLine line 0
  short : line.length ≤ lineBufLen
  clean : ∀ field ∈ fields, field ≠ [] ∧ ¬ [cr, lf] <:+: field

namespace Chunk

def encode (chunk : Chunk) : List Byte := chunk.line ++ (chunk.data ++ [cr, lf])

end Chunk

def encodeChunks (chunks : List Chunk) : List Byte := (chunks.map Chunk.encode).flatten

def payload (chunks : List Chunk) : List Byte := (chunks.map Chunk.data).flatten

def encodeFields (fields : List (List Byte)) : List Byte :=
  (fields.map fun field => field ++ [cr, lf]).flatten

def Ending.encode (ending : Ending) : List Byte :=
  ending.line ++ (encodeFields ending.fields ++ [cr, lf])

theorem SizeLine.ne_nil {line : List Byte} {size : Nat} (isLine : SizeLine line size) :
    line ≠ [] := by
  obtain ⟨_, _, _, isParts, some, _⟩ := isLine.parts
  rw [isParts]
  exact append_ne_nil_of_left_ne_nil some _

namespace Stage

variable {parser : List Byte → SizeParse} {after : List Byte}

theorem decode_line (spec : FollowsSpec parser) {line : List Byte} {count : Nat}
    (isLine : SizeLine line count) (short : line.length ≤ lineBufLen)
    (small : count ≤ maxChunkSize) (seen rest : List Byte) (isRest : line = seen ++ rest)
    (some : rest ≠ []) :
    decode parser (rest ++ after) (.size seen) = decode parser after (ofSize count) := by
  obtain ⟨completes, asks⟩ := spec line count isLine
  induction rest generalizing seen with
  | nil => exact absurd rfl some
  | cons byte rest ih =>
    have later : line = (seen ++ [byte]) ++ rest := by
      rw [isRest, append_assoc, singleton_append]
    have room : ¬ seen.length ≥ lineBufLen := by
      have length := congrArg length isRest
      rw [length_append, length_cons] at length
      omega
    have pushed : push parser (.size seen) byte = (ofLine parser (seen ++ [byte])).map (·, []) :=
      if_neg room
    rw [ofLine, if_neg (by simp)] at pushed
    rw [cons_append]
    by_cases last : rest = []
    · rw [last, append_nil] at later
      rw [← later, completes] at pushed
      dsimp only at pushed
      rw [if_neg (Nat.not_lt.mpr small)] at pushed
      rw [decode_cons pushed, last]
      rfl
    · rw [asks (seen ++ [byte]) rest later (by simp) last] at pushed
      rw [decode_cons pushed]
      exact ih (seen ++ [byte]) later last

/-- A trailer line: `seen` of it is taken, `rest` is still to come. The two flags tell
whether anything was seen. -/
theorem decode_field {line : List Byte} (clean : ¬ [cr, lf] <:+: line) (seen rest : List Byte)
    {prevCr content : Bool} (isLine : line = seen ++ rest)
    (isSeen : (content || prevCr) = true ↔ seen ≠ [])
    (isCr : prevCr = true → ∃ start, seen = start ++ [cr]) :
    decode parser (rest ++ cr :: lf :: after) (.trailer prevCr content) =
      decode parser after (if line = [] then .finished else .trailer false false) := by
  induction rest generalizing seen prevCr content with
  | nil =>
    rw [append_nil] at isLine
    rw [nil_append, decode_cons rfl, decode_cons rfl, if_neg (by decide), if_pos ⟨rfl, rfl⟩]
    by_cases empty : line = []
    · have none : (content || prevCr) = false :=
        Bool.eq_false_iff.mpr (fun some => isSeen.mp some (isLine ▸ empty))
      rw [if_pos none, if_pos empty]
      rfl
    · have some : (content || prevCr) = true := isSeen.mpr (isLine ▸ empty)
      rw [if_neg (by rw [some]; decide), if_neg empty]
      rfl
  | cons byte rest ih =>
    have later : line = (seen ++ [byte]) ++ rest := by
      rw [isLine, append_assoc, singleton_append]
    have unempty : seen ++ [byte] ≠ [] := by simp
    rw [cons_append, decode_cons rfl]
    by_cases isReturn : byte = cr
    · rw [if_pos isReturn]
      refine ih (seen ++ [byte]) later ⟨fun _ => unempty, fun _ => Bool.or_true _⟩ ?_
      exact fun _ => ⟨seen, by rw [isReturn]⟩
    · -- a line feed after a carriage return would end the line inside the field
      have inLine : ¬ (byte = lf ∧ prevCr = true) := by
        rintro ⟨isFeed, wasCr⟩
        obtain ⟨start, isStart⟩ := isCr wasCr
        refine clean ⟨start, rest, ?_⟩
        rw [isLine, isStart, isFeed]
        simp only [append_assoc, cons_append, nil_append]
      rw [if_neg isReturn, if_neg inLine]
      refine ih (seen ++ [byte]) later ⟨fun _ => unempty, fun _ => rfl⟩ ?_
      rintro ⟨⟩

theorem decode_fields {fields : List (List Byte)}
    (clean : ∀ field ∈ fields, field ≠ [] ∧ ¬ [cr, lf] <:+: field) :
    decode parser (encodeFields fields ++ cr :: lf :: after) (.trailer false false) =
      ([], .complete after) := by
  have nothingSeen : (false || false) = true ↔ ([] : List Byte) ≠ [] := by simp
  induction fields with
  | nil =>
    exact (@decode_field parser after [] (by decide) [] [] false false rfl nothingSeen
      (by rintro ⟨⟩)).trans decode_finished
  | cons field fields ih =>
    obtain ⟨some, noEnd⟩ := clean field mem_cons_self
    have isEncoded : encodeFields (field :: fields) ++ cr :: lf :: after =
        field ++ cr :: lf :: (encodeFields fields ++ cr :: lf :: after) := by
      simp [encodeFields]
    rw [isEncoded, @decode_field parser _ field noEnd [] field false false rfl nothingSeen
      (by rintro ⟨⟩), if_neg some]
    exact ih (fun other mem => clean other (mem_cons_of_mem _ mem))

theorem decode_encoded (spec : FollowsSpec parser) (chunks : List Chunk) (ending : Ending) :
    decode parser (encodeChunks chunks ++ (ending.encode ++ after)) (.size []) =
      (payload chunks, .complete after) := by
  induction chunks with
  | nil =>
    have isEnd : encodeChunks [] ++ (ending.encode ++ after) =
        ending.line ++ (encodeFields ending.fields ++ cr :: lf :: after) := by
      simp [encodeChunks, Ending.encode]
    rw [isEnd, decode_line spec ending.isLine ending.short (Nat.zero_le _) [] _ rfl
      ending.isLine.ne_nil]
    exact decode_fields ending.clean
  | cons chunk chunks ih =>
    have isChunk : encodeChunks (chunk :: chunks) ++ (ending.encode ++ after) =
        chunk.line ++ (chunk.data ++ cr :: lf ::
          (encodeChunks chunks ++ (ending.encode ++ after))) := by
      simp [encodeChunks, Chunk.encode]
    have some := length_pos_iff.mpr chunk.nonempty
    rw [isChunk, decode_line spec chunk.isLine chunk.short chunk.small [] _ rfl
      chunk.isLine.ne_nil, ofSize, if_neg (Nat.ne_of_gt some), ← of_data_positive some,
      decode_data true (Nat.le_refl _), Nat.sub_self]
    have sized : decode parser (cr :: lf :: (encodeChunks chunks ++ (ending.encode ++ after)))
        (ofData 0 true) = decode parser (encodeChunks chunks ++ (ending.encode ++ after)) (.size []) :=
      rfl
    rw [sized, ih]
    rfl

end Stage

namespace BodyReader

variable {parser : List Byte → SizeParse} {reader : BodyReader} {after : List Byte}
  {rooms : List Nat}

theorem reads_at_end (ready : reader.Ready) (pos : ∀ room ∈ rooms, 0 < room)
    (atEnd : reader.owed parser = ([], .complete reader.source.input)) :
    ∃ last, readAll parser reader rooms = some (replicate rooms.length (.ok []), last) ∧
      last.source.input = reader.source.input := by
  induction rooms generalizing reader with
  | nil => exact ⟨reader, rfl, rfl⟩
  | cons room rooms ih =>
    obtain ⟨result, next, ran, answers⟩ := @read_answers parser reader room ready
      (pos room mem_cons_self)
    rw [atEnd] at answers
    rw [readAll, ran]
    cases answers with
    | part nonempty _ rest => exact absurd (append_eq_nil_iff.mp (Prod.mk.inj rest).1.symm).1 nonempty
    | fails wrong => cases wrong
    | complete nextReady all same =>
      have stays : reader.source.input = next.source.input := by
        injection (Prod.mk.inj all).2
      obtain ⟨last, readOn, isLast⟩ := ih nextReady
        (fun other mem => pos other (mem_cons_of_mem _ mem)) (stays ▸ same)
      dsimp only
      rw [readOn]
      exact ⟨last, rfl, isLast.trans stays.symm⟩

/-- The results of calls on what is owed: parts of it, each not empty, and once all of it
is returned nothing more. -/
structure Delivered (after owed : List Byte) (results : List (Except HttpError (List Byte)))
    (reader : BodyReader) (parts : List (List Byte)) (ends : Nat) : Prop where
  isResults : results = parts.map .ok ++ replicate ends (.ok [])
  nonempty : ∀ part ∈ parts, part ≠ []
  inOrder : parts.flatten <+: owed
  complete : 0 < ends → parts.flatten = owed ∧ reader.source.input = after

theorem reads_deliver (ready : reader.Ready) (pos : ∀ room ∈ rooms, 0 < room)
    {owed : List Byte} (isOwed : reader.owed parser = (owed, .complete after)) :
    ∃ results last parts ends, readAll parser reader rooms = some (results, last) ∧
      Delivered after owed results last parts ends := by
  induction rooms generalizing reader owed with
  | nil =>
    refine ⟨[], _, [], 0, rfl, rfl, ?_, nil_prefix, ?_⟩
    · intro part mem
      cases mem
    · exact fun wrong => absurd wrong (Nat.lt_irrefl 0)
  | cons room rooms ih =>
    have laterPositive : ∀ other ∈ rooms, 0 < other :=
      fun other mem => pos other (mem_cons_of_mem _ mem)
    obtain ⟨result, next, ran, answers⟩ := @read_answers parser reader room ready
      (pos room mem_cons_self)
    rw [isOwed] at answers
    rw [readAll, ran]
    cases answers with
    | fails wrong => cases wrong
    | complete nextReady all same =>
      cases all
      obtain ⟨last, readOn, isLast⟩ := reads_at_end nextReady laterPositive same
      dsimp only
      rw [readOn]
      refine ⟨_, last, [], rooms.length + 1, rfl, rfl, ?_, nil_prefix, fun _ => ⟨rfl, isLast⟩⟩
      intro part mem
      cases mem
    | @part data _ nonempty nextReady rest =>
      obtain ⟨isData, ends⟩ := Prod.mk.inj rest
      obtain ⟨results, last, parts, ends, readOn, delivered⟩ := ih nextReady laterPositive
        (Prod.ext rfl ends.symm)
      dsimp only
      rw [readOn]
      refine ⟨_, last, data :: parts, ends, rfl, ?_, ?_, ?_, ?_⟩
      · rw [delivered.isResults]
        rfl
      · intro part mem
        rcases mem_cons.mp mem with rfl | isLater
        · exact nonempty
        · exact delivered.nonempty part isLater
      · rw [isData]
        exact (prefix_append_right_inj data).mpr delivered.inOrder
      · intro ended
        obtain ⟨whole, isInput⟩ := delivered.complete ended
        exact ⟨by rw [flatten_cons, whole, isData], isInput⟩

theorem length_read_all {reader last : BodyReader} {results : List (Except HttpError (List Byte))}
    (ran : readAll parser reader rooms = some (results, last)) : results.length = rooms.length := by
  induction rooms generalizing reader results with
  | nil =>
    cases ran
    rfl
  | cons room rooms ih =>
    rw [readAll] at ran
    split at ran
    · cases ran
    next out next read =>
      obtain ⟨⟨_, _⟩, ranRest, isResults⟩ := Option.map_eq_some_iff.mp ran
      cases isResults
      rw [length_cons, length_cons, ih ranRest]

theorem length_le_flatten {parts : List (List Byte)} (nonempty : ∀ part ∈ parts, part ≠ []) :
    parts.length ≤ parts.flatten.length := by
  induction parts with
  | nil => exact Nat.le_refl 0
  | cons part parts ih =>
    have pos := length_pos_iff.mpr (nonempty part mem_cons_self)
    have later := ih (fun other mem => nonempty other (mem_cons_of_mem _ mem))
    rw [length_cons, flatten_cons, length_append]
    omega

/-- The calls return the payload of the chunks, part by part, and after the last part the
end of the body, with exactly what follows the body left in the source; more calls than
the payload has bytes are enough to get there. -/
theorem chunked_body_delivered (spec : FollowsSpec parser) (chunks : List Chunk)
    (ending : Ending) (leftover pending after : List Byte)
    (isBody : leftover ++ pending = encodeChunks chunks ++ (ending.encode ++ after))
    (grants : Nat → Nat) (rooms : List Nat) (positive : ∀ room ∈ rooms, 0 < room) :
    ∃ results reader parts ends,
      readAll parser (new .chunked none leftover ⟨pending, grants, 0⟩) rooms =
          some (results, reader) ∧
        Delivered after (payload chunks) results reader parts ends ∧
        ((payload chunks).length < rooms.length → 0 < ends) := by
  have owed : (new .chunked none leftover ⟨pending, grants, 0⟩).owed parser =
      (payload chunks, .complete after) :=
    (congrArg (Stage.decode parser · _) isBody).trans (Stage.decode_encoded spec chunks ending)
  obtain ⟨results, reader, parts, ends, ran, delivered⟩ := reads_deliver (ready_new _ _ _ _) positive owed
  refine ⟨results, reader, parts, ends, ran, delivered, fun enough => ?_⟩
  have counted := length_read_all ran
  have few := (length_le_flatten delivered.nonempty).trans delivered.inOrder.length_le
  rw [delivered.isResults, length_append, length_map, length_replicate] at counted
  omega

def bytesOf (text : String) : List Byte :=
  text.toList.map fun char => BitVec.ofNat 8 char.toNat

/-- A chunk of three bytes with an extension, and an ending with one trailer field. -/
def fooChunk : Chunk where
  line := bytesOf "3;x=1\r\n"
  data := bytesOf "foo"
  isLine := ⟨bytesOf "3", [], bytesOf ";x=1", by decide, by decide, by decide, by decide,
    (fun _ member => by cases member), .inr ⟨bytesOf "x=1", by decide, by decide⟩⟩
  short := by decide
  nonempty := by decide
  small := by decide

def oneField : Ending where
  line := bytesOf "0\r\n"
  fields := [bytesOf "a: b"]
  isLine := ⟨bytesOf "0", [], [], by decide, by decide, by decide, by decide,
    (fun _ member => by cases member), .inl rfl⟩
  short := by decide
  clean := by decide

theorem foo_body_delivered : ∃ results reader parts ends,
      readAll parseChunkSize (new .chunked none (bytesOf "3;x")
          ⟨bytesOf "=1\r\nfoo\r\n0\r\na: b\r\n\r\nHTTP", fun count => count % 3, 0⟩) [2, 5, 1, 9] =
          some (results, reader) ∧
        Delivered (bytesOf "HTTP") (bytesOf "foo") results reader parts ends ∧ 0 < ends := by
  obtain ⟨results, reader, parts, ends, ran, delivered, ended⟩ :=
    chunked_body_delivered parse_chunk_size_follows_spec [fooChunk] oneField (bytesOf "3;x")
      (bytesOf "=1\r\nfoo\r\n0\r\na: b\r\n\r\nHTTP") (bytesOf "HTTP") (by decide)
      (fun count => count % 3) [2, 5, 1, 9] (by decide)
  exact ⟨results, reader, parts, ends, ran, delivered, ended (by decide)⟩

/-- A body that the reader accepts, cut off before its end: whatever the cuts and buffers,
the calls return a beginning of its payload and can end only with `UnexpectedEof`, which
more calls than bytes get to. -/
theorem truncated_body_detected {framing : Framing} {contentLength : Option Nat}
    {leftover pending payload : List Byte} {grants : Nat → Nat} {last : BodyReader}
    (positive : ∀ room ∈ rooms, 0 < room)
    (accepted : readBody parser (new framing contentLength leftover ⟨pending, grants, 0⟩) rooms =
      some (payload, some (.ok []), last))
    (whole : last.source.input = []) {buffered unread missing : List Byte}
    (cut : leftover ++ pending = (buffered ++ unread) ++ missing) (proper : missing ≠ [])
    (otherGrants : Nat → Nat) {otherRooms : List Nat} (alsoPositive : ∀ room ∈ otherRooms, 0 < room) :
    ∃ bytes ending stopped,
      readBody parser (new framing contentLength buffered ⟨unread, otherGrants, 0⟩) otherRooms =
          some (bytes, ending, stopped) ∧
        bytes <+: payload ∧ (ending = none ∨ ending = some (.error .unexpectedEof)) ∧
        (payload.length < otherRooms.length → ending ≠ none) := by
  obtain ⟨_, _, _, ran, _, atEnd, _⟩ := @read_body_spec parser _ _
    (ready_new framing contentLength leftover ⟨pending, grants, 0⟩) positive
  cases ran.symm.trans accepted
  obtain ⟨isPayload, isOk, isRest⟩ := atEnd _ rfl
  rw [owed_new] at isPayload isOk isRest
  cases decoded : Stage.decode parser (leftover ++ pending) (startStage framing contentLength) with
  | mk owed ending =>
    rw [decoded] at isPayload isOk isRest
    cases ending with
    | fails error => cases isOk
    | complete rest =>
      obtain rfl : payload = owed := isPayload
      rw [← isRest rest rfl, whole, cut] at decoded
      obtain ⟨some, short, inOrder⟩ := Stage.decode_truncated proper decoded
      obtain ⟨bytes, ending, stopped, ran, front, atEnd, ends⟩ := @read_body_spec parser _ _
        (ready_new framing contentLength buffered ⟨unread, otherGrants, 0⟩) alsoPositive
      rw [owed_new, short] at front atEnd ends
      refine ⟨bytes, ending, stopped, ran, front.trans inOrder, ?_, fun enough => ends ?_⟩
      · cases ending with
        | none => exact .inl rfl
        | some result => exact .inr (congrArg _ (atEnd result rfl).2.1)
      · exact inOrder.length_le.trans_lt enough

theorem cut_foo_detected : ∃ bytes ending stopped,
      readBody parseChunkSize (new .chunked none (bytesOf "3;x=1\r\nf") ⟨bytesOf "oo\r\n0\r", fun _ => 9, 0⟩)
          [2, 5, 1, 9] = some (bytes, ending, stopped) ∧
        bytes <+: bytesOf "foo" ∧ (ending = none ∨ ending = some (.error .unexpectedEof)) ∧
        ((bytesOf "foo").length < 4 → ending ≠ none) :=
  @truncated_body_detected parseChunkSize [3, 1] .chunked none
    (bytesOf "3;x=1\r\nfoo\r\n0\r\n\r\n") [] (bytesOf "foo") (fun _ => 1) _ (by decide) rfl rfl
    (bytesOf "3;x=1\r\nf") (bytesOf "oo\r\n0\r") (bytesOf "\n\r\n") (by decide) (by decide)
    (fun _ => 9) [2, 5, 1, 9] (by decide)

end BodyReader

end ViCell.Http

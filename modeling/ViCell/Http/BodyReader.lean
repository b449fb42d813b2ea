import ViCell.Api

/-!
# The response body reader

`BodyReader` decodes a body with a known length or in chunks, a slice at a time, from
bytes that came with the headers and then from a blocking transport.  The parser of
chunk-size lines is a parameter, since the source takes it from a library.
-/

namespace ViCell.Http

def cr : Byte := 0x0D

def lf : Byte := 0x0A

inductive HttpError where
  | unexpectedEof
  | badChunk
  deriving DecidableEq, Repr

inductive SizeParse where
  | complete (consumed size : Nat)
  | more
  | invalid
  deriving DecidableEq, Repr

/-- A transport with the bytes still to come. Its `count`-th read gives as many bytes as
`grants` says, but at least one and no more than asked for and there. -/
structure Transport where
  pending : List Byte
  grants : Nat → Nat
  count : Nat

def Transport.read (transport : Transport) (room : Nat) : List Byte × Transport :=
  let size := min (max 1 (transport.grants transport.count)) room
  (transport.pending.take size,
    { transport with pending := transport.pending.drop size, count := transport.count + 1 })

/-- The bytes that came with the headers, how many of them are used, and the transport. -/
structure Source where
  leftover : List Byte
  leftoverPos : Nat
  transport : Transport

namespace Source

def leftoverEmpty (source : Source) : Bool := decide (source.leftoverPos ≥ source.leftover.length)

def drainLeftover (source : Source) (room : Nat) : List Byte × Source :=
  let data := (source.leftover.drop source.leftoverPos).take room
  (data, { source with leftoverPos := source.leftoverPos + data.length })

def readTransport (source : Source) (room : Nat) : List Byte × Source :=
  let (data, transport) := source.transport.read room
  (data, { source with transport })

def nextByte (source : Source) : Option Byte × Source :=
  if source.leftoverEmpty = false then
    (some (source.leftover.getD source.leftoverPos 0),
      { source with leftoverPos := source.leftoverPos + 1 })
  else
    let (data, source) := source.readTransport 1
    (data.head?, source)

def fill (source : Source) (room : Nat) : List Byte × Source :=
  if room = 0 then ([], source)
  else if source.leftoverEmpty = false then source.drainLeftover room
  else source.readTransport room

def input (source : Source) : List Byte :=
  source.leftover.drop source.leftoverPos ++ source.transport.pending

end Source

inductive ChunkPhase where
  | size
  | data
  | trailingCrlf
  | trailer
  deriving DecidableEq, Repr

/-- `lineBuf` is the used part of the accumulator. -/
structure Chunked where
  phase : ChunkPhase
  chunkRemaining : Nat
  lineBuf : List Byte
  done : Bool
  deriving DecidableEq, Repr

def lineBufLen : Nat := 32

def maxChunkSize : Nat := 16 * 1024 * 1024

namespace Chunked

def start : Chunked := ⟨.size, 0, [], false⟩

def beginChunk (chunked : Chunked) (size : Nat) : Chunked :=
  { chunked with chunkRemaining := size, lineBuf := [], phase := .data }

def setPhase (chunked : Chunked) (phase : ChunkPhase) : Chunked := { chunked with phase }

variable (parser : List Byte → SizeParse)

/-- The loop of `parse_size_line`; the accumulator fills up after `lineBufLen` turns. -/
def parseSizeLine : Nat → Chunked → Source →
    Option (Except HttpError (Option Nat) × Chunked × Source)
  | 0, _, _ => none
  | fuel + 1, chunked, source =>
    match if chunked.lineBuf = [] then .more else parser chunked.lineBuf with
    | .complete _ size =>
      if size > maxChunkSize then some (.error .badChunk, chunked, source)
      else some (.ok (some size), { chunked with lineBuf := [] }, source)
    | .invalid => some (.error .badChunk, chunked, source)
    | .more =>
      match source.nextByte with
      | (none, source) => some (.ok none, chunked, source)
      | (some byte, source) =>
        if chunked.lineBuf.length ≥ lineBufLen then
          some (.error .badChunk, chunked, source)
        else
          parseSizeLine fuel { chunked with lineBuf := chunked.lineBuf ++ [byte] } source

def serveLoop : Nat → Source → Nat → List Byte → Option (Except HttpError (List Byte) × Source)
  | 0, _, _, _ => none
  | fuel + 1, source, want, written =>
    if written.length < want then
      match source.fill (want - written.length) with
      | ([], source) =>
        if written = [] then some (.error .unexpectedEof, source) else some (.ok written, source)
      | (data, source) => serveLoop fuel source want (written ++ data)
    else some (.ok written, source)

def served (chunked : Chunked) (count : Nat) : Chunked :=
  { chunked with
    chunkRemaining := chunked.chunkRemaining - count
    phase := if chunked.chunkRemaining - count = 0 then .trailingCrlf else chunked.phase }

def serveChunkData (chunked : Chunked) (source : Source) (room : Nat) :
    Option (Except HttpError (List Byte) × Chunked × Source) :=
  let want := min chunked.chunkRemaining room
  match serveLoop (want + 1) source want [] with
  | none => none
  | some (.error error, source) => some (.error error, chunked, source)
  | some (.ok data, source) => some (.ok data, chunked.served data.length, source)

def consume : List Byte → Source → Except HttpError Unit × Source
  | [], source => (.ok (), source)
  | expected :: rest, source =>
    match source.nextByte with
    | (none, source) => (.error .unexpectedEof, source)
    | (some byte, source) =>
      if byte = expected then consume rest source else (.error .badChunk, source)

def drainTrailer : Nat → Bool → Bool → Source → Option (Except HttpError Unit × Source)
  | 0, _, _, _ => none
  | fuel + 1, prevCr, lineHasContent, source =>
    match source.nextByte with
    | (none, source) => some (.error .unexpectedEof, source)
    | (some byte, source) =>
      if byte = cr then drainTrailer fuel true (lineHasContent || prevCr) source
      else if byte = lf ∧ prevCr = true then
        if lineHasContent = false then some (.ok (), source)
        else drainTrailer fuel false false source
      else drainTrailer fuel false true source

/-- The loop of `read_chunked`; after at most three turns it returns. -/
def readChunked : Nat → Chunked → Source → Nat →
    Option (Except HttpError (List Byte) × Chunked × Source)
  | 0, _, _, _ => none
  | fuel + 1, chunked, source, room =>
    if chunked.done then some (.ok [], chunked, source)
    else match chunked.phase with
    | .size =>
      match parseSizeLine parser (lineBufLen + 2) chunked source with
      | none => none
      | some (.error error, chunked, source) => some (.error error, chunked, source)
      | some (.ok none, chunked, source) => some (.error .unexpectedEof, chunked, source)
      | some (.ok (some size), chunked, source) =>
        if size = 0 then readChunked fuel (chunked.setPhase .trailer) source room
        else readChunked fuel (chunked.beginChunk size) source room
    | .data => serveChunkData chunked source room
    | .trailingCrlf =>
      match consume [cr, lf] source with
      | (.error error, source) => some (.error error, chunked, source)
      | (.ok (), source) => readChunked fuel (chunked.setPhase .size) source room
    | .trailer =>
      match drainTrailer (source.input.length + 1) false false source with
      | none => none
      | some (.error error, source) => some (.error error, chunked, source)
      | some (.ok (), source) => some (.ok [], { chunked with done := true }, source)

end Chunked

inductive BodyState where
  | contentLength (remaining : Nat)
  | chunked (chunked : Chunked)

inductive Framing where
  | contentLength
  | chunked

structure BodyReader where
  state : BodyState
  source : Source

namespace BodyReader

def new (framing : Framing) (contentLength : Option Nat) (leftover : List Byte)
    (transport : Transport) : BodyReader where
  state :=
    match framing with
    | .contentLength => .contentLength (contentLength.getD 0)
    | .chunked => .chunked .start
  source := ⟨leftover, 0, transport⟩

def readContentLength (remaining : Nat) (source : Source) (room : Nat) :
    Except HttpError (List Byte) × BodyReader :=
  if remaining = 0 then (.ok [], ⟨.contentLength remaining, source⟩)
  else
    let (data, source) := source.fill (min remaining room)
    if data = [] then (.error .unexpectedEof, ⟨.contentLength remaining, source⟩)
    else (.ok data, ⟨.contentLength (remaining - data.length), source⟩)

def read (parser : List Byte → SizeParse) (reader : BodyReader) (room : Nat) :
    Option (Except HttpError (List Byte) × BodyReader) :=
  if room = 0 then some (.ok [], reader)
  else match reader.state with
  | .contentLength remaining => some (readContentLength remaining reader.source room)
  | .chunked chunked =>
    (chunked.readChunked parser 4 reader.source room).map
      fun (result, chunked, source) => (result, ⟨.chunked chunked, source⟩)

def readAll (parser : List Byte → SizeParse) :
    BodyReader → List Nat → Option (List (Except HttpError (List Byte)) × BodyReader)
  | reader, [] => some ([], reader)
  | reader, room :: rooms =>
    match reader.read parser room with
    | none => none
    | some (result, reader) =>
      (readAll parser reader rooms).map fun (results, reader) => (result :: results, reader)

end BodyReader

end ViCell.Http

import RatingArchive.Archive
import RatingArchive.Writer
/-!
# Transport

An archive travels between processes as a stream: the size of the header, the header, the user
index and the item index of the visible records, their number, the cutoff, the size of the record
region, and the region. What arrives has no path; it sees what the sender saw and is checked like
an archive that is opened, except that the sender's header still describes the whole archive.

The sender counts the bytes that it writes. Records are copied in pieces, by the sender and by the
receiver alike.
-/

namespace RatingArchive.Archive

/-- The size of the pieces in which records are copied. -/
def pieceSize : Nat := 4096

/-- Takes a value, or fails with its error. -/
def require {σ α : Type} : Except Error α → EStateM Error σ α
  | .ok value => pure value
  | .error error => throw error

/-- Fails with a fault of the data, unless a condition holds. -/
def ensure {σ : Type} (holds : Prop) [Decidable holds] (fault : DataFault) :
    EStateM Error σ Unit :=
  if holds then pure () else throw (.invalidData fault)

/-! ## Export -/

/-- A string of bytes cut into pieces, of which the last one may be shorter. -/
def pieces (bytes : Bytes) : List Bytes :=
  if bytes.isEmpty then [] else bytes.take pieceSize :: pieces (bytes.drop pieceSize)
termination_by bytes.length
decreasing_by
  next some =>
    have : bytes.length ≠ 0 := by simpa using some
    rw [List.length_drop, pieceSize]
    omega

section

variable {σ : Type} [Writer σ]

/-- Writes a part of a stream. -/
def put (part : Bytes) : EStateM Error σ Unit := fun writer =>
  match Writer.put part writer with
  | .ok _ writer => .ok () writer
  | .error failure writer => .error (.io failure) writer

/-- Writes an index, and answers its size. -/
def putTable (table : IndexTable) : EStateM Error σ Nat := do
  let bytes ← require table.encode
  put bytes
  return bytes.length

/-- Writes the stream of an archive, and answers the number of bytes written. -/
def exportTo (archive : Archive) : EStateM Error σ Nat := do
  let header := archive.header.render
  put (word32 (UInt32.ofNat header.length))
  put header
  let users ← putTable archive.users
  let items ← putTable archive.items
  put (word32 archive.limit)
  put (word64 archive.cutoff)
  put (word64 (UInt64.ofNat archive.region.length))
  (pieces archive.region).forM put
  return 4 + header.length + users + items + (4 + 8 + 8) + archive.region.length

end

/-- The stream of an archive, and a report of it. -/
def serializeLogged (archive : Archive) : Logged Bytes :=
  match archive.exportTo.run (⟨[]⟩ : MemorySink) with
  | .ok size sink => ⟨.ok sink.content, [.exported archive.limit size]⟩
  | .error error _ => ⟨.error error, []⟩

/-- The stream of an archive. -/
def serialize (archive : Archive) : Except Error Bytes := archive.serializeLogged.result

/-- Writes the stream of an archive into a buffer of `room` zero bytes. Answers the size of the
stream, with the buffer. If the stream does not fit, as much of it is written as fits. -/
def exportInto (archive : Archive) (room : Nat) : Logged Nat × Bytes :=
  match archive.exportTo.run (FixedBuffer.new room) with
  | .ok size buffer => (⟨.ok size, [.exported archive.limit size]⟩, buffer.content)
  | .error error buffer => (⟨.error error, []⟩, buffer.content)

/-! ## Import -/

/-- Takes a piece of fixed length from a stream. The stream must not end inside it. -/
def takePart (n : Nat) : EStateM Error Source Bytes := fun source =>
  match Source.takeExactly n source with
  | .ok bytes source => .ok bytes source
  | .error failure source => .error (.ofRead .endInTransport failure) source

/-- Takes a 32-bit word from a stream. -/
def takeWord32 : EStateM Error Source UInt32 := do
  return ofWord32 (← takePart 4)

/-- Takes a 64-bit word from a stream. -/
def takeWord64 : EStateM Error Source UInt64 := do
  return ofWord64 (← takePart 8)

/-- Takes a header from a stream. -/
def takeHeader : EStateM Error Source Header := do
  require (Header.parse (← takePart headerSize))

/-- Takes `n` bytes of records from a stream, piece by piece. -/
def takeRecords (n : Nat) : EStateM Error Source Bytes :=
  if n = 0 then pure []
  else do
    let piece ← takePart (min n pieceSize)
    let rest ← takeRecords (n - min n pieceSize)
    return piece ++ rest
termination_by n
decreasing_by
  rw [pieceSize]
  omega

/-- Reads an archive from a stream. -/
def read : EStateM Error Source Archive := do
  let size ← takeWord32
  ensure (size.toNat = headerSize) (.headerSize size)
  let header ← takeHeader
  let users ← IndexTable.readStream
  let items ← IndexTable.readStream
  let limit ← takeWord32
  let cutoff ← takeWord64
  let dataSize ← takeWord64
  ensure (limit ≤ header.records) (.limitBeyond limit header.records)
  let expected := limit.toNat * header.format.recordSize
  ensure (dataSize.toNat = expected) (.dataSize dataSize expected limit)
  let region ← takeRecords dataSize.toNat
  require (users.checkCoverage .user limit)
  require (items.checkCoverage .item limit)
  return { path := none, modified := none, header, region, users, items, limit, cutoff }

/-- The archive that a stream begins with. -/
def ofSource (source : Source) : Except Error Archive :=
  match read.run source with
  | .ok archive _ => .ok archive
  | .error error _ => .error error

/-- The archive in a stream of bytes. -/
def deserialize (bytes : Bytes) : Except Error Archive := ofSource (.ofBytes bytes)

/-- The archive that a stream begins with, and a report of it. -/
def ofSourceLogged (source : Source) : Logged Archive :=
  match ofSource source with
  | .error error => ⟨.error error, []⟩
  | .ok archive => ⟨.ok archive, [.imported archive.limit archive.header]⟩

end RatingArchive.Archive

import RatingArchive.Sink
/-!
# Sinks in files

A file is written through a buffer of one mebibyte, which collects small pieces and is passed on
when a piece does not fit, before the file position is moved, and when the sink is released. A patch
moves the position, writes, and moves it back to the end.

The end of a patch is computed in 64 bits, so that it wraps around for offsets near the largest
word. Such offsets are no positions of a file, and moving there fails.
-/

namespace RatingArchive

/-- A file open for writing. -/
structure FileSink where
  path : String
  /-- What the file holds. -/
  disk : Bytes
  /-- The position in the file at which the buffer will be written. -/
  position : Nat
  /-- The bytes that wait to be written to the file. -/
  buffer : Bytes
  /-- The number of bytes appended so far. -/
  size : Nat
  deriving DecidableEq, Repr

namespace FileSink

/-- The size of the buffer. -/
def bufferSize : Nat := 1024 * 1024

/-- The largest position in a file. -/
def maxPosition : Nat := 0x7FFFFFFFFFFFFFFF

/-- Creates the file at `path`, or empties it. -/
def create (path : String) : FileSink := ⟨path, [], 0, [], 0⟩

/-- Writes bytes to the file at its position, which moves behind them. A gap before the position is
filled with zeros. -/
def writeThrough (sink : FileSink) (bytes : Bytes) : FileSink :=
  let padded := sink.disk ++ List.replicate (sink.position - sink.disk.length) 0
  { sink with
    disk := overwrite padded sink.position bytes
    position := sink.position + bytes.length }

/-- Writes the buffer to the file. -/
def emptied (sink : FileSink) : FileSink :=
  if sink.buffer.isEmpty then sink else { sink.writeThrough sink.buffer with buffer := [] }

/-- Writes bytes to the file by way of the buffer. Pieces as large as the buffer bypass it. -/
def write (sink : FileSink) (bytes : Bytes) : FileSink :=
  let room := bufferSize - sink.buffer.length
  if bytes.length < room then { sink with buffer := sink.buffer ++ bytes }
  else
    let sink := if room < bytes.length then sink.emptied else sink
    if bufferSize ≤ bytes.length then sink.writeThrough bytes
    else { sink with buffer := sink.buffer ++ bytes }

/-- Moves the position of the file. -/
def seek (sink : FileSink) (position : Nat) : FileSink := { sink.emptied with position }

/-- Writes bytes at the end. -/
def append (bytes : Bytes) : EStateM IoError FileSink Nat := fun sink =>
  .ok bytes.length { sink.write bytes with size := sink.size + bytes.length }

/-- Overwrites the bytes from `offset` on, none of them past the end. -/
def patch (offset : UInt64) (bytes : Bytes) : EStateM IoError FileSink Unit := fun sink =>
  let start := offset.toNat
  if sink.size < (start + bytes.length) % UInt64.size then .error .patchUnwritten sink
  else if maxPosition < start then .error .badPosition sink.emptied
  else .ok () (((sink.seek start).write bytes).seek sink.size)

/-- Writes the buffer to the file. -/
def flush : EStateM IoError FileSink Unit := fun sink => .ok () sink.emptied

instance : Sink FileSink where
  size := FileSink.size
  append := append
  patch := patch
  flush := flush
  sync := flush

/-- What the file holds once the sink is released. -/
def released (sink : FileSink) : Bytes := sink.emptied.disk

end FileSink

end RatingArchive

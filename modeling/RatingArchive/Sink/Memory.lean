import RatingArchive.Sink
/-!
# Sinks in memory

A growing buffer, and a buffer of limited size whose operations can be made to fail, for trying out
what becomes of an archive when its medium fails.

The end of a patch is computed in 64 bits. It wraps around for offsets near the largest word; the
patch is then either past the end of the buffer, or not a range of bytes at all.
-/

namespace RatingArchive

/-- A buffer that grows as needed. -/
structure MemorySink where
  content : Bytes
  deriving DecidableEq, Inhabited, Repr

namespace MemorySink

/-- Writes bytes at the end. -/
def append (bytes : Bytes) : EStateM IoError MemorySink Nat := fun sink =>
  .ok bytes.length ⟨sink.content ++ bytes⟩

/-- Overwrites the bytes from `offset` on, none of them past the end. -/
def patch (offset : UInt64) (bytes : Bytes) : EStateM IoError MemorySink Unit := fun sink =>
  let start := offset.toNat
  let stop := (start + bytes.length) % UInt64.size
  if sink.content.length < stop then
    .error (.patchPastEnd start stop sink.content.length) sink
  else if stop < start then .error (.patchReversed start stop) sink
  else .ok () ⟨overwrite sink.content start bytes⟩

instance : Sink MemorySink where
  size sink := sink.content.length
  append := append
  patch := patch
  flush := pure ()
  sync := pure ()

end MemorySink

/-- A buffer of limited size, some of whose operations fail. -/
structure BoundedSink where
  buffer : MemorySink
  /-- The largest size of the content; without one there is no limit. -/
  capacity : Option Nat
  refusesPatches : Bool
  refusesSync : Bool
  deriving DecidableEq, Repr

namespace BoundedSink

/-- Runs an operation of the buffer. -/
def onBuffer {α : Type} (operation : EStateM IoError MemorySink α) :
    EStateM IoError BoundedSink α := fun sink =>
  match operation sink.buffer with
  | .ok value buffer => .ok value { sink with buffer }
  | .error failure buffer => .error failure { sink with buffer }

/-- Writes bytes at the end, all of them or none. -/
def append (bytes : Bytes) : EStateM IoError BoundedSink Nat := fun sink =>
  let size := sink.buffer.content.length + bytes.length
  if sink.capacity.any (· < size) then .error (.device .other "sink full") sink
  else onBuffer (MemorySink.append bytes) sink

/-- Overwrites the bytes from `offset` on, unless the sink refuses. -/
def patch (offset : UInt64) (bytes : Bytes) : EStateM IoError BoundedSink Unit := fun sink =>
  if sink.refusesPatches then .error (.device .other "sink rejects patches") sink
  else onBuffer (MemorySink.patch offset bytes) sink

/-- Does nothing, unless the sink refuses. -/
def sync : EStateM IoError BoundedSink Unit := fun sink =>
  if sink.refusesSync then .error (.device .other "sink cannot sync") sink else .ok () sink

instance : Sink BoundedSink where
  size sink := sink.buffer.content.length
  append := append
  patch := patch
  flush := pure ()
  sync := sync

end BoundedSink

end RatingArchive

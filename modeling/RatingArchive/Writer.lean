import RatingArchive.Sink.Memory
/-!
# Writers

A writer takes the parts of a stream one after the other. What it has taken stays when it fails
later. A growing buffer takes everything; a buffer of fixed size takes as much as there is room for.
-/

namespace RatingArchive

/-- Outputs that grow at the end. -/
class Writer (σ : Type) where
  /-- Takes bytes, all of them unless it fails. -/
  put : Bytes → EStateM IoError σ Unit

instance : Writer MemorySink where
  put bytes := do let _ ← MemorySink.append bytes

/-- A buffer of fixed size that is filled from the front. -/
structure FixedBuffer where
  /-- The bytes written so far. -/
  filled : Bytes
  /-- The number of bytes that can still be written. -/
  free : Nat
  deriving DecidableEq, Repr

namespace FixedBuffer

/-- A buffer of `size` bytes, none of them written. -/
def new (size : Nat) : FixedBuffer := ⟨[], size⟩

/-- All bytes of the buffer. Those that were not written are zeros. -/
def content (buffer : FixedBuffer) : Bytes := buffer.filled ++ List.replicate buffer.free 0

/-- Takes bytes, or as many of them as there is room for. -/
def put (bytes : Bytes) : EStateM IoError FixedBuffer Unit := fun buffer =>
  if bytes.length ≤ buffer.free then
    .ok () ⟨buffer.filled ++ bytes, buffer.free - bytes.length⟩
  else .error .bufferFull ⟨buffer.filled ++ bytes.take buffer.free, 0⟩

instance : Writer FixedBuffer where
  put := put

end FixedBuffer

end RatingArchive

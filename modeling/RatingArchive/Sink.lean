import RatingArchive.Bytes
import RatingArchive.IoError
/-!
# Sinks

A sink is what an archive is written to. Bytes are appended at its end, and bytes that it holds can
be patched in place. Every operation may fail, and what the sink is after a failure is up to it.
-/

namespace RatingArchive

/-- Outputs that grow at the end and can be patched. -/
class Sink (σ : Type) where
  /-- The number of bytes written so far. -/
  size : σ → Nat
  /-- Writes bytes at the end, and answers how many. -/
  append : Bytes → EStateM IoError σ Nat
  /-- Overwrites bytes written before, from `offset` on. -/
  patch : (offset : UInt64) → Bytes → EStateM IoError σ Unit
  /-- Hands all bytes on to the medium. -/
  flush : EStateM IoError σ Unit
  /-- Makes all bytes durable. -/
  sync : EStateM IoError σ Unit

end RatingArchive

import RatingArchive.Bytes
import RatingArchive.IoError
/-!
# Streams that deliver bytes in pieces

A source hands out its bytes chunk by chunk and then either ends or fails. A reader asks for a
number of bytes and collects chunks until it has them. What it takes is lost to later readers, also
when the source ends or fails before the request is met.

What a request yields (`pull_fst`) and what it leaves (`flatten_pull_snd`) depends on the bytes of
the source only, not on the way they are cut into chunks.
-/

namespace RatingArchive

/-- A stream of bytes. -/
structure Source where
  /-- The bytes to come, in the pieces in which they are delivered. -/
  chunks : List Bytes
  /-- The failure behind the last chunk; without one the stream ends there. -/
  fault : Option IoError := none
  deriving Repr

namespace Source

/-- The bytes to come. -/
def remaining (source : Source) : Bytes := source.chunks.flatten

/-- The source that delivers `bytes` at once. -/
def ofBytes (bytes : Bytes) : Source := ⟨[bytes], none⟩

theorem remaining_ofBytes (bytes : Bytes) : (ofBytes bytes).remaining = bytes := by
  simp [remaining, ofBytes]

/-- Takes up to `n` bytes from the chunks; the second part is what is left. -/
def pull : (n : Nat) → List Bytes → Bytes × List Bytes
  | 0, chunks => ([], chunks)
  | _, [] => ([], [])
  | n + 1, chunk :: chunks =>
    if n + 1 < chunk.length then (chunk.take (n + 1), chunk.drop (n + 1) :: chunks)
    else
      let (bytes, rest) := pull (n + 1 - chunk.length) chunks
      (chunk ++ bytes, rest)

/-- A request yields the next bytes of the source, as many as there are. -/
theorem pull_fst (n : Nat) (chunks : List Bytes) : (pull n chunks).1 = chunks.flatten.take n := by
  induction chunks generalizing n with
  | nil => cases n <;> simp [pull]
  | cons chunk chunks ih =>
    cases n with
    | zero => simp [pull]
    | succ n =>
      rw [pull, List.flatten_cons, List.take_append]
      split
      · next h => simp [Nat.sub_eq_zero_of_le (Nat.le_of_lt h)]
      · next h => simp [ih, List.take_of_length_le (Nat.le_of_not_lt h)]

/-- A request leaves the bytes behind those that it yields. -/
theorem flatten_pull_snd (n : Nat) (chunks : List Bytes) :
    (pull n chunks).2.flatten = chunks.flatten.drop n := by
  induction chunks generalizing n with
  | nil => cases n <;> simp [pull]
  | cons chunk chunks ih =>
    cases n with
    | zero => simp [pull]
    | succ n =>
      rw [pull, List.flatten_cons, List.drop_append]
      split
      · next h => simp [Nat.sub_eq_zero_of_le (Nat.le_of_lt h)]
      · next h => simp [ih, List.drop_of_length_le (Nat.le_of_not_lt h)]

/-- Takes exactly `n` bytes. -/
def takeExactly (n : Nat) : EStateM IoError Source Bytes := fun source =>
  let (bytes, rest) := pull n source.chunks
  if bytes.length = n then .ok bytes { source with chunks := rest }
  else .error (source.fault.getD .streamEnded) { source with chunks := rest }

/-- Takes `n` bytes, or all there are if the source ends before. -/
def takeUpTo (n : Nat) : EStateM IoError Source Bytes := fun source =>
  let (bytes, rest) := pull n source.chunks
  match source.fault with
  | some failure =>
    if bytes.length = n then .ok bytes { source with chunks := rest }
    else .error failure { source with chunks := rest }
  | none => .ok bytes { source with chunks := rest }

end Source

end RatingArchive

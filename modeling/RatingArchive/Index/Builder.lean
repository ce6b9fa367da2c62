import RatingArchive.Index.Table
import RatingArchive.Sink
/-!
# Writing index tables

A table is written as the number of its entries followed by the entries: the key, the length of the
run, and the slots. The number is fixed when a `Builder` is made. Entries have to arrive in strictly
ascending order of their keys and with at least one slot; an entry that is refused changes nothing.
-/

namespace RatingArchive

/-- An index table in the making. -/
structure Builder where
  /-- The number of entries the table will have. -/
  expected : UInt32
  /-- The number of entries it has. -/
  written : Nat
  lastKey : Option UInt64
  bytes : Bytes
  deriving DecidableEq, Repr

/-- The bytes of an entry. -/
def Entry.encode (entry : Entry) : Bytes :=
  word64 entry.key ++ word32 (UInt32.ofNat entry.slots.length) ++ entry.slots.flatMap word32

namespace Builder

/-- The start of a table of `expected` entries. -/
def new (expected : UInt32) : Builder := ⟨expected, 0, none, word32 expected⟩

/-- The size of the table in bytes so far. -/
def size (builder : Builder) : Nat := builder.bytes.length

/-- Why an entry is refused, if it is. -/
def refusal? (builder : Builder) (entry : Entry) : Option StateFault :=
  if builder.expected.toNat ≤ builder.written then some (.tableFull builder.expected)
  else
    match builder.lastKey with
    | some last =>
      if entry.key ≤ last then some (.keyOrder entry.key last) else refusedRun?
    | none => refusedRun?
where
  refusedRun? : Option StateFault :=
    if entry.slots.isEmpty then some (.emptyRun entry.key)
    else if UInt32.size ≤ entry.slots.length then some (.longRun entry.key)
    else none

/-- Adds an entry to the table. -/
def write (entry : Entry) : EStateM Error Builder Unit := fun builder =>
  match builder.refusal? entry with
  | some fault => .error (.illegalState fault) builder
  | none =>
    .ok () { builder with
      written := builder.written + 1
      lastKey := some entry.key
      bytes := builder.bytes ++ entry.encode }

/-- The finished table. All its entries have to be there. -/
def finish (builder : Builder) : Except Error Bytes :=
  if builder.written = builder.expected.toNat then .ok builder.bytes
  else .error (.illegalState (.unfinishedTable builder.written builder.expected))

/-- Appends the finished table to a sink, and answers its size. -/
def writeTo {σ : Type} [Sink σ] (builder : Builder) : EStateM Error σ Nat := fun sink =>
  match builder.finish with
  | .error error => .error error sink
  | .ok bytes =>
    match Sink.append bytes sink with
    | .ok _ sink => .ok bytes.length sink
    | .error failure sink => .error (.io failure) sink

end Builder

/-- The bytes of the table with the given entries. -/
def encodeEntries (entries : List Entry) : Except Error Bytes :=
  match (entries.forM Builder.write).run (Builder.new (UInt32.ofNat entries.length)) with
  | .ok _ builder => builder.finish
  | .error error _ => .error error

/-- The bytes of a table. -/
def IndexTable.encode (table : IndexTable) : Except Error Bytes := encodeEntries table.entries

@[simp] theorem Entry.length_encode (entry : Entry) : entry.encode.length = entry.size := by
  have run : (entry.slots.flatMap word32).length = 4 * entry.slots.length := by
    induction entry.slots with
    | nil => rfl
    | cons slot slots ih => simp [ih]; omega
  simp [encode, size, run]
  omega

end RatingArchive

import RatingArchive.Index.Builder
import RatingArchive.Source
/-!
# Reading index tables

A table is read from the front of a buffer, where the number of its entries is known beforehand, or
from a stream, where the table itself tells it. Both readers admit the same tables: keys ascend
strictly, and every run has slots, which ascend strictly.

The reader of buffers checks while it reads and takes off the buffer what it has read, also when it
fails: the number of entries and the key and run length of an entry before they are checked, the
slots of a run after. Sizes in its errors count from the start of the table. The reader of streams
first collects the bytes of the table, whose extent depends on its counts alone.
-/

namespace RatingArchive

/-- Reading from the front of a buffer. What has been read is off the buffer, also after a
failure. -/
abbrev BufferReader := EStateM Error Bytes

namespace BufferReader

/-- Takes `n` bytes off the buffer. -/
def take (n : Nat) : BufferReader Bytes := fun buffer => .ok (buffer.take n) (buffer.drop n)

/-- Fails unless `n` bytes are left of a buffer of `available` bytes that was read up to
`offset`. -/
def require (available offset n : Nat) : BufferReader Unit := fun buffer =>
  if buffer.length < n then .error (.truncated (offset + n) available) buffer else .ok () buffer

/-- Fails with a fault of the data, if there is one. -/
def check (fault? : Option DataFault) : BufferReader Unit := fun buffer =>
  match fault? with
  | some fault => .error (.invalidData fault) buffer
  | none => .ok () buffer

end BufferReader

/-- The words that `bytes` consist of, four bytes each. -/
def words32 : Bytes → List UInt32
  | a :: b :: c :: d :: rest => ofWord32 [a, b, c, d] :: words32 rest
  | _ => []

@[simp] theorem words32_word32_append (w : UInt32) (rest : Bytes) :
    words32 (word32 w ++ rest) = w :: words32 rest := by
  have whole := ofWord32_word32 w
  simp only [word32, bigEndian] at whole ⊢
  simp only [List.cons_append, List.nil_append, words32, whole]

/-- Words that were written one after the other are read back. -/
theorem words32_flatMap_word32 (words : List UInt32) : words32 (words.flatMap word32) = words := by
  induction words with
  | nil => rfl
  | cons w words ih => rw [List.flatMap_cons, words32_word32_append, ih]

/-- The fault of the first slot that is not larger than the one before it. -/
def slotOrderFault? (key : UInt64) : List UInt32 → Option DataFault
  | last :: slot :: slots =>
    if slot ≤ last then some (.slotOrder key slot last) else slotOrderFault? key (slot :: slots)
  | _ => none

/-- The fault of a key that is not larger than the one before it, or has no slots. -/
def keyFault? (last : Option UInt64) (key : UInt64) (length : Nat) : Option DataFault :=
  match last with
  | some last =>
    if key ≤ last then some (.keyOrder key last)
    else if length = 0 then some (.emptyRun key) else none
  | none => if length = 0 then some (.emptyRun key) else none

namespace IndexTable

/-! ## From a buffer -/

/-- Reads entries from a buffer of `available` bytes that was read up to `offset`. `last` is the
key before them. -/
def readEntries (available : Nat) :
    (count offset : Nat) → (last : Option UInt64) → BufferReader (List Entry)
  | 0, _, _ => pure []
  | count + 1, offset, last => do
    BufferReader.require available offset 12
    let key := ofWord64 (← BufferReader.take 8)
    let length := (ofWord32 (← BufferReader.take 4)).toNat
    BufferReader.check (keyFault? last key length)
    let start := offset + 12
    let size := 4 * length
    BufferReader.require available start size
    let slots := words32 ((← get).take size)
    BufferReader.check (slotOrderFault? key slots)
    let _ ← BufferReader.take size
    let entries ← readEntries available count (start + size) (some key)
    return ⟨key, slots⟩ :: entries

/-- Reads a table of `count` entries from the front of a buffer. -/
def read (count : UInt32) : BufferReader IndexTable := do
  let available := (← get).length
  BufferReader.require available 0 4
  let found := ofWord32 (← BufferReader.take 4)
  BufferReader.check (if found = count then none else some (.entryCount found count))
  let entries ← readEntries available count.toNat 4 none
  return ⟨entries⟩

/-! ## From a stream -/

/-- Takes a piece of fixed length from a stream. The stream must not end inside it. -/
def takeField (n : Nat) : EStateM Error Source Bytes := fun source =>
  match Source.takeExactly n source with
  | .ok bytes source => .ok bytes source
  | .error failure source => .error (.ofRead .endInTable failure) source

/-- Takes the slots of a key from a stream. -/
def takeRun (key : UInt64) (size : Nat) : EStateM Error Source Bytes := fun source =>
  match Source.takeUpTo size source with
  | .ok bytes source =>
    if bytes.length = size then .ok bytes source
    else .error (.invalidData (.endInRun key)) source
  | .error failure source => .error (.io failure) source

/-- Takes the bytes of `count` entries from a stream. -/
def takeEntries : (count : Nat) → EStateM Error Source Bytes
  | 0 => pure []
  | count + 1 => do
    let key ← takeField 8
    let length ← takeField 4
    let run ← takeRun (ofWord64 key) (4 * (ofWord32 length).toNat)
    let entries ← takeEntries count
    return key ++ length ++ run ++ entries

/-- Reads a table from a stream. -/
def readStream : EStateM Error Source IndexTable := do
  let count ← takeField 4
  let entries ← takeEntries (ofWord32 count).toNat
  match (read (ofWord32 count)).run (count ++ entries) with
  | .ok table _ => return table
  | .error error _ => throw error

end IndexTable

end RatingArchive

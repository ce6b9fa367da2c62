import RatingArchive.Proofs.Index.Shortage
/-!
# Where runs lie

A reader keeps the bytes of a table, and reads the slots of a key at the place where the table has
them (`runOffset`). This is where the reader stands when it decodes the run
(`IndexTable.read_at_runOffset`): behind the number of entries, the entries before and the key and
the length of its own.

Cutting a table at a limit shortens its runs, and leaves them where they are. So the runs of a table
that was cut, however often, lie within the bytes of the table that it was cut from
(`IndexTable.Within`).
-/

namespace RatingArchive

/-- The slots of an entry are the words that `data` has from `offset` on. -/
def Entry.LiesAt (entry : Entry) (data : Bytes) (offset : Nat) : Prop :=
  slice? data offset (4 * entry.slots.length) = some (entry.slots.flatMap word32)

/-- Where the run of an entry begins in the bytes of a table. -/
def runOffset (entries : List Entry) (i : Nat) : Nat :=
  4 + ((entries.take i).flatMap Entry.encode).length + 12

/-- What stands before a run and behind it. -/
theorem exists_tableBytes_eq {entries : List Entry} {i : Nat} (inside : i < entries.length) :
    ∃ front behind, tableBytes entries = front ++ (entries[i].slots.flatMap word32 ++ behind) ∧
      front.length = runOffset entries i := by
  refine ⟨word32 (UInt32.ofNat entries.length) ++ (entries.take i).flatMap Entry.encode ++
    (word64 entries[i].key ++ word32 (UInt32.ofNat entries[i].slots.length)),
    (entries.drop (i + 1)).flatMap Entry.encode, ?_, ?_⟩
  · rw [tableBytes, flatMap_split Entry.encode inside, Entry.encode]
    simp only [List.append_assoc]
  · simp only [List.length_append, length_word32, length_word64, runOffset]

/-- The bytes of a table have every run at its place. -/
theorem liesAt_runOffset {entries : List Entry} {i : Nat} (inside : i < entries.length) :
    entries[i].LiesAt (tableBytes entries) (runOffset entries i) := by
  obtain ⟨front, behind, split, place⟩ := exists_tableBytes_eq inside
  rw [Entry.LiesAt, split]
  exact slice?_append behind place (length_flatMap_word32 _)

/-! ## Where the reader decodes a run -/

namespace IndexTable

/-- The loop reads the entries before a run that is cut, and stops behind the length of the run. -/
theorem readEntries_take_at {available offset : Nat} {entries : List Entry}
    (ordered : Ordered entries) (fits : ∀ entry ∈ entries, entry.slots.length < UInt32.size)
    {i : Nat} (inside : i < entries.length) (tail : Bytes) {k : Nat}
    (cut : k < 4 * entries[i].slots.length) :
    let passed := (entries.take i).flatMap Entry.encode
    let front := (entries[i].encode ++ tail).take (12 + k)
    readEntries available entries.length offset none (passed ++ front) =
      .error (.truncated (offset + passed.length + 12 + 4 * entries[i].slots.length) available)
        (front.drop 12) := by
  intro passed front
  have mem : entries[i] ∈ entries := List.getElem_mem inside
  have count : entries.length = (entries.take i).length + (entries.length - (i + 1) + 1) := by
    rw [List.length_take]
    omega
  rw [count, readEntries_flatMap_encode_append front (ordered.take i) (by simp)
    fun entry mem => fits entry (List.mem_of_mem_take mem)]
  have follows : ∀ l, ((entries.take i).getLast?.map Entry.key).or none = some l →
      l < entries[i].key := by
    intro l present
    rw [Option.or_none, Option.map_eq_some_iff] at present
    obtain ⟨entry, last, rfl⟩ := present
    exact ordered.lt_getElem inside (List.mem_of_getLast? last)
  rw [readEntries_take_run tail (ordered.runs _ mem) follows (fits _ mem) (by omega) (by omega)]

/-- On a front of a table that ends within a run, the reader stops at the place of the run, and asks
for all of it. -/
theorem read_take_at {count : UInt32} {buffer rest : Bytes} {table : IndexTable}
    (found : (read count).run buffer = .ok table rest) {i : Nat} (inside : i < table.entries.length)
    {n : Nat} (reached : runOffset table.entries i ≤ n)
    (cut : n < runOffset table.entries i + 4 * table.entries[i].slots.length) :
    (read count).run (buffer.take n) =
      .error (.truncated (runOffset table.entries i + 4 * table.entries[i].slots.length) n)
        ((buffer.take n).drop (runOffset table.entries i)) := by
  obtain ⟨ordered, countable, length, rfl⟩ := read_eq_ok_iff.1 found
  obtain ⟨k, rfl⟩ := Nat.exists_eq_add_of_le reached
  generalize behind : (table.entries.drop (i + 1)).flatMap Entry.encode ++ rest = tail
  have front : (tableBytes table.entries ++ rest).take (runOffset table.entries i + k) =
      word32 count ++ ((table.entries.take i).flatMap Entry.encode ++
        (table.entries[i].encode ++ tail).take (12 + k)) := by
    rw [tableBytes, length, UInt32.ofNat_toNat, flatMap_split Entry.encode inside, runOffset,
      ← length_word32 count, ← behind]
    simp only [List.append_assoc, Nat.add_assoc, List.take_length_add_append]
  have available : 4 + ((table.entries.take i).flatMap Entry.encode ++
      (table.entries[i].encode ++ tail).take (12 + k)).length = runOffset table.entries i + k := by
    rw [List.length_append, List.length_take, List.length_append, Entry.length_encode, Entry.size,
      runOffset]
    omega
  have place : (word32 count ++ ((table.entries.take i).flatMap Entry.encode ++
      (table.entries[i].encode ++ tail).take (12 + k))).drop (runOffset table.entries i) =
        ((table.entries[i].encode ++ tail).take (12 + k)).drop 12 := by
    rw [runOffset, Nat.add_assoc, ← length_word32 count, List.drop_length_add_append,
      List.drop_length_add_append]
  rw [front, place, read_word32_append, ← length,
    readEntries_take_at ordered countable.slots_lt inside tail (by omega), available]
  rfl

/-- **The reader decodes every run at its place.** What it makes of the bytes there are the slots,
and it is there when it finds that the run was cut. -/
theorem read_at_runOffset {count : UInt32} {buffer rest : Bytes} {table : IndexTable}
    (found : (read count).run buffer = .ok table rest) {i : Nat}
    (inside : i < table.entries.length) :
    let start := runOffset table.entries i
    let size := 4 * table.entries[i].slots.length
    words32 ((buffer.drop start).take size) = table.entries[i].slots ∧
      ∀ n, start ≤ n → n < start + size →
        (read count).run (buffer.take n) =
          .error (.truncated (start + size) n) ((buffer.take n).drop start) := by
  refine ⟨?_, fun n reached cut => read_take_at found inside reached cut⟩
  obtain ⟨-, -, -, rfl⟩ := read_eq_ok_iff.1 found
  obtain ⟨front, behind, split, place⟩ := exists_tableBytes_eq inside
  rw [split, List.append_assoc, List.append_assoc, List.drop_left' place,
    List.take_left' (length_flatMap_word32 _), words32_flatMap_word32]

end IndexTable

/-! ## Cut tables -/

/-- The front of a slice is at the same place. -/
theorem slice?_take {bytes piece : Bytes} {start length n : Nat}
    (h : slice? bytes start length = some piece) (le : n ≤ length) :
    slice? bytes start n = some (piece.take n) := by
  simp only [slice?, Option.ite_none_right_eq_some, Option.some.injEq] at h ⊢
  obtain ⟨whole, rfl⟩ := h
  rw [List.length_take] at whole
  rw [List.take_take, Nat.min_eq_left le, List.length_take]
  exact ⟨by omega, rfl⟩

/-- A shorter run lies where the run does. -/
theorem Entry.LiesAt.below {entry : Entry} {data : Bytes} {offset : Nat}
    (h : entry.LiesAt data offset) (limit : UInt32) : (entry.below limit).LiesAt data offset := by
  have le : (entry.below limit).slots.length ≤ entry.slots.length := List.length_take_le' _ _
  have words : (entry.below limit).slots.flatMap word32 =
      (entry.slots.flatMap word32).take (4 * (entry.below limit).slots.length) := by
    have front : (entry.below limit).slots =
        entry.slots.take (entry.below limit).slots.length := by
      simp [Entry.below, lowerBound_le]
    rw [Nat.mul_comm, take_flatMap_of_width length_word32, ← front]
  rw [LiesAt, words]
  exact slice?_take h (Nat.mul_le_mul_left 4 le)

/-- Every run of a table is the front of a run of `whole`, and lies where that does. -/
def IndexTable.Within (table whole : IndexTable) : Prop :=
  ∀ entry ∈ table.entries, ∃ i, ∃ inside : i < whole.entries.length,
    whole.entries[i].key = entry.key ∧ entry.slots <+: whole.entries[i].slots ∧
      entry.LiesAt (tableBytes whole.entries) (runOffset whole.entries i)

namespace IndexTable

theorem within_self (table : IndexTable) : table.Within table := by
  intro entry mem
  obtain ⟨i, inside, rfl⟩ := List.getElem_of_mem mem
  exact ⟨i, inside, rfl, List.prefix_refl _, liesAt_runOffset inside⟩

/-- **Cutting a table** leaves its runs where they are. -/
theorem Within.below {table whole : IndexTable} (h : table.Within whole) (limit : UInt32) :
    (table.below limit).Within whole := by
  intro entry mem
  obtain ⟨⟨longer, listed, rfl⟩, -⟩ := mem_below.1 mem
  obtain ⟨i, inside, key, front, lies⟩ := h longer listed
  exact ⟨i, inside, key, (List.take_prefix _ _).trans front, lies.below limit⟩

end IndexTable

end RatingArchive

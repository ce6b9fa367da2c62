import RatingArchive.Proofs.Index.Codec
/-!
# Tables that are cut short

A reader of buffers that took something off a buffer does not take less off a front of it: if a
byte of what it took is missing, it fails because the buffer is too short, and for no other reason
(`read_take`). A cut leaves the key and the length of an entry as they were, or not there at all,
and a run is checked only if all of it is there.

The reader's loop is told the size of the buffer from which it reads, and how far that was read
before. `readEntries_take` is the induction over the entries; the sum of what was read and what is
left stays the size of the buffer. By the same sum, whatever a reader reports of a buffer that is
too short, it reports of the whole buffer that it was given (`actual_of_read`).
-/

namespace RatingArchive

/-- A reader finds that its buffer lacks bytes: more were expected than there are. -/
def BufferReader.RunsShort {α : Type} (reader : BufferReader α) (buffer : Bytes) : Prop :=
  ∃ expected actual rest,
    reader.run buffer = .error (.truncated expected actual) rest ∧ actual < expected

namespace IndexTable

/-- What stands at the front of a string that begins with a written entry, and was cut behind the
length of its run. -/
theorem fields_take_encode_append {entry : Entry} (fits : entry.slots.length < UInt32.size)
    (tail : Bytes) {k : Nat} (long : 12 ≤ k) :
    let front := (entry.encode ++ tail).take k
    ofWord64 (front.take 8) = entry.key ∧
      (ofWord32 ((front.drop 8).take 4)).toNat = entry.slots.length := by
  obtain ⟨key, count, -⟩ := fields_encode_append fits tail
  simp only [List.take_take, List.drop_take]
  rw [Nat.min_eq_left (by omega : 8 ≤ k), Nat.min_eq_left (by omega : 4 ≤ k - 8)]
  exact ⟨key, count⟩

/-- On an entry that was cut in its run, the loop stops behind the length of the run. -/
theorem readEntries_take_run {available count offset : Nat} {last : Option UInt64} {entry : Entry}
    (tail : Bytes) (run : entry.Ascends) (follows : ∀ l, last = some l → l < entry.key)
    (fits : entry.slots.length < UInt32.size) {k : Nat} (header : 12 ≤ k)
    (cut : k < 12 + 4 * entry.slots.length) :
    let front := (entry.encode ++ tail).take k
    readEntries available (count + 1) offset last front =
      .error (.truncated (offset + 12 + 4 * entry.slots.length) available) (front.drop 12) := by
  intro front
  have left : front.length = k := by
    rw [List.length_take, List.length_append, Entry.length_encode, Entry.size]
    omega
  have missing : (front.drop 12).length < 4 * entry.slots.length := by
    rw [List.length_drop, left]
    omega
  have accepted : keyFault? last entry.key entry.slots.length = none := by
    refine keyFault?_eq_none_iff.2 ⟨follows, ?_⟩
    exact fun none => run.nonempty (List.eq_nil_of_length_eq_zero none)
  obtain ⟨key, length⟩ := fields_take_encode_append fits tail header
  rw [readEntries_succ, left, if_neg (Nat.not_lt.2 header), key, length]
  simp only [accepted, if_pos missing]

/-- **The reader's loop** runs short on a front of what it has read. -/
theorem readEntries_take {available count offset : Nat} {last : Option UInt64} {buffer rest : Bytes}
    {entries : List Entry}
    (found : readEntries available count offset last buffer = .ok entries rest) {k : Nat}
    (cut : k + rest.length < buffer.length) :
    (readEntries (offset + k) count offset last).RunsShort (buffer.take k) := by
  induction count generalizing offset last buffer entries k with
  | zero =>
    cases found
    omega
  | succ count ih =>
    obtain ⟨entry, others, tail, rfl, rfl, run, follows, fits, later⟩ :=
      readEntries_succ_eq_ok found
    have size : entry.encode.length = 12 + 4 * entry.slots.length := by
      rw [Entry.length_encode, Entry.size]
    rw [List.length_append, size] at cut
    have left : ((entry.encode ++ tail).take k).length = k := by
      rw [List.length_take, List.length_append, size]
      omega
    by_cases header : k < 12
    · refine ⟨offset + 12, offset + k, (entry.encode ++ tail).take k, ?_, by omega⟩
      rw [EStateM.run, readEntries_succ, left, if_pos header]
    by_cases slots : k < 12 + 4 * entry.slots.length
    · exact ⟨_, _, _, readEntries_take_run tail run follows fits (Nat.not_lt.1 header) slots,
        by omega⟩
    · -- the entry is whole, and the cut is in what stands behind it
      obtain ⟨j, rfl⟩ : ∃ j, k = entry.encode.length + j := ⟨k - entry.encode.length, by omega⟩
      obtain ⟨expected, actual, rest', short, lt⟩ := @ih (offset + 12 + 4 * entry.slots.length)
        (some entry.key) tail others later j (by omega)
      refine ⟨expected, actual, rest', ?_, lt⟩
      rw [EStateM.run] at short
      rw [EStateM.run, List.take_length_add_append, readEntries_encode_append _ run follows fits,
        size, ← Nat.add_assoc, ← Nat.add_assoc, short]

/-- **A table is read as a whole**: on a front of it, the reader runs short. -/
theorem read_take {count : UInt32} {buffer rest : Bytes} {table : IndexTable}
    (found : (read count).run buffer = .ok table rest) {k : Nat}
    (cut : k + rest.length < buffer.length) : (read count).RunsShort (buffer.take k) := by
  have left : (buffer.take k).length = k := by
    rw [List.length_take]
    omega
  by_cases header : k < 4
  · refine ⟨4, k, buffer.take k, ?_, header⟩
    rw [read_eq, left, if_pos header]
  rw [read_eq] at found
  split at found
  · cases found
  simp only at found
  split at found
  · next same =>
    split at found
    · next entries behind inside =>
      cases found
      have front : (buffer.take k).take 4 = buffer.take 4 := by
        rw [List.take_take, Nat.min_eq_left (Nat.not_lt.1 header)]
      have back : (buffer.take k).drop 4 = (buffer.drop 4).take (k - 4) := List.drop_take ..
      obtain ⟨expected, actual, rest', short, lt⟩ := readEntries_take inside (k := k - 4) (by
        rw [List.length_drop]
        omega)
      rw [EStateM.run, Nat.add_sub_cancel' (Nat.not_lt.1 header)] at short
      refine ⟨expected, actual, rest', ?_, lt⟩
      rw [read_eq, left, if_neg header, front, back]
      simp only [if_pos same, short]
    · cases found
  · cases found

/-! ## What is reported of a short buffer -/

theorem actual_of_readEntries {available count offset : Nat} {last : Option UInt64}
    {buffer rest : Bytes} {expected actual : Nat}
    (failed : readEntries available count offset last buffer =
      .error (.truncated expected actual) rest) (size : offset + buffer.length = available) :
    actual = available ∧ available < expected := by
  induction count generalizing offset last buffer with
  | zero => cases failed
  | succ count ih =>
    rw [readEntries_succ] at failed
    split at failed
    · next missing =>
      cases failed
      exact ⟨rfl, by omega⟩
    · next header =>
      simp only at failed
      have left := List.length_drop (i := 12) (l := buffer)
      split at failed
      · cases failed
      · split at failed
        · next missing =>
          cases failed
          exact ⟨rfl, by omega⟩
        · next run =>
          split at failed
          · cases failed
          · split at failed
            · cases failed
            · next later =>
              cases failed
              refine ih later ?_
              rw [List.length_drop]
              omega

/-- **A reader that runs short** reports the size of the buffer from which it read the table. -/
theorem actual_of_read {count : UInt32} {buffer rest : Bytes} {expected actual : Nat}
    (failed : (read count).run buffer = .error (.truncated expected actual) rest) :
    actual = buffer.length ∧ buffer.length < expected := by
  rw [read_eq] at failed
  split at failed
  · next missing =>
    cases failed
    exact ⟨rfl, missing⟩
  · next header =>
    simp only at failed
    split at failed
    · split at failed
      · cases failed
      · next later =>
        cases failed
        apply actual_of_readEntries later
        rw [List.length_drop]
        omega
    · cases failed

end IndexTable

end RatingArchive

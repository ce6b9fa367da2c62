import Mathlib.Algebra.GroupWithZero.Nat
import RatingArchive.Proofs.Index.Streaming
/-!
# Delimited index tables

The number of entries of a table and the lengths of its runs say where it ends, whatever else is
wrong with it. A reader of buffers that is given all of a table can only find fault with the data:
it does not run out of bytes (`IndexTable.invalidData_of_read`).

A builder asks less of a table than a reader: it does not look at the order of slots. So what is
built is read back if and only if every run ascends, and what is read is what would be built of it
(`IndexTable.read_built`).
-/

namespace RatingArchive

namespace IndexTable

/-- **The reader's loop** ends with an entry at fault, or has read all entries. -/
theorem readEntries_flatMap_encode {entries : List Entry}
    (fits : ∀ entry ∈ entries, entry.slots.length < UInt32.size) (available offset : Nat)
    (last : Option UInt64) (tail : Bytes) :
    let result := readEntries available entries.length offset last
      (entries.flatMap Entry.encode ++ tail)
    result = .ok entries tail ∨ ∃ fault rest, result = .error (.invalidData fault) rest := by
  induction entries generalizing offset last with
  | nil => exact .inl rfl
  | cons entry entries ih =>
    obtain ⟨fit, fits⟩ := List.forall_mem_cons.1 fits
    simp only [List.flatMap_cons, List.append_assoc, List.length_cons, readEntries_encode fit]
    cases keyFault? last entry.key entry.slots.length with
    | some fault => exact .inr ⟨fault, _, rfl⟩
    | none =>
      cases slotOrderFault? entry.key entry.slots with
      | some fault => exact .inr ⟨fault, _, rfl⟩
      | none =>
        rcases ih fits (offset + 12 + 4 * entry.slots.length) (some entry.key) with
          found | ⟨fault, rest, found⟩
        · simp only [found, true_or]
        · simp only [found]
          exact .inr ⟨fault, rest, rfl⟩

/-- **A table that is all there** is read, or its data are invalid. -/
theorem invalidData_of_read {count : UInt32} {body tail rest : Bytes} {error : Error}
    (written : Written count.toNat body)
    (failed : (read count).run (word32 count ++ (body ++ tail)) = .error error rest) :
    ∃ fault, error = .invalidData fault := by
  obtain ⟨entries, length, fits, rfl⟩ := written
  rw [read_word32_append, ← length] at failed
  rcases readEntries_flatMap_encode fits (4 + (entries.flatMap Entry.encode ++ tail).length) 4 none
    tail with found | ⟨fault, _, found⟩
  · simp only [found] at failed
    cases failed
  · simp only [found] at failed
    cases failed
    exact ⟨fault, rfl⟩

/-- What was written of entries is read back if they are ordered. -/
theorem read_tableBytes_eq_ok_iff {entries : List Entry} (countable : Countable entries)
    {tail rest : Bytes} {table : IndexTable} :
    (read (UInt32.ofNat entries.length)).run (tableBytes entries ++ tail) = .ok table rest ↔
      Ordered entries ∧ table.entries = entries ∧ rest = tail := by
  have count : (UInt32.ofNat entries.length).toNat = entries.length :=
    UInt32.toNat_ofNat_of_lt' countable.entries_lt
  rw [read_eq_ok_iff, count]
  constructor
  · rintro ⟨ordered, countable', length, same⟩
    rw [tableBytes, tableBytes, length, List.append_assoc, List.append_assoc] at same
    obtain ⟨rfl, rfl⟩ := flatMap_encode_append_inj countable.slots_lt countable'.slots_lt
      length.symm (List.append_cancel_left same)
    exact ⟨ordered, rfl, rfl⟩
  · rintro ⟨ordered, rfl, rfl⟩
    exact ⟨ordered, countable, rfl, rfl⟩

/-- **What is built is read, and what is read was built.** A builder takes all entries whose keys
ascend and have slots. Whatever stands behind the table it finishes, the table is read back if and
only if every run ascends; otherwise its data are invalid. And a reader takes off a buffer what the
builder makes of the table that was read. -/
theorem read_built :
    (∀ entries, Keyed entries → Countable entries →
      ∃ builder bytes,
        (entries.forM Builder.write).run (Builder.new (UInt32.ofNat entries.length)) =
          .ok () builder ∧
        builder.finish = .ok bytes ∧
        ∀ tail,
          ((∃ table rest, (read (UInt32.ofNat entries.length)).run (bytes ++ tail) =
              .ok table rest) ↔ ∀ entry ∈ entries, entry.slots.Pairwise (· < ·)) ∧
          (∀ table rest,
            (read (UInt32.ofNat entries.length)).run (bytes ++ tail) = .ok table rest →
              table.entries = entries ∧
                table.slotCount = (entries.map (·.slots.length)).sum ∧ rest = tail) ∧
          ∀ error rest,
            (read (UInt32.ofNat entries.length)).run (bytes ++ tail) = .error error rest →
              ∃ fault, error = .invalidData fault) ∧
    ∀ count buffer table rest, (read count).run buffer = .ok table rest →
      ∃ bytes, table.encode = .ok bytes ∧ buffer = bytes ++ rest := by
  constructor
  · intro entries keyed countable
    obtain ⟨builder, built, finished⟩ := Builder.forM_write_new keyed countable
    refine ⟨builder, tableBytes entries, built, finished, ?_⟩
    intro tail
    refine ⟨?_, ?_, ?_⟩
    · simp only [read_tableBytes_eq_ok_iff countable, ordered_iff_keyed]
      constructor
      · rintro ⟨_, _, ⟨-, ascending⟩, -⟩
        exact ascending
      · intro ascending
        exact ⟨⟨entries⟩, tail, ⟨keyed, ascending⟩, rfl, rfl⟩
    · intro table rest found
      obtain ⟨-, same, left⟩ := (read_tableBytes_eq_ok_iff countable).1 found
      exact ⟨same, by rw [slotCount, same, List.length_flatMap], left⟩
    · intro error rest failed
      have count : (UInt32.ofNat entries.length).toNat = entries.length :=
        UInt32.toNat_ofNat_of_lt' countable.entries_lt
      rw [tableBytes, List.append_assoc] at failed
      exact invalidData_of_read ⟨entries, count.symm, countable.slots_lt, rfl⟩ failed
  · intro count buffer table rest found
    obtain ⟨ordered, countable, -, whole⟩ := read_eq_ok_iff.1 found
    exact ⟨_, encodeEntries_eq ordered countable, whole⟩

/-- Two entries that a builder takes, one of them with slots that descend. -/
theorem read_built_descending :
    ∃ entries builder bytes, entries = [⟨3, [2, 0]⟩, ⟨5, [1]⟩] ∧ Keyed entries ∧
      Countable entries ∧ (entries.forM Builder.write).run (Builder.new 2) = .ok () builder ∧
      builder.finish = .ok bytes ∧
      ∃ fault rest, (read 2).run (bytes ++ [42]) = .error (.invalidData fault) rest := by
  have keyed : Keyed [⟨3, [2, 0]⟩, ⟨5, [1]⟩] := ⟨by decide, by decide⟩
  have countable : Countable [⟨3, [2, 0]⟩, ⟨5, [1]⟩] := ⟨by decide, by decide⟩
  obtain ⟨builder, bytes, built, finished, readBack⟩ := read_built.1 _ keyed countable
  obtain ⟨accepted, -, invalid⟩ := readBack [42]
  refine ⟨_, builder, bytes, rfl, keyed, countable, built, finished, ?_⟩
  cases found : (read 2).run (bytes ++ [42]) with
  | ok table rest => exact absurd (accepted.1 ⟨table, rest, found⟩) (by decide)
  | error error rest =>
    obtain ⟨fault, rfl⟩ := invalid error rest found
    exact ⟨fault, rest, rfl⟩

end IndexTable

end RatingArchive

import RatingArchive.Index.Reading
import RatingArchive.Proofs.Actions
import RatingArchive.Proofs.Index.Ordered
/-!
# The written form of index tables

The builder writes every ordered list of entries whose counts fit a word, as its number and its
entries one after the other (`encodeEntries_eq`). The reader of buffers takes off a buffer exactly
what the builder writes (`read_eq_ok_iff`): it accepts a buffer if and only if the buffer begins
with the written form of an ordered table of as many entries as were asked for.

The reader's loop is restated without its monad in `readEntries_succ`; `readEntries_eq_ok_iff` is
the induction over the entries, with the last key read as its invariant.
-/

namespace RatingArchive

/-- The bytes of a table with the given entries. -/
def tableBytes (entries : List Entry) : Bytes :=
  word32 (UInt32.ofNat entries.length) ++ entries.flatMap Entry.encode

/-- The number of entries and the lengths of their runs can be written in a word. -/
structure Countable (entries : List Entry) : Prop where
  entries_lt : entries.length < UInt32.size
  slots_lt : ∀ entry ∈ entries, entry.slots.length < UInt32.size

/-- A cut table has no more entries than the table, and no longer ones. -/
theorem Countable.below {table : IndexTable} (h : Countable table.entries) (limit : UInt32) :
    Countable (table.below limit).entries where
  entries_lt := by
    have shorter := List.length_filter_le (fun entry : Entry => !entry.slots.isEmpty)
      (table.entries.map (·.below limit))
    rw [List.length_map] at shorter
    exact Nat.lt_of_le_of_lt shorter h.entries_lt
  slots_lt entry mem := by
    obtain ⟨⟨whole, hwhole, rfl⟩, -⟩ := mem_below.1 mem
    exact Nat.lt_of_le_of_lt (List.length_take_le' _ _) (h.slots_lt whole hwhole)

theorem ordered_nil : Ordered [] := ⟨.nil, List.forall_mem_nil _⟩

theorem ordered_cons {entry : Entry} {entries : List Entry} :
    Ordered (entry :: entries) ↔
      (∀ next ∈ entries, entry.key < next.key) ∧ entry.Ascends ∧ Ordered entries := by
  constructor
  · rintro ⟨keys, runs⟩
    obtain ⟨first, keys⟩ := List.pairwise_cons.1 keys
    obtain ⟨run, runs⟩ := List.forall_mem_cons.1 runs
    exact ⟨first, run, keys, runs⟩
  · rintro ⟨first, run, keys, runs⟩
    exact ⟨List.pairwise_cons.2 ⟨first, keys⟩, List.forall_mem_cons.2 ⟨run, runs⟩⟩

/-- What a builder asks of entries: keys ascend strictly, and each has slots, in whatever order. -/
structure Keyed (entries : List Entry) : Prop where
  keys : entries.Pairwise fun a b => a.key < b.key
  nonempty : ∀ entry ∈ entries, entry.slots ≠ []

theorem keyed_cons {entry : Entry} {entries : List Entry} :
    Keyed (entry :: entries) ↔
      (∀ next ∈ entries, entry.key < next.key) ∧ entry.slots ≠ [] ∧ Keyed entries := by
  constructor
  · rintro ⟨keys, nonempty⟩
    obtain ⟨first, keys⟩ := List.pairwise_cons.1 keys
    obtain ⟨filled, nonempty⟩ := List.forall_mem_cons.1 nonempty
    exact ⟨first, filled, keys, nonempty⟩
  · rintro ⟨first, filled, keys, nonempty⟩
    exact ⟨List.pairwise_cons.2 ⟨first, keys⟩, List.forall_mem_cons.2 ⟨filled, nonempty⟩⟩

/-- A table is ordered if its builder could write it, and the slots of each key ascend. -/
theorem ordered_iff_keyed {entries : List Entry} :
    Ordered entries ↔ Keyed entries ∧ ∀ entry ∈ entries, entry.slots.Pairwise (· < ·) := by
  constructor
  · rintro ⟨keys, runs⟩
    exact ⟨⟨keys, fun entry mem => (runs entry mem).nonempty⟩,
      fun entry mem => (runs entry mem).ascending⟩
  · rintro ⟨⟨keys, nonempty⟩, ascending⟩
    exact ⟨keys, fun entry mem => ⟨nonempty entry mem, ascending entry mem⟩⟩

/-! ## Writing -/

namespace Builder

/-- An entry that follows the last one is added. -/
theorem write_of_follows {builder : Builder} {entry : Entry}
    (room : builder.written < builder.expected.toNat)
    (follows : ∀ last, builder.lastKey = some last → last < entry.key)
    (nonempty : entry.slots ≠ []) (fits : entry.slots.length < UInt32.size) :
    write entry builder = .ok () { builder with
      written := builder.written + 1
      lastKey := some entry.key
      bytes := builder.bytes ++ entry.encode } := by
  have run : refusal?.refusedRun? entry = none := by
    simp [refusal?.refusedRun?, nonempty, Nat.not_le.2 fits]
  have accepted : builder.refusal? entry = none := by
    unfold refusal?
    rw [if_neg (Nat.not_le.2 room)]
    cases present : builder.lastKey with
    | none => exact run
    | some last => simp only [if_neg (UInt64.not_le.2 (follows last present)), run]
  simp only [write, accepted]

/-- Entries that follow the last one are added one after the other. -/
theorem forM_write {entries : List Entry} {builder : Builder} (keyed : Keyed entries)
    (fits : ∀ entry ∈ entries, entry.slots.length < UInt32.size)
    (room : builder.written + entries.length ≤ builder.expected.toNat)
    (follows : ∀ last, builder.lastKey = some last → ∀ entry ∈ entries, last < entry.key) :
    ∃ last, entries.forM write builder = .ok () { builder with
      written := builder.written + entries.length
      lastKey := last
      bytes := builder.bytes ++ entries.flatMap Entry.encode } := by
  induction entries generalizing builder with
  | nil => exact ⟨builder.lastKey, by simp [pure, EStateM.pure]⟩
  | cons entry entries ih =>
    obtain ⟨first, filled, keyed⟩ := keyed_cons.1 keyed
    obtain ⟨fit, fits⟩ := List.forall_mem_cons.1 fits
    rw [List.length_cons] at room
    have written := @write_of_follows builder entry (by omega)
      (fun last present => follows last present entry (List.mem_cons_self ..)) filled fit
    obtain ⟨last, rest⟩ := @ih { builder with
        written := builder.written + 1
        lastKey := some entry.key
        bytes := builder.bytes ++ entry.encode } keyed fits
      (by simp only; omega) (fun last present => by cases present; exact first)
    refine ⟨last, ?_⟩
    show (write entry >>= fun _ => entries.forM write) builder = _
    rw [bind_of_ok written, rest]
    simp only [List.length_cons, List.flatMap_cons, List.append_assoc]
    congr 2
    omega

/-- **A builder takes all entries** whose keys ascend and have slots, and finishes with their
number, followed by the entries. -/
theorem forM_write_new {entries : List Entry} (keyed : Keyed entries)
    (countable : Countable entries) :
    ∃ builder, (entries.forM write).run (new (UInt32.ofNat entries.length)) = .ok () builder ∧
      builder.finish = .ok (tableBytes entries) := by
  have count : (UInt32.ofNat entries.length).toNat = entries.length :=
    UInt32.toNat_ofNat_of_lt' countable.entries_lt
  obtain ⟨last, written⟩ := @forM_write entries (new (UInt32.ofNat entries.length)) keyed
    countable.slots_lt (by simp [new, count]) (nofun)
  exact ⟨_, written, by simp [finish, new, count, tableBytes]⟩

end Builder

/-- **Ordered entries are written** as their number, followed by the entries. -/
theorem encodeEntries_eq {entries : List Entry} (ordered : Ordered entries)
    (countable : Countable entries) : encodeEntries entries = .ok (tableBytes entries) := by
  obtain ⟨builder, written, finished⟩ := Builder.forM_write_new (ordered_iff_keyed.1 ordered).1
    countable
  rw [encodeEntries, written]
  exact finished

theorem length_tableBytes (entries : List Entry) :
    (tableBytes entries).length =
      4 + 12 * entries.length + 4 * (entries.flatMap (·.slots)).length := by
  have sizes : (entries.flatMap Entry.encode).length =
      12 * entries.length + 4 * (entries.flatMap (·.slots)).length := by
    induction entries with
    | nil => rfl
    | cons entry entries ih =>
      simp only [List.flatMap_cons, List.length_append, List.length_cons, ih, Entry.length_encode,
        Entry.size]
      omega
  rw [tableBytes, List.length_append, length_word32, sizes]
  omega

/-! ## Words of a run -/

theorem length_words32 {bytes : Bytes} {n : Nat} (h : bytes.length = 4 * n) :
    (words32 bytes).length = n := by
  induction n generalizing bytes with
  | zero => rw [List.eq_nil_of_length_eq_zero h]; rfl
  | succ n ih =>
    match bytes, h with
    | a :: b :: c :: d :: rest, h =>
      simp only [List.length_cons] at h
      rw [words32, List.length_cons, ih (by omega)]

/-- Every byte string of whole words is the written form of its words. -/
theorem flatMap_word32_words32 {bytes : Bytes} {n : Nat} (h : bytes.length = 4 * n) :
    (words32 bytes).flatMap word32 = bytes := by
  induction n generalizing bytes with
  | zero => rw [List.eq_nil_of_length_eq_zero h]; rfl
  | succ n ih =>
    match bytes, h with
    | a :: b :: c :: d :: rest, h =>
      simp only [List.length_cons] at h
      rw [words32, List.flatMap_cons, ih (by omega), word32_ofWord32 (by rfl)]
      rfl

@[simp] theorem length_flatMap_word32 (words : List UInt32) :
    (words.flatMap word32).length = 4 * words.length := by
  rw [length_flatMap_of_width length_word32, Nat.mul_comm]

/-! ## Reading -/

/-- What stands at the front of a string that begins with a written entry. -/
theorem fields_encode_append {entry : Entry} (fits : entry.slots.length < UInt32.size)
    (tail : Bytes) :
    ofWord64 ((entry.encode ++ tail).take 8) = entry.key ∧
      (ofWord32 (((entry.encode ++ tail).drop 8).take 4)).toNat = entry.slots.length ∧
      (entry.encode ++ tail).drop 12 = entry.slots.flatMap word32 ++ tail := by
  have split : entry.encode ++ tail = word64 entry.key ++
      (word32 (UInt32.ofNat entry.slots.length) ++ (entry.slots.flatMap word32 ++ tail)) := by
    simp only [Entry.encode, List.append_assoc]
  have behindKey : (entry.encode ++ tail).drop 8 =
      word32 (UInt32.ofNat entry.slots.length) ++ (entry.slots.flatMap word32 ++ tail) := by
    rw [split, List.drop_left' (length_word64 _)]
  refine ⟨?_, ?_, ?_⟩
  · rw [split, List.take_left' (length_word64 _), ofWord64_word64]
  · rw [behindKey, List.take_left' (length_word32 _), ofWord32_word32,
      UInt32.toNat_ofNat_of_lt' fits]
  · rw [show (12 : Nat) = 8 + 4 from rfl, ← List.drop_drop, behindKey,
      List.drop_left' (length_word32 _)]

theorem keyFault?_eq_none_iff {last : Option UInt64} {key : UInt64} {length : Nat} :
    keyFault? last key length = none ↔ (∀ l, last = some l → l < key) ∧ length ≠ 0 := by
  unfold keyFault?
  cases last with
  | none => simp
  | some l =>
    by_cases le : key ≤ l
    · simp [le]
    · simp [le, UInt64.not_le.1 le]

theorem slotOrderFault?_eq_none_iff {key : UInt64} {slots : List UInt32} :
    slotOrderFault? key slots = none ↔ slots.Pairwise (· < ·) := by
  have trans : IsTrans UInt32 (· < ·) := ⟨fun _ _ _ => UInt32.lt_trans⟩
  rw [← List.isChain_iff_pairwise]
  induction slots with
  | nil => simp [slotOrderFault?]
  | cons last slots ih =>
    cases slots with
    | nil => simp [slotOrderFault?]
    | cons slot slots =>
      rw [slotOrderFault?, List.isChain_cons_cons]
      by_cases le : slot ≤ last
      · simp [le]
      · rw [if_neg le]
        exact ih.trans (and_iff_right (UInt32.not_le.1 le)).symm

theorem BufferReader.get_eq (buffer : Bytes) :
    (get : BufferReader Bytes) buffer = .ok buffer buffer := rfl

namespace IndexTable

/-- One entry is read as its key and its length, which are checked, and then its slots, which are
checked before they are taken. -/
theorem readEntries_succ (available count offset : Nat) (last : Option UInt64) (buffer : Bytes) :
    readEntries available (count + 1) offset last buffer =
      if buffer.length < 12 then .error (.truncated (offset + 12) available) buffer
      else
        let key := ofWord64 (buffer.take 8)
        let length := (ofWord32 ((buffer.drop 8).take 4)).toNat
        let rest := buffer.drop 12
        match keyFault? last key length with
        | some fault => .error (.invalidData fault) rest
        | none =>
          if rest.length < 4 * length then
            .error (.truncated (offset + 12 + 4 * length) available) rest
          else
            let slots := words32 (rest.take (4 * length))
            match slotOrderFault? key slots with
            | some fault => .error (.invalidData fault) rest
            | none =>
              match readEntries available count (offset + 12 + 4 * length) (some key)
                (rest.drop (4 * length)) with
              | .ok entries rest => .ok (⟨key, slots⟩ :: entries) rest
              | .error error rest => .error error rest := by
  simp only [readEntries, bind, EStateM.bind, BufferReader.require, BufferReader.take,
    BufferReader.check, BufferReader.get_eq, pure, EStateM.pure]
  by_cases short : buffer.length < 12
  · simp only [if_pos short]
  simp only [if_neg short, List.drop_drop]
  generalize ofWord64 (buffer.take 8) = key
  generalize (ofWord32 ((buffer.drop 8).take 4)).toNat = length
  cases keyFault? last key length with
  | some fault => rfl
  | none =>
    by_cases cut : (buffer.drop 12).length < 4 * length
    · simp only [if_pos cut]
    simp only [if_neg cut]
    cases slotOrderFault? key (words32 ((buffer.drop 12).take (4 * length))) with
    | some fault => rfl
    | none =>
      simp only [List.drop_drop]
      cases readEntries available count (offset + 12 + 4 * length) (some key)
        (buffer.drop (12 + 4 * length)) <;> rfl

/-- An entry that was written is checked, its key before its slots, and reading goes on behind
it. -/
theorem readEntries_encode {available count offset : Nat} {last : Option UInt64} {entry : Entry}
    (fits : entry.slots.length < UInt32.size) (tail : Bytes) :
    readEntries available (count + 1) offset last (entry.encode ++ tail) =
      match keyFault? last entry.key entry.slots.length with
      | some fault => .error (.invalidData fault) (entry.slots.flatMap word32 ++ tail)
      | none =>
        match slotOrderFault? entry.key entry.slots with
        | some fault => .error (.invalidData fault) (entry.slots.flatMap word32 ++ tail)
        | none =>
          match readEntries available count (offset + 12 + 4 * entry.slots.length)
            (some entry.key) tail with
          | .ok entries rest => .ok (entry :: entries) rest
          | .error error rest => .error error rest := by
  obtain ⟨key, count, behind⟩ := fields_encode_append fits tail
  have size := length_flatMap_word32 entry.slots
  have long : ¬(entry.encode ++ tail).length < 12 := by
    rw [List.length_append, Entry.length_encode, Entry.size]
    omega
  have enough : ¬(entry.slots.flatMap word32 ++ tail).length < 4 * entry.slots.length := by
    rw [List.length_append, size]
    omega
  rw [readEntries_succ, if_neg long, key, count, behind]
  simp only [if_neg enough, List.take_left' size, List.drop_left' size, words32_flatMap_word32]

/-- What was written of one entry is read back, and reading goes on behind it. -/
theorem readEntries_encode_append {available count offset : Nat} {last : Option UInt64}
    {entry : Entry} (tail : Bytes) (run : entry.Ascends)
    (follows : ∀ l, last = some l → l < entry.key) (fits : entry.slots.length < UInt32.size) :
    readEntries available (count + 1) offset last (entry.encode ++ tail) =
      match readEntries available count (offset + 12 + 4 * entry.slots.length) (some entry.key)
        tail with
      | .ok entries rest => .ok (entry :: entries) rest
      | .error error rest => .error error rest := by
  have accepted : keyFault? last entry.key entry.slots.length = none := by
    refine keyFault?_eq_none_iff.2 ⟨follows, ?_⟩
    intro none
    exact run.nonempty (List.eq_nil_of_length_eq_zero none)
  rw [readEntries_encode fits, accepted]
  simp only [slotOrderFault?_eq_none_iff.2 run.ascending]

/-- What was written of some entries is read back, and reading goes on behind them. -/
theorem readEntries_flatMap_encode_append {available count offset : Nat} {last : Option UInt64}
    {entries : List Entry} (tail : Bytes) (ordered : Ordered entries)
    (follows : ∀ l, last = some l → ∀ entry ∈ entries, l < entry.key)
    (fits : ∀ entry ∈ entries, entry.slots.length < UInt32.size) :
    readEntries available (entries.length + count) offset last
        (entries.flatMap Entry.encode ++ tail) =
      match readEntries available count (offset + (entries.flatMap Entry.encode).length)
        ((entries.getLast?.map Entry.key).or last) tail with
      | .ok more rest => .ok (entries ++ more) rest
      | .error error rest => .error error rest := by
  induction entries generalizing offset last with
  | nil =>
    simp only [List.length_nil, Nat.zero_add, List.flatMap_nil, List.nil_append, Nat.add_zero,
      List.getLast?_nil, Option.map_none, Option.none_or]
    cases readEntries available count offset last tail <;> rfl
  | cons entry entries ih =>
    obtain ⟨first, run, ordered⟩ := ordered_cons.1 ordered
    obtain ⟨fit, fits⟩ := List.forall_mem_cons.1 fits
    have later := @ih (offset + 12 + 4 * entry.slots.length) (some entry.key) ordered
      (fun l present => by cases present; exact first) fits
    have place : offset + 12 + 4 * entry.slots.length + (entries.flatMap Entry.encode).length =
        offset + ((entry :: entries).flatMap Entry.encode).length := by
      rw [List.flatMap_cons, List.length_append, Entry.length_encode, Entry.size]
      omega
    -- the last key read is that of the last entry, or of the first if there is no other
    have key : (entries.getLast?.map Entry.key).or (some entry.key) =
        ((entry :: entries).getLast?.map Entry.key).or last := by
      rw [List.getLast?_cons]
      cases entries.getLast? <;> rfl
    rw [place, key] at later
    rw [List.length_cons, Nat.add_right_comm, List.flatMap_cons, List.append_assoc,
      readEntries_encode_append _ run
        (fun l present => follows l present entry (List.mem_cons_self ..)) fit, later]
    rw [← List.flatMap_cons]
    cases readEntries available count (offset + ((entry :: entries).flatMap Entry.encode).length)
      (((entry :: entries).getLast?.map Entry.key).or last) tail <;> rfl

/-- The front of a buffer that is long enough is the written form of the entry in it. -/
theorem eq_encode_append {buffer : Bytes} {length : UInt32}
    (found : ofWord32 ((buffer.drop 8).take 4) = length) (long : 12 ≤ buffer.length)
    (enough : 4 * length.toNat ≤ (buffer.drop 12).length) :
    (words32 ((buffer.drop 12).take (4 * length.toNat))).length = length.toNat ∧
      buffer = (Entry.mk (ofWord64 (buffer.take 8))
        (words32 ((buffer.drop 12).take (4 * length.toNat)))).encode ++
          (buffer.drop 12).drop (4 * length.toNat) := by
  have key : word64 (ofWord64 (buffer.take 8)) = buffer.take 8 :=
    word64_ofWord64 (by rw [List.length_take]; omega)
  have word : word32 length = (buffer.drop 8).take 4 := by
    rw [← found, word32_ofWord32 (by rw [List.length_take, List.length_drop]; omega)]
  have run : ((buffer.drop 12).take (4 * length.toNat)).length = 4 * length.toNat := by
    rw [List.length_take]; omega
  have count := length_words32 run
  refine ⟨count, ?_⟩
  rw [Entry.encode, count, key, UInt32.ofNat_toNat, word, flatMap_word32_words32 run,
    List.append_assoc, List.take_append_drop, show buffer.drop 12 = (buffer.drop 8).drop 4 by
      rw [List.drop_drop], List.append_assoc, List.take_append_drop, List.take_append_drop]

/-- If an entry could be read, the buffer begins with its written form. -/
theorem readEntries_succ_eq_ok {available count offset : Nat} {last : Option UInt64}
    {buffer rest : Bytes} {entries : List Entry}
    (h : readEntries available (count + 1) offset last buffer = .ok entries rest) :
    ∃ entry others tail, entries = entry :: others ∧ buffer = entry.encode ++ tail ∧
      entry.Ascends ∧ (∀ l, last = some l → l < entry.key) ∧
      entry.slots.length < UInt32.size ∧
      readEntries available count (offset + 12 + 4 * entry.slots.length) (some entry.key) tail =
        .ok others rest := by
  rw [readEntries_succ] at h
  by_cases short : buffer.length < 12
  · rw [if_pos short] at h; cases h
  rw [if_neg short] at h
  generalize found : ofWord32 ((buffer.drop 8).take 4) = length at h
  cases accepted : keyFault? last (ofWord64 (buffer.take 8)) length.toNat with
  | some fault => simp only [accepted] at h; cases h
  | none =>
    simp only [accepted] at h
    by_cases cut : (buffer.drop 12).length < 4 * length.toNat
    · rw [if_pos cut] at h; cases h
    rw [if_neg cut] at h
    obtain ⟨count, whole⟩ := eq_encode_append found (by omega) (by omega)
    generalize words32 ((buffer.drop 12).take (4 * length.toNat)) = slots at h count whole
    obtain ⟨follows, nonzero⟩ := keyFault?_eq_none_iff.1 accepted
    cases ordered : slotOrderFault? (ofWord64 (buffer.take 8)) slots with
    | some fault => simp only [ordered] at h; cases h
    | none =>
      simp only [ordered, ← count] at h
      split at h
      · next others rest later =>
        cases h
        rw [← count] at whole nonzero
        have nonempty : slots ≠ [] := fun none => nonzero (by rw [none]; rfl)
        exact ⟨⟨_, slots⟩, others, _, rfl, whole,
          ⟨nonempty, slotOrderFault?_eq_none_iff.1 ordered⟩, follows,
          by simpa only [count] using length.toNat_lt, later⟩
      · cases h

/-- **The reader's loop accepts what the builder writes, and nothing else.** -/
theorem readEntries_eq_ok_iff {available count offset : Nat} {last : Option UInt64}
    {buffer rest : Bytes} {entries : List Entry} :
    readEntries available count offset last buffer = .ok entries rest ↔
      Ordered entries ∧ (∀ l, last = some l → ∀ entry ∈ entries, l < entry.key) ∧
        (∀ entry ∈ entries, entry.slots.length < UInt32.size) ∧ entries.length = count ∧
        buffer = entries.flatMap Entry.encode ++ rest := by
  constructor
  · intro h
    induction count generalizing offset last buffer entries with
    | zero =>
      cases h
      exact ⟨ordered_nil, by simp, by simp, rfl, rfl⟩
    | succ count ih =>
      obtain ⟨entry, others, tail, rfl, rfl, run, follows, fits, later⟩ := readEntries_succ_eq_ok h
      -- the key of the first entry is the last key of the loop that reads the others
      obtain ⟨ordered, after, fit, rfl, rfl⟩ := ih later
      refine ⟨ordered_cons.2 ⟨after _ rfl, run, ordered⟩, ?_, List.forall_mem_cons.2 ⟨fits, fit⟩,
        rfl, by rw [List.flatMap_cons, List.append_assoc]⟩
      intro l present
      refine List.forall_mem_cons.2 ⟨follows l present, ?_⟩
      intro next mem
      exact UInt64.lt_trans (follows l present) (after _ rfl next mem)
  · rintro ⟨ordered, follows, fits, rfl, rfl⟩
    have found := @readEntries_flatMap_encode_append available 0 offset last entries rest ordered
      follows fits
    simpa only [readEntries, Nat.add_zero, pure, EStateM.pure, List.append_nil] using found

/-- The number of entries is read and compared, then the entries are read. -/
theorem read_eq (count : UInt32) (buffer : Bytes) :
    (read count).run buffer =
      if buffer.length < 4 then .error (.truncated 4 buffer.length) buffer
      else
        let found := ofWord32 (buffer.take 4)
        if found = count then
          match readEntries buffer.length count.toNat 4 none (buffer.drop 4) with
          | .ok entries rest => .ok ⟨entries⟩ rest
          | .error error rest => .error error rest
        else .error (.invalidData (.entryCount found count)) (buffer.drop 4) := by
  simp only [read, EStateM.run, bind, EStateM.bind, BufferReader.require, BufferReader.take,
    BufferReader.check, BufferReader.get_eq, pure, EStateM.pure]
  by_cases short : buffer.length < 4
  · simp only [if_pos short]
  simp only [if_neg short]
  by_cases same : ofWord32 (buffer.take 4) = count
  · simp only [if_pos same]
    cases readEntries buffer.length count.toNat 4 none (buffer.drop 4) <;> rfl
  · simp only [if_neg same]

/-- Behind the number of entries that was asked for, the entries are read. -/
theorem read_word32_append (count : UInt32) (body : Bytes) :
    (read count).run (word32 count ++ body) =
      match readEntries (4 + body.length) count.toNat 4 none body with
      | .ok entries rest => .ok ⟨entries⟩ rest
      | .error error rest => .error error rest := by
  have long : ¬(word32 count ++ body).length < 4 := by
    rw [List.length_append, length_word32]
    omega
  rw [read_eq, if_neg long, List.take_left' (length_word32 _), List.drop_left' (length_word32 _),
    ofWord32_word32, if_pos rfl, List.length_append, length_word32]

/-- **A buffer holds a table if and only if it begins with the written form of one.** -/
theorem read_eq_ok_iff {count : UInt32} {buffer rest : Bytes} {table : IndexTable} :
    (read count).run buffer = .ok table rest ↔
      Ordered table.entries ∧ Countable table.entries ∧ table.entries.length = count.toNat ∧
        buffer = tableBytes table.entries ++ rest := by
  rw [read_eq]
  constructor
  · intro h
    by_cases short : buffer.length < 4
    · rw [if_pos short] at h; cases h
    rw [if_neg short] at h
    by_cases same : ofWord32 (buffer.take 4) = count
    · simp only [if_pos same] at h
      split at h
      · next entries rest read =>
        cases h
        obtain ⟨ordered, -, fits, length, body⟩ := readEntries_eq_ok_iff.1 read
        have word : word32 count = buffer.take 4 := by
          rw [← same, word32_ofWord32 (by rw [List.length_take]; omega)]
        refine ⟨ordered, ⟨by rw [length]; exact count.toNat_lt, fits⟩, length, ?_⟩
        rw [tableBytes, length, UInt32.ofNat_toNat, word, List.append_assoc, ← body,
          List.take_append_drop]
      · cases h
    · simp only [if_neg same] at h; cases h
  · rintro ⟨ordered, countable, length, rfl⟩
    have body : readEntries (4 + (table.entries.flatMap Entry.encode ++ rest).length) count.toNat 4
        none (table.entries.flatMap Entry.encode ++ rest) = .ok table.entries rest :=
      readEntries_eq_ok_iff.2 ⟨ordered, by simp, countable.slots_lt, length, rfl⟩
    rw [← read_eq, tableBytes, length, UInt32.ofNat_toNat, List.append_assoc, read_word32_append,
      body]

end IndexTable

end RatingArchive

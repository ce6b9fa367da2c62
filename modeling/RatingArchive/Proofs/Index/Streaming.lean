import RatingArchive.Proofs.Index.Codec
import RatingArchive.Proofs.Streams
/-!
# Index tables in streams

The written form of an entry tells where it ends (`encode_append_inj`), so that the bytes of a table
can be collected before they are checked: what the reader of streams has collected holds one table
and nothing behind it. It therefore takes what the builder writes, and nothing else
(`parses_readStream`).
-/

namespace RatingArchive

/-- **A written entry tells where it ends.** -/
theorem encode_append_inj {a b : Entry} {x y : Bytes} (fits : a.slots.length < UInt32.size)
    (fits' : b.slots.length < UInt32.size) (same : a.encode ++ x = b.encode ++ y) :
    a = b ∧ x = y := by
  obtain ⟨key, count, run⟩ := fields_encode_append fits x
  obtain ⟨key', count', run'⟩ := fields_encode_append fits' y
  rw [same] at key count run
  have keys : a.key = b.key := key.symm.trans key'
  have counts : a.slots.length = b.slots.length := count.symm.trans count'
  obtain ⟨words, rest⟩ := List.append_inj (run.symm.trans run')
    (by rw [length_flatMap_word32, length_flatMap_word32, counts])
  have slots : a.slots = b.slots := by
    rw [← words32_flatMap_word32 a.slots, words, words32_flatMap_word32]
  obtain ⟨_, _⟩ := a
  cases keys
  cases slots
  exact ⟨rfl, rest⟩

theorem flatMap_encode_append_inj {entries others : List Entry} {x y : Bytes}
    (fits : ∀ entry ∈ entries, entry.slots.length < UInt32.size)
    (fits' : ∀ entry ∈ others, entry.slots.length < UInt32.size)
    (count : entries.length = others.length)
    (same : entries.flatMap Entry.encode ++ x = others.flatMap Entry.encode ++ y) :
    entries = others ∧ x = y := by
  induction entries generalizing others with
  | nil =>
    cases List.eq_nil_of_length_eq_zero count.symm
    exact ⟨rfl, same⟩
  | cons entry entries ih =>
    cases others with
    | nil => cases count
    | cons other others =>
      rw [List.forall_mem_cons] at fits fits'
      rw [List.flatMap_cons, List.flatMap_cons, List.append_assoc, List.append_assoc] at same
      obtain ⟨first, rest⟩ := encode_append_inj fits.1 fits'.1 same
      obtain ⟨others, rest⟩ := ih fits.2 fits'.2 (Nat.succ.inj count) rest
      exact ⟨by rw [first, others], rest⟩

namespace IndexTable

theorem parses_takeField (n : Nat) :
    Parses (takeField n) fun front bytes => bytes.length = n ∧ front = bytes := by
  apply (Source.parses_takeExactly n).of_ok_iff
  intro source bytes rest
  unfold takeField
  split
  · next found => simp [found]
  · next found => simp [found]

theorem parses_takeRun (key : UInt64) (size : Nat) :
    Parses (takeRun key size) fun front bytes => bytes.length = size ∧ front = bytes := by
  intro source bytes tail
  rw [← Source.parses_takeExactly size source bytes tail]
  apply exists_congr
  intro rest
  apply and_congr_left
  intro _
  constructor
  · intro found
    unfold takeRun at found
    split at found
    · next taken =>
      split at found
      · next whole =>
        cases found
        exact (Source.takeUpTo_eq_ok_iff whole).1 taken
      · cases found
    · cases found
  · intro taken
    obtain ⟨_, ⟨whole, -⟩, -⟩ := (Source.parses_takeExactly size).taken taken
    unfold takeRun
    rw [(Source.takeUpTo_eq_ok_iff whole).2 taken]
    simp only [if_pos whole]

/-- Entries that were written with runs of any kind, one after the other. -/
def Written (count : Nat) (bytes : Bytes) : Prop :=
  ∃ entries : List Entry, entries.length = count ∧
    (∀ entry ∈ entries, entry.slots.length < UInt32.size) ∧ bytes = entries.flatMap Entry.encode

theorem written_zero {bytes : Bytes} : Written 0 bytes ↔ bytes = [] := by
  constructor
  · rintro ⟨entries, none, -, rfl⟩
    rw [List.eq_nil_of_length_eq_zero none]
    rfl
  · rintro rfl
    exact ⟨[], rfl, List.forall_mem_nil _, rfl⟩

theorem written_succ {count : Nat} {bytes : Bytes} :
    Written (count + 1) bytes ↔ ∃ key length run rest : Bytes, key.length = 8 ∧
      length.length = 4 ∧ run.length = 4 * (ofWord32 length).toNat ∧ Written count rest ∧
        bytes = key ++ (length ++ (run ++ rest)) := by
  constructor
  · rintro ⟨entries, more, fits, rfl⟩
    cases entries with
    | nil => cases more
    | cons entry entries =>
      obtain ⟨fit, fits⟩ := List.forall_mem_cons.1 fits
      refine ⟨word64 entry.key, word32 (UInt32.ofNat entry.slots.length),
        entry.slots.flatMap word32, entries.flatMap Entry.encode, length_word64 _, length_word32 _,
        ?_, ⟨entries, Nat.succ.inj more, fits, rfl⟩, ?_⟩
      · rw [length_flatMap_word32, ofWord32_word32, UInt32.toNat_ofNat_of_lt' fit]
      · simp only [List.flatMap_cons, Entry.encode, List.append_assoc]
  · rintro ⟨key, length, run, _, eight, four, whole, ⟨entries, rfl, fits, rfl⟩, rfl⟩
    have count := length_words32 whole
    refine ⟨⟨ofWord64 key, words32 run⟩ :: entries, rfl, ?_, ?_⟩
    · refine List.forall_mem_cons.2 ⟨?_, fits⟩
      rw [count]
      exact (ofWord32 length).toNat_lt
    · rw [List.flatMap_cons, Entry.encode, count, UInt32.ofNat_toNat, word64_ofWord64 eight,
        word32_ofWord32 four, flatMap_word32_words32 whole]
      simp only [List.append_assoc]

/-- **The extent of entries** depends on their counts alone. -/
theorem parses_takeEntries (count : Nat) :
    Parses (takeEntries count) fun front bytes => Written count bytes ∧ front = bytes := by
  induction count with
  | zero =>
    apply (Parses.pure []).congr
    intro front bytes
    rw [written_zero]
    constructor
    · rintro ⟨rfl, rfl⟩
      exact ⟨rfl, rfl⟩
    · rintro ⟨rfl, rfl⟩
      exact ⟨rfl, rfl⟩
  | succ count ih =>
    unfold takeEntries
    refine ((parses_takeField 8).bind fun key _ => (parses_takeField 4).bind fun length _ =>
      (parses_takeRun _ _).bind fun run _ => ih.bind fun rest _ => Parses.pure _).congr ?_
    intro front bytes
    rw [written_succ]
    constructor
    · rintro ⟨key, _, eight, ⟨length, _, four, ⟨run, _, whole, ⟨rest, _, written, ⟨rfl, rfl⟩,
        rfl⟩, rfl⟩, rfl⟩, rfl⟩
      simp only [List.append_nil, List.append_assoc]
      exact ⟨⟨key, length, run, rest, eight, four, whole, written, rfl⟩, trivial⟩
    · rintro ⟨⟨key, length, run, rest, eight, four, whole, written, rfl⟩, rfl⟩
      refine ⟨key, _, eight, ⟨length, _, four, ⟨run, _, whole, ⟨rest, [], written, ⟨?_, rfl⟩, rfl⟩,
        rfl⟩, rfl⟩, ?_⟩
      · simp only [List.append_assoc]
      · rw [List.append_nil]

/-- **A table is read from a stream where one was written**, and nowhere else. -/
theorem parses_readStream :
    Parses readStream fun front table =>
      (Ordered table.entries ∧ Countable table.entries) ∧ front = tableBytes table.entries := by
  have parsed : Parses readStream fun front table =>
      ∃ count back, count.length = 4 ∧ (∃ body back',
        Written (ofWord32 count).toNat body ∧
          ((∃ rest, (read (ofWord32 count)).run (count ++ body) = .ok table rest) ∧ back' = []) ∧
          back = body ++ back') ∧ front = count ++ back := by
    refine (parses_takeField 4).bind fun count _ => (parses_takeEntries _).bind fun body _ => ?_
    split
    · next found =>
      apply (Parses.pure _).congr
      intro front table
      simp [found, eq_comm]
    · next found =>
      apply (Parses.throw _).congr
      intro front table
      simp [found]
  apply parsed.congr
  intro front table
  constructor
  · rintro ⟨count, _, four, ⟨_, _, ⟨entries, length, fits, rfl⟩, ⟨⟨rest, found⟩, rfl⟩, rfl⟩, rfl⟩
    obtain ⟨ordered, countable, length', whole⟩ := read_eq_ok_iff.1 found
    have word : word32 (UInt32.ofNat table.entries.length) = count := by
      rw [length', UInt32.ofNat_toNat, word32_ofWord32 four]
    -- the table ends where the entries end that were collected, since they are as many
    rw [tableBytes, word, List.append_assoc] at whole
    obtain ⟨same, -⟩ := flatMap_encode_append_inj fits countable.slots_lt
      (length.trans length'.symm) ((List.append_nil _).trans (List.append_cancel_left whole))
    rw [same, tableBytes, word, List.append_nil]
    exact ⟨⟨ordered, countable⟩, rfl⟩
  · rintro ⟨⟨ordered, countable⟩, rfl⟩
    have count := UInt32.toNat_ofNat_of_lt' countable.entries_lt
    refine ⟨word32 (UInt32.ofNat table.entries.length), _, length_word32 _,
      ⟨table.entries.flatMap Entry.encode, [], ⟨table.entries, ?_, countable.slots_lt, rfl⟩,
        ⟨⟨[], ?_⟩, rfl⟩, rfl⟩, ?_⟩
    · rw [ofWord32_word32, count]
    · rw [ofWord32_word32]
      exact read_eq_ok_iff.2 ⟨ordered, countable, count.symm, (List.append_nil _).symm⟩
    · rw [List.append_nil, tableBytes]

end IndexTable

end RatingArchive

import RatingArchive.Proofs.Index.Delimited
import RatingArchive.Proofs.Interruption
/-!
# Index tables from buffers and from streams

The reader of buffers knows the number of entries beforehand, and checks while it reads. The reader
of streams first collects a table as far as its counts say (`IndexTable.tableExtent`), and checks it
then. They take different ways through malformed bytes, but accept the same tables and leave the
same bytes behind (`IndexTable.readStream_agrees`). What is wrong with a table does not keep the
reader of streams from collecting it, so a stream that fails inside a table is reported as such; and
since it never asks for a byte behind the table, a failure there goes unnoticed.
-/

namespace RatingArchive.IndexTable

/-! ## What the reader of streams takes -/

theorem takes_takeField {n : Nat} {bytes : Bytes} (length : bytes.length = n) :
    Takes (takeField n) bytes (.ok bytes) := by
  apply takes_piece .endInTable _ _ length
  · intro source bytes rest taken
    rw [takeField, taken]
  · intro source failure rest failed
    rw [takeField, failed]

theorem takes_takeRun (key : UInt64) {size : Nat} {bytes : Bytes} (length : bytes.length = size) :
    Takes (takeRun key size) bytes (.ok bytes) where
  whole {source tail} begins := by
    have enough : size ≤ source.remaining.length := by
      rw [begins, List.length_append]
      omega
    obtain ⟨rest, taken, left, kept⟩ := Source.takeExactly_of_le enough
    rw [begins, List.take_left' length] at taken
    rw [begins, List.drop_left' length] at left
    have found : takeRun key size source = .ok bytes rest := by
      rw [takeRun, (Source.takeUpTo_eq_ok_iff length).2 taken]
      simp only [if_pos length]
    rw [answerOf_of_ok found, stateAfter_of_ok found]
    exact ⟨rfl, left, kept⟩
  short {source} _ missing := by
    rw [length] at missing
    obtain ⟨rest, taken⟩ := Source.takeUpTo_of_lt missing
    unfold Source.BreaksOff
    cases fault : source.fault with
    | none =>
      simp only [fault] at taken
      have failed : takeRun key size source = .error (.invalidData (.endInRun key)) rest := by
        rw [takeRun, taken]
        simp only [if_neg (Nat.ne_of_lt missing)]
      exact ⟨_, answerOf_of_error failed, .endInRun key, rfl⟩
    | some failure =>
      simp only [fault] at taken
      have failed : takeRun key size source = .error (.io failure) rest := by
        rw [takeRun, taken]
      exact ⟨_, answerOf_of_error failed, fun _ => rfl⟩

/-- **Entries are collected** whatever is wrong with them, up to their end. -/
theorem takes_takeEntries {count : Nat} {bytes : Bytes} (written : Written count bytes) :
    Takes (takeEntries count) bytes (.ok bytes) := by
  induction count generalizing bytes with
  | zero =>
    rw [written_zero.1 written]
    exact Takes.pure []
  | succ count ih =>
    obtain ⟨key, length, run, rest, eight, four, whole, others, rfl⟩ := written_succ.1 written
    unfold takeEntries
    refine (takes_takeField eight).bind ((takes_takeField four).bind
      ((takes_takeRun _ whole).bind ((ih others).bind_nil ?_)))
    simp only [← List.append_assoc]
    exact Takes.pure _

/-- **A table is collected, and then read** from the bytes that were collected. -/
theorem takes_readStream {count body : Bytes} (four : count.length = 4)
    (written : Written (ofWord32 count).toNat body) :
    Takes readStream (count ++ body) (answerOf (read (ofWord32 count)) (count ++ body)) := by
  unfold readStream
  refine (takes_takeField four).bind ((takes_takeEntries written).bind_nil ?_)
  unfold answerOf
  rw [EStateM.run]
  cases read (ofWord32 count) (count ++ body) with
  | ok table rest => exact Takes.pure table
  | error error rest => exact Takes.throw error

/-- What was written of ordered entries is taken as their table. -/
theorem takes_tableBytes {entries : List Entry} (ordered : Ordered entries)
    (countable : Countable entries) : Takes readStream (tableBytes entries) (.ok ⟨entries⟩) := by
  have count : (UInt32.ofNat entries.length).toNat = entries.length :=
    UInt32.toNat_ofNat_of_lt' countable.entries_lt
  have written : Written (ofWord32 (word32 (UInt32.ofNat entries.length))).toNat
      (entries.flatMap Entry.encode) :=
    ⟨entries, by rw [ofWord32_word32, count], countable.slots_lt, rfl⟩
  have found : read (UInt32.ofNat entries.length) (tableBytes entries) = .ok ⟨entries⟩ [] :=
    read_eq_ok_iff.2 ⟨ordered, countable, count.symm, (List.append_nil _).symm⟩
  have taken := takes_readStream (length_word32 _) written
  rw [ofWord32_word32] at taken
  rwa [← answerOf_of_ok found]

/-! ## The extent of a table -/

/-- How far an entry reaches, as the length of its run says. If that length is missing, the entry
reaches at least as far as the length does. -/
def entryExtent (bytes : Bytes) : Nat :=
  if bytes.length < 12 then 12 else 12 + 4 * (ofWord32 ((bytes.drop 8).take 4)).toNat

/-- How far `count` entries reach. -/
def entriesExtent : (count : Nat) → Bytes → Nat
  | 0, _ => 0
  | count + 1, bytes =>
    entryExtent bytes + entriesExtent count (bytes.drop (entryExtent bytes))

/-- How far a table reaches, as its number of entries and the lengths of their runs say. -/
def tableExtent (bytes : Bytes) : Nat :=
  4 + entriesExtent (ofWord32 (bytes.take 4)).toNat (bytes.drop 4)

/-- Bytes go on to a written form of the given extent if they begin with one, or are the beginning
of one that is as long at least. -/
def GoesOn (bytes : Bytes) (extent : Nat) (form : Bytes) : Prop :=
  bytes.take extent <+: form ∧ extent ≤ form.length ∧
    (extent ≤ bytes.length → bytes.take extent = form)

theorem GoesOn.append {bytes form back : Bytes} {extent more : Nat} (h : GoesOn bytes extent form)
    (h' : GoesOn (bytes.drop extent) more back) :
    GoesOn bytes (extent + more) (form ++ back) := by
  obtain ⟨part, long, whole⟩ := h
  obtain ⟨part', long', whole'⟩ := h'
  unfold GoesOn
  rw [List.take_add, List.length_append]
  rw [List.length_drop] at whole'
  refine ⟨?_, by omega, fun enough => ?_⟩
  · by_cases enough : extent ≤ bytes.length
    · rw [whole enough]
      exact (List.prefix_append_right_inj form).2 part'
    · rw [List.drop_of_length_le (by omega), List.take_nil, List.append_nil]
      exact part.trans (List.prefix_append form back)
  · rw [whole (by omega), whole' (by omega)]

/-- A cut inside the extent leaves a part of the form. -/
theorem GoesOn.of_lt {bytes form : Bytes} {extent f : Nat} (h : GoesOn bytes extent form)
    (inside : f ≤ bytes.length) (cut : f < extent) :
    bytes.take f <+: form ∧ (bytes.take f).length < form.length := by
  obtain ⟨part, long, -⟩ := h
  rw [List.length_take_of_le inside]
  exact ⟨(List.take_prefix_take_left (Nat.le_of_lt cut)).trans part, Nat.lt_of_lt_of_le cut long⟩

/-- A cut behind the extent leaves the form, and what stands behind it. -/
theorem GoesOn.of_le {bytes form : Bytes} {extent f : Nat} (h : GoesOn bytes extent form)
    (inside : f ≤ bytes.length) (enough : extent ≤ f) :
    bytes.take f = form ++ (bytes.take f).drop extent := by
  obtain ⟨-, -, whole⟩ := h
  have front : (bytes.take f).take extent = form := by
    rw [List.take_take, Nat.min_eq_left enough, whole (Nat.le_trans enough inside)]
  rw [← front, List.take_append_drop]

theorem le_entryExtent (bytes : Bytes) : 12 ≤ entryExtent bytes := by
  unfold entryExtent
  split <;> omega

theorem entryExtent_append {bytes : Bytes} (long : 12 ≤ bytes.length) (more : Bytes) :
    entryExtent (bytes ++ more) = entryExtent bytes := by
  unfold entryExtent
  rw [if_neg (by rw [List.length_append]; omega), if_neg (Nat.not_lt.2 long),
    List.drop_append_of_le_length (by omega),
    List.take_append_of_le_length (by rw [List.length_drop]; omega)]

/-- An entry that is all there is the written form of one. -/
theorem exists_encode {bytes : Bytes} (whole : entryExtent bytes ≤ bytes.length) :
    ∃ entry : Entry, entry.slots.length < UInt32.size ∧
      bytes.take (entryExtent bytes) = entry.encode := by
  have long := Nat.le_trans (le_entryExtent bytes) whole
  have size : entryExtent bytes = 12 + 4 * (ofWord32 ((bytes.drop 8).take 4)).toNat :=
    if_neg (Nat.not_lt.2 long)
  obtain ⟨entry, tail, count, split⟩ : ∃ (entry : Entry) (tail : Bytes),
      entry.slots.length = (ofWord32 ((bytes.drop 8).take 4)).toNat ∧
        bytes = entry.encode ++ tail :=
    ⟨⟨_, _⟩, _, eq_encode_append rfl long (by rw [List.length_drop]; omega)⟩
  have length : entry.encode.length = entryExtent bytes := by
    rw [Entry.length_encode, Entry.size, count, size]
  refine ⟨entry, by rw [count]; exact UInt32.toNat_lt _, ?_⟩
  rw [← length, split, List.take_left]

/-- Any bytes go on to a written entry: what is missing may be zeros. -/
theorem exists_entry (bytes : Bytes) :
    ∃ entry : Entry, entry.slots.length < UInt32.size ∧
      GoesOn bytes (entryExtent bytes) entry.encode := by
  obtain ⟨head, hhead⟩ : ∃ head, head = bytes ++ List.replicate 12 0 := ⟨_, rfl⟩
  have long : 12 ≤ head.length := by
    rw [hhead, List.length_append, List.length_replicate]
    omega
  have le : entryExtent bytes ≤ entryExtent head := by
    by_cases short : bytes.length < 12
    · rw [entryExtent, if_pos short]
      exact le_entryExtent head
    · rw [hhead, entryExtent_append (Nat.not_lt.1 short)]
  obtain ⟨padded, hpadded⟩ : ∃ padded, padded = head ++ List.replicate (entryExtent head) 0 :=
    ⟨_, rfl⟩
  have extent : entryExtent padded = entryExtent head := by rw [hpadded, entryExtent_append long]
  have enough : entryExtent padded ≤ padded.length := by
    rw [extent, hpadded, List.length_append, List.length_replicate]
    omega
  obtain ⟨entry, fits, form⟩ := exists_encode enough
  have size : entry.encode.length = entryExtent head := by
    rw [← form, List.length_take_of_le enough, extent]
  have begins : bytes.take (entryExtent bytes) <+: padded := by
    rw [hpadded, hhead, List.append_assoc]
    exact (List.take_prefix _ _).trans (List.prefix_append _ _)
  have part : bytes.take (entryExtent bytes) <+: entry.encode := by
    apply List.prefix_of_prefix_length_le begins (form ▸ List.take_prefix _ _)
    rw [size]
    exact Nat.le_trans (List.length_take_le _ _) le
  refine ⟨entry, fits, part, size ▸ le, ?_⟩
  intro whole
  apply part.eq_of_length
  rw [List.length_take_of_le whole, size, hhead,
    entryExtent_append (Nat.le_trans (le_entryExtent bytes) whole)]

/-- **Any bytes go on to entries** of the extent that they have as far as their lengths are
there. -/
theorem exists_written (count : Nat) (bytes : Bytes) :
    ∃ body, Written count body ∧ GoesOn bytes (entriesExtent count bytes) body := by
  induction count generalizing bytes with
  | zero => exact ⟨[], written_zero.2 rfl, List.prefix_refl _, Nat.le_refl _, fun _ => rfl⟩
  | succ count ih =>
    obtain ⟨entry, fits, first⟩ := exists_entry bytes
    obtain ⟨body, ⟨entries, length, others, rfl⟩, rest⟩ := ih (bytes.drop (entryExtent bytes))
    refine ⟨entry.encode ++ entries.flatMap Entry.encode, ?_, first.append rest⟩
    exact ⟨entry :: entries, by rw [List.length_cons, length],
      List.forall_mem_cons.2 ⟨fits, others⟩, rfl⟩

/-! ## Both readers -/

/-- What the reader of streams takes off a stream that begins with the given bytes. All it can find
wrong with a table that is there are its data. -/
theorem exists_takes_readStream {bytes : Bytes} (counted : 4 ≤ bytes.length) :
    ∃ front answer, Takes readStream front answer ∧ GoesOn bytes (tableExtent bytes) front ∧
      ∀ error, answer = .error error → ∃ fault, error = .invalidData fault := by
  have four : (bytes.take 4).length = 4 := List.length_take_of_le counted
  have count : GoesOn bytes 4 (bytes.take 4) :=
    ⟨List.prefix_refl _, Nat.le_of_eq four.symm, fun _ => rfl⟩
  obtain ⟨body, written, entries⟩ :=
    exists_written (ofWord32 (bytes.take 4)).toNat (bytes.drop 4)
  refine ⟨_, _, takes_readStream four written, count.append entries, ?_⟩
  intro error failed
  have found := eq_error_of_answerOf failed
  rw [← word32_ofWord32 four, ofWord32_word32, ← List.append_nil body] at found
  exact invalidData_of_read written found

/-- A stream holds a table if and only if its bytes do, with the same bytes behind it. -/
theorem exists_readStream_iff (source : Source) (table : IndexTable) (tail : Bytes) :
    (∃ rest, readStream.run source = .ok table rest ∧ rest.remaining = tail) ↔
      (read (ofWord32 (source.remaining.take 4))).run source.remaining = .ok table tail := by
  rw [EStateM.run, parses_readStream, read_eq_ok_iff]
  constructor
  · rintro ⟨_, ⟨⟨ordered, countable⟩, rfl⟩, begins⟩
    refine ⟨ordered, countable, ?_, begins⟩
    rw [begins, tableBytes, List.append_assoc, List.take_left' (length_word32 _), ofWord32_word32,
      UInt32.toNat_ofNat_of_lt' countable.entries_lt]
  · rintro ⟨ordered, countable, -, begins⟩
    exact ⟨_, ⟨⟨ordered, countable⟩, rfl⟩, begins⟩

/-- **Both readers agree.** A stream holds a table if and only if its bytes do, with the same
entries and the same bytes behind it. If it does not, and ends without a failure, its data are invalid. And
if it fails, this is reported if the table reaches behind that point; if not, the answer is the one
for all bytes, and no byte behind the table is taken. -/
theorem readStream_agrees {bytes : Bytes} (counted : 4 ≤ bytes.length) :
    (∀ source, source.remaining = bytes → ∀ table tail,
      (∃ rest, readStream.run source = .ok table rest ∧ rest.remaining = tail) ↔
        (read (ofWord32 (bytes.take 4))).run bytes = .ok table tail) ∧
    (∀ source, source.remaining = bytes → source.fault = none → ∀ error rest,
      readStream.run source = .error error rest → ∃ fault, error = .invalidData fault) ∧
    ∀ source failure f, source.fault = some failure → failure.kind = .other →
      source.remaining = bytes.take f → f ≤ bytes.length →
        (f < tableExtent bytes → answerOf readStream source = .error (.io failure)) ∧
        (tableExtent bytes ≤ f →
          (stateAfter readStream source).remaining = source.remaining.drop (tableExtent bytes) ∧
            ∀ whole, whole.remaining = bytes →
              answerOf readStream source = answerOf readStream whole) := by
  obtain ⟨front, answer, takes, goesOn, invalid⟩ := exists_takes_readStream counted
  have split (enough : tableExtent bytes ≤ bytes.length) :
      bytes = front ++ bytes.drop (tableExtent bytes) := by
    have begins := goesOn.of_le (Nat.le_refl _) enough
    rwa [List.take_length] at begins
  refine ⟨?_, ?_, ?_⟩
  · rintro source rfl table tail
    exact exists_readStream_iff source table tail
  · rintro source rfl ends error rest failed
    have failed := answerOf_of_error failed
    by_cases enough : tableExtent source.remaining ≤ source.remaining.length
    · obtain ⟨answers, -⟩ := takes.whole (split enough)
      exact invalid error (answers.symm.trans failed)
    · obtain ⟨part, short⟩ := goesOn.of_lt (Nat.le_refl _) (Nat.not_le.1 enough)
      rw [List.take_length] at part short
      obtain ⟨_, answers, breaks⟩ := takes.short part short
      cases answers.symm.trans failed
      rwa [Source.BreaksOff, ends] at breaks
  · intro source failure f fails other delivered inside
    constructor
    · intro cut
      obtain ⟨part, short⟩ := goesOn.of_lt inside cut
      rw [← delivered] at part short
      obtain ⟨_, answers, breaks⟩ := takes.short part short
      rw [Source.BreaksOff, fails] at breaks
      rw [answers, breaks (by rw [other]; decide)]
    · intro enough
      have begins := goesOn.of_le inside enough
      rw [← delivered] at begins
      obtain ⟨answers, left, -⟩ := takes.whole begins
      refine ⟨left, ?_⟩
      intro whole delivered'
      have split := split (Nat.le_trans enough inside)
      rw [← delivered'] at split
      rw [answers, (takes.whole split).1]

/-- Two entries with keys in disorder, and a stream that fails inside the second one, or behind it:
the disorder is found only in the second case. -/
theorem readStream_agrees_disordered :
    ∃ bytes : Bytes, bytes = tableBytes [⟨5, [0]⟩, ⟨3, [1]⟩] ++ [42] ∧ 4 ≤ bytes.length ∧
      tableExtent bytes = 36 ∧
      answerOf readStream ⟨[bytes.take 20], some (.device .other "lost")⟩ =
        .error (.io (.device .other "lost")) ∧
      answerOf readStream ⟨[bytes.take 36], some (.device .other "lost")⟩ =
        .error (.invalidData (.keyOrder 3 5)) := by
  have counted : 4 ≤ (tableBytes [⟨5, [0]⟩, ⟨3, [1]⟩] ++ [42]).length := by decide +kernel
  have extent : tableExtent (tableBytes [⟨5, [0]⟩, ⟨3, [1]⟩] ++ [42]) = 36 := by decide +kernel
  obtain ⟨-, -, fails⟩ := readStream_agrees counted
  obtain ⟨inside, -⟩ := fails ⟨[_], some (.device .other "lost")⟩ _ 20 rfl rfl
    (List.append_nil _) (by decide +kernel)
  obtain ⟨-, behind⟩ := fails ⟨[_], some (.device .other "lost")⟩ _ 36 rfl rfl
    (List.append_nil _) (by decide +kernel)
  obtain ⟨-, same⟩ := behind (Nat.le_of_eq extent)
  refine ⟨_, rfl, counted, extent, inside (by rw [extent]; decide), ?_⟩
  rw [same (.ofBytes _) (Source.remaining_ofBytes _)]
  decide +kernel

end RatingArchive.IndexTable

import Mathlib.Algebra.GroupWithZero.Nat
import Mathlib.Data.List.Induction
import RatingArchive.Proofs.Index.Codec
import RatingArchive.Sink.Memory
/-!
# Building an index table

A builder is offered entries one after the other, and takes those that continue its table: there is
room for the entry, its key follows the last one, and it has slots (`Builder.Takes`). Which of the
entries that are offered these are can be told without a builder (`Builder.taken`). A builder knows
their number, the last key among them and their bytes (`Builder.Holds`), whatever else was offered
in between. What it answers follows from that (`Builder.answers_offer`).
-/

namespace RatingArchive

/-- The number of entries, and each with its key, the length of its run and its slots, all of them
big-endian. -/
def tableLayout (entries : List Entry) : Bytes :=
  bigEndian 4 entries.length ++ entries.flatMap fun entry =>
    bigEndian 8 entry.key.toNat ++ bigEndian 4 entry.slots.length ++
      entry.slots.flatMap fun slot => bigEndian 4 slot.toNat

theorem tableBytes_eq_layout {entries : List Entry} (countable : Countable entries) :
    tableBytes entries = tableLayout entries := by
  have count {n : Nat} (lt : n < UInt32.size) : word32 (UInt32.ofNat n) = bigEndian 4 n := by
    rw [word32, UInt32.toNat_ofNat_of_lt' lt]
  rw [tableBytes, tableLayout, count countable.entries_lt]
  congr 1
  apply List.flatMap_congr
  intro entry mem
  rw [Entry.encode, count (countable.slots_lt entry mem)]
  rfl

namespace Builder

/-! ## The entries that are taken -/

/-- An entry continues a table of `expected` entries, behind those that are there. -/
def Takes (expected : UInt32) (entries : List Entry) (entry : Entry) : Prop :=
  entries.length < expected.toNat ∧ (∀ last ∈ entries.getLast?, last.key < entry.key) ∧
    entry.slots ≠ []

instance (expected : UInt32) (entries : List Entry) (entry : Entry) :
    Decidable (Takes expected entries entry) :=
  inferInstanceAs (Decidable (_ ∧ _ ∧ _))

/-- The entries of a table with one more, if it continues the table. -/
def take (expected : UInt32) (entries : List Entry) (entry : Entry) : List Entry :=
  if Takes expected entries entry then entries ++ [entry] else entries

/-- The entries that a table of `expected` ones takes of those that are offered. -/
def taken (expected : UInt32) (offered : List Entry) : List Entry :=
  offered.foldl (take expected) []

theorem taken_append_singleton (expected : UInt32) (offered : List Entry) (entry : Entry) :
    taken expected (offered ++ [entry]) = take expected (taken expected offered) entry := by
  simp only [taken, List.foldl_append, List.foldl_cons, List.foldl_nil]

/-- The builder to which entries were offered, whether it has taken them or not. -/
def offer (builder : Builder) (offered : List Entry) : Builder :=
  offered.foldl (fun builder entry => stateAfter (write entry) builder) builder

theorem offer_append_singleton (builder : Builder) (offered : List Entry) (entry : Entry) :
    builder.offer (offered ++ [entry]) = stateAfter (write entry) (builder.offer offered) := by
  simp only [offer, List.foldl_append, List.foldl_cons, List.foldl_nil]

/-- An entry that is not refused follows those before it. -/
theorem follows_of_refusal?_eq_none {builder : Builder} {entry : Entry}
    (accepted : builder.refusal? entry = none) :
    builder.written < builder.expected.toNat ∧ (∀ last ∈ builder.lastKey, last < entry.key) ∧
      entry.slots ≠ [] := by
  have filled (run : refusal?.refusedRun? entry = none) : entry.slots ≠ [] := by
    intro none
    simp [refusal?.refusedRun?, none] at run
  unfold refusal? at accepted
  split at accepted
  · cases accepted
  · next room =>
    refine ⟨Nat.not_le.1 room, ?_⟩
    cases present : builder.lastKey with
    | none =>
      simp only [present] at accepted
      exact ⟨by simp, filled accepted⟩
    | some last =>
      simp only [present] at accepted
      split at accepted
      · cases accepted
      · next behind => exact ⟨by simpa using behind, filled accepted⟩

/-! ## What a builder knows -/

/-- A builder has written some entries of a table of `expected` ones. -/
structure Holds (expected : UInt32) (entries : List Entry) (builder : Builder) : Prop where
  expected_eq : builder.expected = expected
  written_eq : builder.written = entries.length
  lastKey_eq : builder.lastKey = entries.getLast?.map Entry.key
  bytes_eq : builder.bytes = word32 expected ++ entries.flatMap Entry.encode
  room : entries.length ≤ expected.toNat
  fits : ∀ entry ∈ entries, entry.slots.length < UInt32.size

theorem holds_new (expected : UInt32) : (new expected).Holds expected [] :=
  ⟨rfl, rfl, rfl, (List.append_nil _).symm, Nat.zero_le _, List.forall_mem_nil _⟩

namespace Holds

variable {builder : Builder} {expected : UInt32} {entries : List Entry} {entry : Entry}

/-- **An entry that continues the table** is added to it. -/
theorem write_of_takes (h : builder.Holds expected entries)
    (takes : Takes expected entries entry) (fits : entry.slots.length < UInt32.size) :
    ∃ next, write entry builder = .ok () next ∧ next.Holds expected (entries ++ [entry]) := by
  obtain ⟨room, behind, filled⟩ := takes
  have written := @write_of_follows builder entry (by rwa [h.expected_eq, h.written_eq])
    (by simpa [h.lastKey_eq] using behind) filled fits
  refine ⟨_, written, h.expected_eq, ?_, ?_, ?_, ?_, ?_⟩
  · simp [h.written_eq]
  · simp
  · simp [h.bytes_eq]
  · rw [List.length_append, List.length_singleton]
    omega
  · intro other mem
    rcases List.mem_append.1 mem with old | new
    · exact h.fits other old
    · rwa [List.mem_singleton.1 new]

/-- **Any other entry** is refused, and leaves no trace. -/
theorem write_of_not_takes (h : builder.Holds expected entries)
    (refused : ¬Takes expected entries entry) :
    ∃ fault, write entry builder = .error (.illegalState fault) builder := by
  cases found : builder.refusal? entry with
  | some fault => exact ⟨fault, by simp only [write, found]⟩
  | none =>
    obtain ⟨room, behind, filled⟩ := follows_of_refusal?_eq_none found
    rw [h.expected_eq, h.written_eq] at room
    refine absurd ⟨room, ?_, filled⟩ refused
    simpa [h.lastKey_eq] using behind

/-- Whatever is offered, the builder holds what its table takes. -/
theorem stateAfter_write (h : builder.Holds expected entries)
    (fits : entry.slots.length < UInt32.size) :
    (stateAfter (write entry) builder).Holds expected (take expected entries entry) := by
  unfold take
  split
  · next takes =>
    obtain ⟨next, written, holds⟩ := h.write_of_takes takes fits
    rwa [stateAfter_of_ok written]
  · next refused =>
    obtain ⟨fault, failed⟩ := h.write_of_not_takes refused
    rwa [stateAfter_of_error failed]

theorem countable (h : builder.Holds expected entries) : Countable entries :=
  ⟨Nat.lt_of_le_of_lt h.room expected.toNat_lt, h.fits⟩

theorem size_eq (h : builder.Holds expected entries) :
    builder.size = 4 + (entries.map fun entry => 12 + 4 * entry.slots.length).sum := by
  rw [size, h.bytes_eq, List.length_append, length_word32, List.length_flatMap]
  simp [Entry.size]

/-- A builder that has all its entries hands out their table. -/
theorem finish_of_whole (h : builder.Holds expected entries)
    (whole : entries.length = expected.toNat) : builder.finish = .ok (tableLayout entries) := by
  have bytes : builder.bytes = tableLayout entries := by
    rw [← tableBytes_eq_layout h.countable, tableBytes, whole, UInt32.ofNat_toNat, h.bytes_eq]
  rw [finish, h.written_eq, h.expected_eq, if_pos whole, bytes]

theorem finish_of_part (h : builder.Holds expected entries)
    (part : entries.length ≠ expected.toNat) :
    builder.finish = .error (.illegalState (.unfinishedTable entries.length expected)) := by
  rw [finish, h.written_eq, h.expected_eq, if_neg part]

end Holds

theorem holds_offer (expected : UInt32) {offered : List Entry}
    (fits : ∀ entry ∈ offered, entry.slots.length < UInt32.size) :
    ((new expected).offer offered).Holds expected (taken expected offered) := by
  induction offered using List.reverseRecOn with
  | nil => exact holds_new expected
  | append_singleton offered entry ih =>
    rw [List.forall_mem_append, List.forall_mem_singleton] at fits
    rw [offer_append_singleton, taken_append_singleton]
    exact (ih fits.1).stateAfter_write fits.2

/-! ## What a builder answers -/

/-- What a builder answers that has taken some entries of a table of `expected` ones. -/
structure Answers (expected : UInt32) (entries : List Entry) (builder : Builder) : Prop where
  count : builder.written = entries.length
  bounded : builder.written ≤ expected.toNat
  size : builder.size = 4 + (entries.map fun entry => 12 + 4 * entry.slots.length).sum
  accepts : ∀ entry, Takes expected entries entry → entry.slots.length < UInt32.size →
    ∃ next, write entry builder = .ok () next
  refuses : ∀ entry, ¬Takes expected entries entry →
    ∃ fault, write entry builder = .error (.illegalState fault) builder
  /-- With all its entries, the table is handed out, or written behind what a buffer has. -/
  whole : entries.length = expected.toNat → builder.finish = .ok (tableLayout entries) ∧
    ∀ sink : MemorySink, builder.writeTo sink =
      .ok (tableLayout entries).length ⟨sink.content ++ tableLayout entries⟩
  /-- Before that, neither is done. -/
  part : entries.length ≠ expected.toNat → ∃ fault, builder.finish = .error (.illegalState fault) ∧
    ∀ sink : MemorySink, builder.writeTo sink = .error (.illegalState fault) sink

/-- **What becomes of the entries that are offered** to a builder: it takes those that continue its
table, refuses the others without a trace, and writes the table when it has all entries. -/
theorem answers_offer (expected : UInt32) {offered : List Entry}
    (fits : ∀ entry ∈ offered, entry.slots.length < UInt32.size) :
    ((new expected).offer offered).Answers expected (taken expected offered) := by
  have holds := holds_offer expected fits
  refine ⟨holds.written_eq, ?_, holds.size_eq, ?_, ?_, ?_, ?_⟩
  · rw [holds.written_eq]
    exact holds.room
  · intro entry takes fit
    obtain ⟨next, written, -⟩ := holds.write_of_takes takes fit
    exact ⟨next, written⟩
  · intro entry refused
    exact holds.write_of_not_takes refused
  · intro whole
    have finished := holds.finish_of_whole whole
    refine ⟨finished, ?_⟩
    intro sink
    rw [writeTo, finished]
    rfl
  · intro part
    have unfinished := holds.finish_of_part part
    refine ⟨_, unfinished, ?_⟩
    intro sink
    rw [writeTo, unfinished]

/-- Five entries. In a table of two, the second and the third do not continue it, and for the last
there is no room. -/
def fiveOffered : List Entry := [⟨5, [0]⟩, ⟨5, [1]⟩, ⟨6, []⟩, ⟨7, [3, 1]⟩, ⟨8, [2]⟩]

theorem answers_offer_five :
    (∀ entry ∈ fiveOffered, entry.slots.length < UInt32.size) ∧
      ((new 2).offer fiveOffered).Answers 2 [⟨5, [0]⟩, ⟨7, [3, 1]⟩] := by
  have fits : ∀ entry ∈ fiveOffered, entry.slots.length < UInt32.size := by decide
  have two : taken 2 fiveOffered = [⟨5, [0]⟩, ⟨7, [3, 1]⟩] := by decide
  exact ⟨fits, two ▸ answers_offer 2 fits⟩

end Builder

end RatingArchive

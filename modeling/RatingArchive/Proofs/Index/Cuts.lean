import Mathlib.Logic.Relation
import RatingArchive.Proofs.Index.Delimited
import RatingArchive.Proofs.Index.Placement
/-!
# Cuts of index tables

A table is cut at a limit by halving each of its runs, which finds the slots below the limit since
runs ascend. What is left ascends again, so that it can be searched, cut, written and read like the
table itself: cuts of a table that a reader has accepted are as good as such tables
(`IndexTable.sound_of_cuts`). What cuts leave are the slots below the smallest limit
(`IndexTable.cuts_filter_slots`).
-/

namespace RatingArchive.IndexTable

/-- A table that was read from a buffer or from a stream. -/
inductive Accepted (table : IndexTable) : Prop where
  | buffered {count : UInt32} {buffer rest : Bytes}
      (found : (read count).run buffer = .ok table rest) : Accepted table
  | streamed {source rest : Source} (found : readStream.run source = .ok table rest) :
      Accepted table

/-- One table is cut at a limit to give another. -/
def Cuts (table view : IndexTable) : Prop := ∃ limit, view = table.below limit

/-- A table can be searched and written, and its runs lie in the bytes of `whole`. -/
structure Sound (whole table : IndexTable) : Prop where
  ordered : Ordered table.entries
  countable : Countable table.entries
  within : table.Within whole

variable {whole table : IndexTable}

theorem Accepted.sound (h : whole.Accepted) : Sound whole whole := by
  cases h with
  | buffered found =>
    obtain ⟨ordered, countable, -⟩ := read_eq_ok_iff.1 found
    exact ⟨ordered, countable, whole.within_self⟩
  | streamed found =>
    obtain ⟨-, ⟨⟨ordered, countable⟩, -⟩, -⟩ := parses_readStream.taken found
    exact ⟨ordered, countable, whole.within_self⟩

theorem Sound.below (h : Sound whole table) (limit : UInt32) : Sound whole (table.below limit) where
  ordered := h.ordered.below limit
  countable := h.countable.below limit
  within := h.within.below limit

/-- **Cuts of cuts** of an accepted table are sound. -/
theorem sound_of_cuts (accepted : whole.Accepted)
    (cuts : Relation.ReflTransGen Cuts whole table) : Sound whole table := by
  induction cuts with
  | refl => exact accepted.sound
  | tail _ cut ih =>
    obtain ⟨limit, rfl⟩ := cut
    exact ih.below limit

/-- The slots below a limit, key by key; keys without any are left out. -/
theorem entries_below (h : Ordered table.entries) (limit : UInt32) :
    (table.below limit).entries =
      (table.entries.map fun entry => ⟨entry.key, entry.slots.filter (· < limit)⟩).filter
        (·.slots ≠ []) := by
  have cut : table.entries.map (·.below limit) =
      table.entries.map fun entry => ⟨entry.key, entry.slots.filter (· < limit)⟩ := by
    apply List.map_congr_left
    intro entry mem
    -- halving finds the slots below the limit because the run ascends
    rw [← below_slots (h.runs entry mem).ascending]
    rfl
  rw [IndexTable.below, cut]
  apply List.filter_congr
  intro entry _
  cases entry.slots <;> rfl

/-- The smaller one of two limits decides. -/
theorem below_below (h : Ordered table.entries) (first second : UInt32) :
    (table.below first).below second = table.below (min first second) := by
  have both (slot : UInt32) : slot < min first second ↔ slot < first ∧ slot < second := by
    rw [← UInt32.not_le, Std.min_le, not_or, UInt32.not_le, UInt32.not_le]
  have entries : ((table.below first).below second).entries =
      (table.below (min first second)).entries := by
    apply ((h.below first).below second).eq_of_lists (h.below _)
    intro key slot
    rw [lists_below (h.below first), lists_below h, lists_below h, and_assoc, both]
  exact congrArg IndexTable.mk entries

/-- What is written of ordered entries is read back, from a buffer and from a stream. -/
theorem read_encode (ordered : Ordered table.entries) (countable : Countable table.entries) :
    ∃ (count : UInt32) (bytes : Bytes), count.toNat = table.entries.length ∧
      table.encode = .ok bytes ∧ ∀ tail,
        (read count).run (bytes ++ tail) = .ok table tail ∧
        ∀ source : Source, source.remaining = bytes ++ tail →
          ∃ rest, readStream.run source = .ok table rest ∧ rest.remaining = tail := by
  refine ⟨UInt32.ofNat table.entries.length, tableBytes table.entries,
    UInt32.toNat_ofNat_of_lt' countable.entries_lt, encodeEntries_eq ordered countable, ?_⟩
  intro tail
  constructor
  · exact (read_tableBytes_eq_ok_iff countable).2 ⟨ordered, rfl, rfl⟩
  · intro source begins
    exact parses_readStream.run ⟨⟨ordered, countable⟩, rfl⟩ begins

/-- **A cut keeps the slots below its limit**, in their order, and drops keys that are left without
slots. Cutting twice is cutting once, at the smaller limit. And what is left is written, and read
back from a buffer and from a stream. -/
theorem cuts_filter_slots (accepted : whole.Accepted)
    (cuts : Relation.ReflTransGen Cuts whole table) (limit : UInt32) :
    (table.below limit).entries =
      (table.entries.map fun entry => ⟨entry.key, entry.slots.filter (· < limit)⟩).filter
        (·.slots ≠ []) ∧
    (∀ second, (table.below limit).below second = table.below (min limit second)) ∧
    ∃ (count : UInt32) (bytes : Bytes), count.toNat = (table.below limit).entries.length ∧
      (table.below limit).encode = .ok bytes ∧ ∀ tail,
        (read count).run (bytes ++ tail) = .ok (table.below limit) tail ∧
        ∀ source : Source, source.remaining = bytes ++ tail →
          ∃ rest, readStream.run source = .ok (table.below limit) rest ∧
            rest.remaining = tail := by
  have sound := sound_of_cuts accepted cuts
  have view := sound.below limit
  exact ⟨entries_below sound.ordered limit, below_below sound.ordered limit,
    read_encode view.ordered view.countable⟩

/-- Three keys, two of them with two slots. -/
def threeKeys : IndexTable := ⟨[⟨12, [0]⟩, ⟨17, [1, 3]⟩, ⟨19, [4, 5]⟩]⟩

theorem read_threeKeys : (read 3).run (tableBytes threeKeys.entries) = .ok threeKeys [] := by
  have ordered : Ordered threeKeys.entries :=
    ordered_iff_keyed.2 ⟨⟨by decide, by decide⟩, by decide⟩
  exact read_eq_ok_iff.2 ⟨ordered, ⟨by decide, by decide⟩, rfl, (List.append_nil _).symm⟩

/-- Two cuts of a table, which leave one key with all its slots and one with some. -/
theorem cuts_filter_slots_twice :
    ∃ whole view : IndexTable, (read 3).run (tableBytes threeKeys.entries) = .ok whole [] ∧
      view = (whole.below 5).below 2 ∧ view = whole.below 2 ∧
      view.entries = [⟨12, [0]⟩, ⟨17, [1]⟩] ∧
      ∃ count bytes, view.encode = .ok bytes ∧ (read count).run bytes = .ok view [] := by
  obtain ⟨-, once, -⟩ := cuts_filter_slots (.buffered read_threeKeys) .refl 5
  obtain ⟨entries, -, count, bytes, -, written, readBack⟩ :=
    cuts_filter_slots (.buffered read_threeKeys) (.single ⟨5, rfl⟩) 2
  obtain ⟨again, -⟩ := readBack []
  rw [List.append_nil] at again
  refine ⟨_, _, read_threeKeys, rfl, once 2, ?_, count, bytes, written, again⟩
  rw [entries]
  decide +kernel

end RatingArchive.IndexTable

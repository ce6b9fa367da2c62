import RatingArchive.Index.Run
import RatingArchive.Proofs.Index.Cuts
import RatingArchive.Proofs.Walking
/-!
# Looking up and walking through

A table can be asked for the slots of a key, and it can be walked through. Both ways lead to the
same entries (`IndexTable.lookups_agree`): a key is found by halving if and only if one of the
entries has it, and the run that is found has the slots of that entry, whichever way they are read.
-/

namespace RatingArchive

/-! ## Reading a run -/

/-- All ways to read a run tell of the same slots. -/
structure SlotRun.Holds (run : SlotRun) (slots : List UInt32) : Prop where
  length : run.length = slots.length
  isEmpty : run.isEmpty = slots.isEmpty
  get? : ∀ i, run.get? i = slots[i]?
  first? : run.first? = slots.head?
  last? : run.last? = slots.getLast?
  toList : run.toList = slots

namespace Entry

theorem length_run (entry : Entry) : entry.run.length = entry.slots.length := by
  rw [run, SlotRun.length, length_flatMap_word32, Nat.mul_div_cancel_left _ (by decide)]

theorem isEmpty_run (entry : Entry) : entry.run.isEmpty = entry.slots.isEmpty := by
  obtain ⟨key, slots⟩ := entry
  cases slots <;> rfl

/-- The word at a place of a run is the slot there. -/
theorem get?_run (entry : Entry) (i : Nat) : entry.run.get? i = entry.slots[i]? := by
  have word : ofWord32 ∘ word32 = id := funext ofWord32_word32
  rw [SlotRun.get?, run, slice?_flatMap_of_width (by decide) length_word32, Option.map_map, word,
    Option.map_id_apply]

/-- **The run of an entry** has its slots. -/
theorem holds_run (entry : Entry) : entry.run.Holds entry.slots where
  length := entry.length_run
  isEmpty := entry.isEmpty_run
  get? := entry.get?_run
  first? := by
    rw [SlotRun.first?, entry.isEmpty_run, entry.get?_run]
    cases entry.slots <;> rfl
  last? := by
    rw [SlotRun.last?, entry.isEmpty_run, entry.get?_run, entry.length_run,
      List.getLast?_eq_getElem?]
    cases entry.slots <;> rfl
  toList := words32_flatMap_word32 entry.slots

end Entry

/-! ## Asking for a key -/

namespace IndexTable

variable {whole table : IndexTable} {key : UInt64}

/-- A key is listed if and only if it has an entry. -/
theorem contains_iff (h : Ordered table.entries) :
    table.contains key = true ↔ ∃ entry ∈ table.entries, entry.key = key := by
  constructor
  · intro listed
    unfold contains at listed
    cases result : table.find key with
    | found i =>
      obtain ⟨entry, place, same⟩ := getElem?_of_find_eq_found h result
      exact ⟨entry, List.mem_of_getElem? place, same⟩
    | missing i =>
      rw [result] at listed
      cases listed
  · rintro ⟨entry, mem, rfl⟩
    have found := (entry?_eq_some_iff h).2 ⟨mem, rfl⟩
    unfold entry? at found
    unfold contains
    split at found
    · next i hit =>
      rw [hit]
      rfl
    · cases found

/-- **Looking up and walking through agree.** The keys of a table ascend. Walking through it yields
its entries, in this order and each once, and tells at every place how many are to come. A key is
found if and only if it is that of an entry, and then its run is that of the entry: it lies where
the bytes of the table that was read have it, and has the same slots in whichever way it is read. -/
theorem lookups_agree (accepted : whole.Accepted)
    (cuts : Relation.ReflTransGen Cuts whole table) :
    table.keys.Pairwise (· < ·) ∧
    Walks Cursor.next Cursor.remaining table.start table.entries ∧
    (∀ key entry, table.entry? key = some entry ↔ entry ∈ table.entries ∧ entry.key = key) ∧
    (∀ key, table.contains key = true ↔ key ∈ table.keys) ∧
    (∀ key, table.entry? key = none ↔ key ∉ table.keys) ∧
    table.Within whole ∧
    ∀ entry ∈ table.entries, entry.run.Holds entry.slots := by
  obtain ⟨ordered, -, within⟩ := sound_of_cuts accepted cuts
  refine ⟨List.pairwise_map.2 ordered.keys, table.walks_start,
    fun key entry => entry?_eq_some_iff ordered, ?_, ?_, within, fun entry _ => entry.holds_run⟩
  · intro key
    rw [contains_iff ordered, keys, List.mem_map]
  · intro key
    rw [← slots?_eq_none_iff ordered, slots?, Option.map_eq_none_iff]

/-- Three keys after a cut, which leaves one of them without slots: it is no longer found. -/
theorem lookups_agree_cut :
    ∃ whole : IndexTable, (read 3).run (tableBytes threeKeys.entries) = .ok whole [] ∧
      entry? (whole.below 2) 17 = some ⟨17, [1]⟩ ∧ (whole.below 2).contains 19 = false ∧
      (placeAfter Cursor.next 2 (whole.below 2).start).remaining = 0 := by
  obtain ⟨-, ⟨-, left⟩, found, listed, -⟩ :=
    lookups_agree (.buffered read_threeKeys) (.single ⟨2, rfl⟩)
  refine ⟨_, read_threeKeys, ?_, ?_, ?_⟩
  · exact (found 17 _).2 ⟨by decide +kernel, rfl⟩
  · rw [Bool.eq_false_iff, ne_eq, listed]
    decide +kernel
  · rw [left]
    decide +kernel

end IndexTable

end RatingArchive

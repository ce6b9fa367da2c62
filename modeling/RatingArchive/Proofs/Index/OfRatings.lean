import Mathlib.Data.List.Sort
import Mathlib.Data.Finset.Card
import RatingArchive.Packer
import RatingArchive.Proofs.Index.Codec
import RatingArchive.Proofs.Region
/-!
# The index of a list of ratings

A packer notes the slot of every rating under its key (`notes`), and sorts what it noted when the
archive is completed (`IndexTable.ofRatings`). The result lists a slot under a key if and only if
the rating at the slot has the key (`lists_ofRatings`), and it is ordered, so that it is the only
ordered table of the kind (`eq_ofRatings`).

* `length_ofRatings`: an index has as many entries as there are distinct keys.
* `slotCount_ofRatings`: an index lists as many slots as there are ratings.
* `below_ofRatings`: cutting an index at a slot gives the index of the ratings before it.
-/

namespace RatingArchive

/-- The slots of an archive fit a word. -/
theorem lt_size_of_small {n : Nat} (small : n ≤ maxRatings) : n < UInt32.size :=
  Nat.lt_of_le_of_lt small (by decide)

/-- The key on one side of the rating at a slot. -/
def keyAt? (side : Side) (ratings : List Rating) (slot : Nat) : Option UInt64 :=
  ratings[slot]?.map (·.key side)

/-- The slots of every key, keys in the order they are first met. -/
def notes (side : Side) (ratings : List Rating) : List Entry :=
  ratings.zipIdx.foldl (fun entries (rating, slot) =>
    noteSlot (rating.key side) (UInt32.ofNat slot) entries) []

/-- The index of one side of an archive with the given ratings. -/
def IndexTable.ofRatings (side : Side) (ratings : List Rating) : IndexTable :=
  ⟨sortEntries (notes side ratings)⟩

@[simp] theorem notes_nil (side : Side) : notes side [] = [] := rfl

/-- One more rating is noted at the slot behind the others. -/
theorem notes_append_singleton (side : Side) (ratings : List Rating) (rating : Rating) :
    notes side (ratings ++ [rating]) =
      noteSlot (rating.key side) (UInt32.ofNat ratings.length) (notes side ratings) := by
  simp [notes, List.zipIdx_append]

/-! ## Noting a slot -/

theorem lists_noteSlot {key k : UInt64} {slot s : UInt32} {entries : List Entry} :
    Lists (noteSlot key slot entries) k s ↔ Lists entries k s ∨ key = k ∧ s = slot := by
  induction entries with
  | nil => simp [noteSlot, lists_cons, not_lists_nil]
  | cons entry entries ih =>
    unfold noteSlot
    split
    · next same =>
      simp only [lists_cons, List.mem_append, List.mem_singleton, same]
      tauto
    · simp only [lists_cons, ih, or_assoc]

theorem mem_keys_noteSlot {key k : UInt64} {slot : UInt32} {entries : List Entry} :
    k ∈ (noteSlot key slot entries).map Entry.key ↔ k ∈ entries.map Entry.key ∨ k = key := by
  induction entries with
  | nil => simp [noteSlot]
  | cons entry entries ih =>
    unfold noteSlot
    split
    · next same => simp only [List.map_cons, List.mem_cons, same]; tauto
    · simp only [List.map_cons, List.mem_cons, ih, or_assoc]

theorem nodup_keys_noteSlot {key : UInt64} {slot : UInt32} {entries : List Entry}
    (h : (entries.map Entry.key).Nodup) : ((noteSlot key slot entries).map Entry.key).Nodup := by
  induction entries with
  | nil => simp [noteSlot]
  | cons entry entries ih =>
    obtain ⟨fresh, rest⟩ := List.nodup_cons.1 h
    unfold noteSlot
    split
    · next same => exact List.nodup_cons.2 ⟨same ▸ fresh, rest⟩
    · next differs =>
      refine List.nodup_cons.2 ⟨?_, ih rest⟩
      intro mem
      rcases mem_keys_noteSlot.1 mem with old | new
      · exact fresh old
      · exact differs new

/-- A slot behind all others keeps the runs ascending. -/
theorem ascends_noteSlot {key : UInt64} {slot : UInt32} {entries : List Entry}
    (runs : ∀ entry ∈ entries, entry.Ascends) (behind : ∀ k s, Lists entries k s → s < slot) :
    ∀ entry ∈ noteSlot key slot entries, entry.Ascends := by
  induction entries with
  | nil =>
    intro entry mem
    rw [List.mem_singleton.1 mem]
    exact ⟨by simp, by simp⟩
  | cons entry entries ih =>
    obtain ⟨run, runs⟩ := List.forall_mem_cons.1 runs
    unfold noteSlot
    split
    · refine List.forall_mem_cons.2 ⟨⟨by simp, ?_⟩, runs⟩
      refine List.pairwise_append.2 ⟨run.ascending, List.pairwise_singleton _ _, ?_⟩
      intro s hs t ht
      rw [List.mem_singleton.1 ht]
      exact behind entry.key s ⟨entry, List.mem_cons_self .., rfl, hs⟩
    · refine List.forall_mem_cons.2 ⟨run, ih runs ?_⟩
      intro k s listed
      exact behind k s (lists_cons.2 (Or.inr listed))

/-- Noting a slot adds one slot. -/
theorem length_slots_noteSlot (key : UInt64) (slot : UInt32) (entries : List Entry) :
    ((noteSlot key slot entries).flatMap (·.slots)).length =
      (entries.flatMap (·.slots)).length + 1 := by
  induction entries with
  | nil => rfl
  | cons entry entries ih =>
    unfold noteSlot
    split
    · simp only [List.flatMap_cons, List.length_append, List.length_singleton]
      omega
    · simp only [List.flatMap_cons, List.length_append, ih]
      omega

/-! ## What a packer has noted -/

theorem keyAt?_append_singleton {side : Side} {ratings : List Rating} {rating : Rating} {slot : Nat}
    {key : UInt64} :
    keyAt? side (ratings ++ [rating]) slot = some key ↔
      keyAt? side ratings slot = some key ∨ slot = ratings.length ∧ rating.key side = key := by
  unfold keyAt?
  rcases Nat.lt_trichotomy slot ratings.length with lt | rfl | gt
  · rw [List.getElem?_append_left lt]
    simp [Nat.ne_of_lt lt]
  · simp
  · have long : (ratings ++ [rating]).length ≤ slot := by
      rw [List.length_append, List.length_singleton]
      omega
    rw [List.getElem?_eq_none long, List.getElem?_eq_none (Nat.le_of_lt gt)]
    simp [Nat.ne_of_gt gt]

theorem keyAt?_take {side : Side} {ratings : List Rating} {n slot : Nat} {key : UInt64} :
    keyAt? side (ratings.take n) slot = some key ↔
      keyAt? side ratings slot = some key ∧ slot < n := by
  unfold keyAt?
  rw [List.getElem?_take]
  split <;> simp_all

theorem lt_of_keyAt? {side : Side} {ratings : List Rating} {slot : Nat} {key : UInt64}
    (h : keyAt? side ratings slot = some key) : slot < ratings.length := by
  obtain ⟨rating, present, -⟩ := Option.map_eq_some_iff.1 h
  exact (List.getElem?_eq_some_iff.1 present).1

/-- The slots noted under a key are those of the ratings with the key. -/
theorem lists_notes {side : Side} {ratings : List Rating} (small : ratings.length ≤ UInt32.size)
    {key : UInt64} {slot : UInt32} :
    Lists (notes side ratings) key slot ↔ keyAt? side ratings slot.toNat = some key := by
  induction ratings using List.reverseRecOn with
  | nil => simp [not_lists_nil, keyAt?]
  | append_singleton ratings rating ih =>
    rw [List.length_append, List.length_singleton] at small
    have place : slot = UInt32.ofNat ratings.length ↔ slot.toNat = ratings.length := by
      rw [← UInt32.toNat_inj, UInt32.toNat_ofNat_of_lt' (by omega)]
    rw [notes_append_singleton, lists_noteSlot, ih (by omega), keyAt?_append_singleton, place]
    tauto

theorem nodup_keys_notes (side : Side) (ratings : List Rating) :
    ((notes side ratings).map Entry.key).Nodup := by
  induction ratings using List.reverseRecOn with
  | nil => simp
  | append_singleton ratings rating ih =>
    rw [notes_append_singleton]
    exact nodup_keys_noteSlot ih

theorem mem_keys_notes {side : Side} {ratings : List Rating} {key : UInt64} :
    key ∈ (notes side ratings).map Entry.key ↔ key ∈ ratings.map (·.key side) := by
  induction ratings using List.reverseRecOn with
  | nil => simp
  | append_singleton ratings rating ih =>
    rw [notes_append_singleton, mem_keys_noteSlot, ih, List.map_append, List.mem_append]
    simp

theorem ascends_notes {side : Side} {ratings : List Rating} (small : ratings.length ≤ UInt32.size) :
    ∀ entry ∈ notes side ratings, entry.Ascends := by
  induction ratings using List.reverseRecOn with
  | nil => exact List.forall_mem_nil _
  | append_singleton ratings rating ih =>
    rw [List.length_append, List.length_singleton] at small
    rw [notes_append_singleton]
    apply ascends_noteSlot (ih (by omega))
    intro k s listed
    rw [UInt32.lt_iff_toNat_lt, UInt32.toNat_ofNat_of_lt' (by omega)]
    exact lt_of_keyAt? ((lists_notes (by omega)).1 listed)

theorem length_slots_notes (side : Side) (ratings : List Rating) :
    ((notes side ratings).flatMap (·.slots)).length = ratings.length := by
  induction ratings using List.reverseRecOn with
  | nil => rfl
  | append_singleton ratings rating ih =>
    rw [notes_append_singleton, length_slots_noteSlot, ih, List.length_append,
      List.length_singleton]

/-- There are as many entries as distinct keys. -/
theorem length_notes (side : Side) (ratings : List Rating) :
    (notes side ratings).length = (ratings.map (·.key side)).toFinset.card := by
  rw [← List.length_map (f := Entry.key),
    ← List.toFinset_card_of_nodup (nodup_keys_notes side ratings)]
  congr 1
  ext key
  simp only [List.mem_toFinset, mem_keys_notes]

theorem length_notes_le (side : Side) (ratings : List Rating) :
    (notes side ratings).length ≤ ratings.length := by
  rw [length_notes, ← List.length_map (f := fun rating : Rating => rating.key side)]
  exact List.toFinset_card_le _

/-- Without its timestamp, a rating is noted all the same. -/
theorem notes_map_kept (side : Side) (format : Format) (ratings : List Rating) :
    notes side (ratings.map format.kept) = notes side ratings := by
  induction ratings using List.reverseRecOn with
  | nil => rfl
  | append_singleton ratings rating ih =>
    rw [List.map_append, List.map_singleton, notes_append_singleton, notes_append_singleton, ih,
      Format.key_kept, List.length_map]

/-! ## The sorted index -/

theorem ordered_sortEntries {entries : List Entry} (nodup : (entries.map Entry.key).Nodup)
    (runs : ∀ entry ∈ entries, entry.Ascends) : Ordered (sortEntries entries) where
  keys := by
    have sorted := pairwise_sortEntries entries
    have distinct : (sortEntries entries).Pairwise fun a b => a.key ≠ b.key :=
      List.pairwise_map.1 (((perm_sortEntries entries).map Entry.key).nodup_iff.2 nodup)
    exact (sorted.and distinct).imp fun ⟨le, ne⟩ => UInt64.lt_of_le_of_ne le ne
  runs entry mem := runs entry ((perm_sortEntries entries).mem_iff.1 mem)

/-- **There is one order** of entries with distinct keys. -/
theorem Collation.collate_eq (collation : Collation) (side : Side) {entries : List Entry}
    (distinct : (entries.map Entry.key).Nodup) :
    collation.collate side entries = sortEntries entries := by
  have perm : (collation.collate side entries).Perm entries :=
    (collation.sort_perm _).trans (collation.enumerate_perm side entries)
  apply (perm.trans (perm_sortEntries entries).symm).eq_of_pairwise _
    (collation.sort_ascending _) (pairwise_sortEntries entries)
  intro a b ha hb le ge
  apply List.inj_on_of_nodup_map distinct (perm.mem_iff.1 ha)
    ((perm_sortEntries entries).mem_iff.1 hb)
  exact UInt64.le_antisymm le ge

/-- The keys that were noted are distinct, so that they come into one order. -/
theorem Collation.collate_notes (collation : Collation) (side : Side) (ratings : List Rating) :
    collation.collate side (notes side ratings) = (IndexTable.ofRatings side ratings).entries :=
  collation.collate_eq side (nodup_keys_notes side ratings)

namespace IndexTable

variable {side : Side} {ratings : List Rating}

theorem perm_ofRatings (side : Side) (ratings : List Rating) :
    (ofRatings side ratings).entries.Perm (notes side ratings) :=
  perm_sortEntries _

theorem ordered_ofRatings (small : ratings.length ≤ UInt32.size) :
    Ordered (ofRatings side ratings).entries :=
  ordered_sortEntries (nodup_keys_notes side ratings) (ascends_notes small)

/-- **An index lists a slot under the key of its rating**, and under no other. -/
theorem lists_ofRatings (small : ratings.length ≤ UInt32.size) {key : UInt64} {slot : UInt32} :
    Lists (ofRatings side ratings).entries key slot ↔
      keyAt? side ratings slot.toNat = some key := by
  rw [lists_of_perm (perm_ofRatings side ratings), lists_notes small]

/-- **There is no other ordered table** that lists every slot under the key of its rating. -/
theorem eq_ofRatings {table : IndexTable} (small : ratings.length ≤ UInt32.size)
    (ordered : Ordered table.entries)
    (lists : ∀ key slot, Lists table.entries key slot ↔
      keyAt? side ratings slot.toNat = some key) : table = ofRatings side ratings := by
  have same := ordered.eq_of_lists (ordered_ofRatings small) fun key slot =>
    (lists key slot).trans (lists_ofRatings small).symm
  exact congrArg IndexTable.mk same

/-- An index has as many entries as there are distinct keys. -/
theorem length_ofRatings (side : Side) (ratings : List Rating) :
    (ofRatings side ratings).entries.length = (ratings.map (·.key side)).toFinset.card := by
  rw [(perm_ofRatings side ratings).length_eq, length_notes]

theorem length_ofRatings_le (side : Side) (ratings : List Rating) :
    (ofRatings side ratings).entries.length ≤ ratings.length :=
  (perm_ofRatings side ratings).length_eq.trans_le (length_notes_le side ratings)

/-- An index lists as many slots as there are ratings. -/
theorem slotCount_ofRatings (side : Side) (ratings : List Rating) :
    (ofRatings side ratings).slotCount = ratings.length := by
  rw [slotCount, ((perm_ofRatings side ratings).flatMap_right _).length_eq, length_slots_notes]

theorem countable_ofRatings (small : ratings.length < UInt32.size) :
    Countable (ofRatings side ratings).entries where
  entries_lt := Nat.lt_of_le_of_lt (length_ofRatings_le side ratings) small
  slots_lt entry mem := by
    have listed := List.mem_map_of_mem (f := Entry.slots) mem
    have part := (List.sublist_flatten_of_mem listed).length_le
    have whole := slotCount_ofRatings side ratings
    change ((ofRatings side ratings).entries.map Entry.slots).flatten.length = _ at whole
    omega

theorem ofRatings_map_kept (side : Side) (format : Format) (ratings : List Rating) :
    ofRatings side (ratings.map format.kept) = ofRatings side ratings := by
  rw [ofRatings, ofRatings, notes_map_kept]

/-- **Cutting an index at a slot** gives the index of the ratings before the slot. -/
theorem below_ofRatings (small : ratings.length ≤ UInt32.size) (limit : UInt32) :
    (ofRatings side ratings).below limit = ofRatings side (ratings.take limit.toNat) := by
  have ordered : Ordered (ofRatings side ratings).entries := ordered_ofRatings small
  apply eq_ofRatings _ (ordered.below limit)
  · intro key slot
    rw [lists_below ordered, lists_ofRatings small, keyAt?_take, UInt32.lt_iff_toNat_lt]
  · exact Nat.le_trans (List.length_take_le' _ _) small

end IndexTable

end RatingArchive

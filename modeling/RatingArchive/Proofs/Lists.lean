import RatingArchive.Proofs.Ends
import RatingArchive.Proofs.Records
/-!
# Lists of the ratings of an archive

An archive that reads records answers with lists of them: `Archive.ratingsAt` is the list at some
slots. What such a list has at a place is the record at the slot there, if there is one
(`Reads.get?_ratingsAt`).

If all slots of a list are those of records, the list is `RatingList.Readable`: no place up to its
length is without a rating, whichever way they are read (`Reads.readable`).
-/

namespace RatingArchive

/-! ## Slots -/

namespace Slots

@[simp] theorem toList_run (slots : List UInt32) : (run slots).toList = slots :=
  filterMap_getElem?_range slots

theorem toList_range (start stop : UInt32) :
    (range start stop).toList =
      (List.range (stop.toNat - start.toNat)).map fun i => start + UInt32.ofNat i := by
  unfold toList
  rw [← List.filterMap_eq_map]
  apply List.filterMap_congr
  intro i mem
  have inside : i < stop.toNat - start.toNat := List.mem_range.1 mem
  exact if_pos inside

@[simp] theorem length_toList (slots : Slots) : slots.toList.length = slots.length := by
  cases slots with
  | run slots => rw [toList_run, length]
  | range start stop => rw [toList_range, List.length_map, List.length_range, length]

/-- The slots of a list are those at its places. -/
theorem getElem?_toList (slots : Slots) (i : Nat) : slots.toList[i]? = slots.get? i := by
  cases slots with
  | run slots => rw [toList_run, get?]
  | range start stop =>
    rw [toList_range, List.getElem?_map, get?]
    by_cases inside : i < stop.toNat - start.toNat <;> simp [inside]

end Slots

/-! ## Walking from both ends -/

namespace RatingList

/-- Whatever is read off a list is there. -/
structure Readable (list : RatingList) : Prop where
  slot? : ∀ i < list.length, ∃ slot, list.slot? i = some slot ∧
    (slot.toNat + 1) * list.format.recordSize ≤ list.region.length
  get? : ∀ i < list.length, (list.get? i).isSome = true
  toList : list.toList.length = list.length
  walk : ∀ moves i rating left, (list.cursor.walk moves)[i]? = some (rating, left) →
    (rating.isSome = true ↔ i < list.length) ∧ left = list.length - (i + 1)

/-- A walk through a list with a rating at each place yields one at each step until the ends have
met. -/
theorem Filled.isSome_walk {list : RatingList} (h : list.Filled) {moves : List Bool} {i left : Nat}
    {rating : Option Rating} (found : (list.cursor.walk moves)[i]? = some (rating, left)) :
    (rating.isSome = true ↔ i < list.length) ∧ left = list.length - (i + 1) := by
  rw [Cursor.getElem?_walk, Option.map_eq_some_iff] at found
  obtain ⟨fromFront, -, step⟩ := found
  cases step
  refine ⟨?_, rfl⟩
  have all : list.cursor.remaining = list.length := rfl
  rw [all]
  split
  · next inside =>
    have place : list.cursor.place (moves.take i) fromFront < list.length := by
      have front := List.count_le_length (a := true) (l := moves.take i)
      rw [List.length_take] at front
      have back : list.cursor.back = list.length := rfl
      have start : list.cursor.front = 0 := rfl
      unfold Cursor.place
      split <;> omega
    exact iff_of_true (h _ place) inside
  · next past => exact iff_of_false nofun past

/-- The slots of a list are those of records in its region. -/
def Stored (list : RatingList) : Prop :=
  ∀ i < list.length, ∃ slot, list.slot? i = some slot ∧
    (slot.toNat + 1) * list.format.recordSize ≤ list.region.length

namespace Stored

variable {list : RatingList}

theorem filled (h : list.Stored) : list.Filled := by
  intro i inside
  obtain ⟨slot, place, reaches⟩ := h i inside
  rw [RatingList.get?, place]
  exact Format.isSome_record? _ reaches

/-- A list of slots of records is readable. -/
theorem readable (h : list.Stored) : list.Readable where
  slot? := h
  get? := h.filled
  toList := h.filled.length_toList
  walk _ _ _ _ found := h.filled.isSome_walk found

end Stored

end RatingList

/-! ## Lists of an archive -/

namespace Archive

variable {archive : Archive} {records : List Rating}

/-- The ratings at some slots of an archive. -/
def ratingsAt (archive : Archive) (slots : Slots) : RatingList :=
  ⟨archive.format, archive.region, slots⟩

theorem ratings_eq_ratingsAt (archive : Archive) :
    archive.ratings = archive.ratingsAt (.range 0 archive.limit) := rfl

theorem ratings_groupOf (archive : Archive) (side : Side) (entry : Entry) :
    (archive.groupOf side entry).ratings = archive.ratingsAt (.run entry.slots) := rfl

/-- The list of all ratings has a slot of its own at each place. -/
theorem slot?_ratings (archive : Archive) {i : Nat} (inside : i < archive.length) :
    ∃ slot, archive.ratings.slot? i = some slot ∧ slot.toNat = i := by
  have fits : (UInt32.ofNat i).toNat = i :=
    UInt32.toNat_ofNat_of_lt' (Nat.lt_trans inside archive.limit.toNat_lt)
  refine ⟨0 + UInt32.ofNat i, if_pos inside, ?_⟩
  rw [UInt32.zero_add, fits]

namespace Reads

/-- The record at a slot, if there is one. -/
theorem record?_eq (h : archive.Reads records) (slot : Nat) :
    archive.format.record? archive.region slot = records[slot]? := by
  by_cases inside : slot < records.length
  · rw [h.record? inside, List.getElem?_eq_getElem inside]
  · rw [List.getElem?_eq_none (Nat.le_of_not_lt inside), h.region]
    apply Format.record?_eq_none
    rw [Format.length_region]
    exact Nat.mul_le_mul_right _ (Nat.le_of_not_lt inside)

/-- What a list of an archive has at a place. -/
theorem get?_ratingsAt (h : archive.Reads records) (slots : Slots) (i : Nat) :
    (archive.ratingsAt slots).get? i = (slots.get? i).bind fun slot => records[slot.toNat]? := by
  simp only [RatingList.get?, RatingList.slot?, ratingsAt, h.record?_eq]
  rfl

/-- The ratings of a list are the records at its slots. -/
theorem toList_ratingsAt (h : archive.Reads records) (slots : Slots) :
    (archive.ratingsAt slots).toList = slots.toList.filterMap fun slot => records[slot.toNat]? := by
  have length : (archive.ratingsAt slots).length = slots.length := rfl
  rw [RatingList.toList, length, Slots.toList, List.filterMap_filterMap]
  simp only [funext (h.get?_ratingsAt slots)]

/-- **A list of slots of records** is readable. -/
theorem readable (h : archive.Reads records) {slots : Slots}
    (below : ∀ slot ∈ slots.toList, slot < archive.limit) : (archive.ratingsAt slots).Readable := by
  apply RatingList.Stored.readable
  intro i inside
  have inside : i < slots.toList.length := by rwa [Slots.length_toList]
  refine ⟨slots.toList[i], ?_, ?_⟩
  · exact (slots.getElem?_toList i).symm.trans (List.getElem?_eq_getElem inside)
  · have lt := below _ (List.getElem_mem inside)
    rw [UInt32.lt_iff_toNat_lt, h.limit] at lt
    show _ ≤ archive.region.length
    rw [h.region, Format.length_region]
    exact Nat.mul_le_mul_right _ lt

/-- The keys at the slots of a list, read on their own, are those of its ratings. -/
theorem filterMap_key? (h : archive.Reads records) {slots : List UInt32}
    (below : ∀ slot ∈ slots, slot < archive.limit) (side : Side) :
    (slots.filterMap fun slot => archive.format.key? archive.region slot.toNat side) =
      (archive.ratingsAt (.run slots)).toList.map (·.key side) := by
  rw [h.toList_ratingsAt, Slots.toList_run, List.map_filterMap]
  apply List.filterMap_congr
  intro slot listed
  have inside := below slot listed
  rw [UInt32.lt_iff_toNat_lt, h.limit] at inside
  rw [h.region, Format.key?_region _ inside, List.getElem?_eq_getElem inside, Option.map_some]

theorem readable_ratings (h : archive.Reads records) : archive.ratings.Readable := by
  rw [ratings_eq_ratingsAt]
  apply h.readable
  intro slot mem
  obtain ⟨i, inside, rfl⟩ := List.getElem_of_mem mem
  have place := List.getElem?_eq_getElem inside
  rw [Slots.length_toList] at inside
  obtain ⟨slot, found, same⟩ := archive.slot?_ratings inside
  rw [Slots.getElem?_toList] at place
  cases place.symm.trans found
  rw [UInt32.lt_iff_toNat_lt, same]
  exact inside

end Reads

end Archive

end RatingArchive

import RatingArchive.Archive.Query
import RatingArchive.Proofs.Image
/-!
# The records of an archive

`Archive.Shows` says that an archive shows a list of ratings: its region holds their records, its
indexes are theirs, and its limit is behind the last of them. Everything that an archive answers
depends on its format and on the ratings that it shows (`Shows.sameAnswers`).

`Format.Holds` says that ratings can be the records of an archive: they are as the format stores
them, and in the order that it asks for.
-/

namespace RatingArchive

/-- Ratings that can be the records of an archive of a format, in this order. -/
structure Format.Holds (format : Format) (records : List Rating) : Prop where
  known : format.isKnown = true
  small : records.length ≤ maxRatings
  stored : ∀ rating ∈ records, format.Stores rating
  ordered : format.hasTimestamps = true → records.Pairwise fun a b => a.notLater b = true

/-- Two ratings of one item, the earlier one first. -/
theorem Format.holds_two :
    Format.Holds .timestamped [⟨2, 7, ⟨1⟩, some 4⟩, ⟨1, 7, ⟨0⟩, some 9⟩] where
  known := rfl
  small := by decide
  stored := by simp [Format.Stores, Format.timestamped, Format.hasTimestamps]
  ordered := by simp [Rating.notLater]

/-- A list has the ratings of another in timestamp order, those of one timestamp in the order that
they have there. -/
structure SortedStably (ratings sorted : List Rating) : Prop where
  perm : sorted.Perm ratings
  ascending : sorted.Pairwise fun a b => a.notLater b = true
  stable : ∀ time, sorted.filter (·.timestamp = time) = ratings.filter (·.timestamp = time)

/-- Sorting by merging is stable: elements that may stand in either order stay as they are. -/
theorem filter_mergeSort {α : Type} {le : α → α → Bool}
    (trans : ∀ a b c, le a b = true → le b c = true → le a c = true)
    (total : ∀ a b, (le a b || le b a) = true) {p : α → Bool}
    (level : ∀ a b, p a = true → p b = true → le a b = true) (xs : List α) :
    (xs.mergeSort le).filter p = xs.filter p := by
  have sorted : (xs.filter p).Pairwise fun a b => le a b = true := by
    apply List.pairwise_of_forall_mem_list
    intro a ha b hb
    exact level a b (List.mem_filter.1 ha).2 (List.mem_filter.1 hb).2
  -- what is sorted is kept as a sublist, and there is no more of it than before
  have kept := (List.sublist_mergeSort trans total sorted List.filter_sublist).filter p
  rw [List.filter_filter] at kept
  simp only [Bool.and_self] at kept
  exact (kept.eq_of_length ((List.mergeSort_perm xs le).filter _).length_eq.symm).symm

theorem sortedStably_mergeSort (ratings : List Rating) :
    SortedStably ratings (ratings.mergeSort Rating.notLater) := by
  have trans (a b c : Rating) (ab : a.notLater b = true) (bc : b.notLater c = true) :
      a.notLater c = true := Rating.notLater_trans ab bc
  refine ⟨List.mergeSort_perm _ _, List.pairwise_mergeSort trans Rating.notLater_total ratings, ?_⟩
  intro time
  apply filter_mergeSort trans Rating.notLater_total
  intro a b ha hb
  have same : a.timestamp = b.timestamp := by
    rw [of_decide_eq_true ha, of_decide_eq_true hb]
  have total := Rating.notLater_total a b
  simpa [Rating.notLater, same] using total

/-- The order in which an archive of a format has its records, and what it keeps of them. -/
def Format.arranged (format : Format) (ratings : List Rating) : List Rating :=
  if format.hasTimestamps then ratings.mergeSort Rating.notLater
  else ratings.map Rating.withoutTimestamp

namespace Format

variable {format : Format} {ratings : List Rating}

@[simp] theorem length_arranged (format : Format) (ratings : List Rating) :
    (format.arranged ratings).length = ratings.length := by
  unfold arranged
  split <;> simp

theorem kept_of_plain (plain : ¬format.hasTimestamps = true) :
    format.kept = Rating.withoutTimestamp := by
  funext rating
  rw [kept, if_neg plain]

/-- Ratings that a format admits become the records of an archive. -/
theorem holds_arranged (known : format.isKnown = true) (small : ratings.length ≤ maxRatings)
    (admitted : ∀ rating ∈ ratings, format.Admits rating) :
    format.Holds (format.arranged ratings) where
  known := known
  small := by rwa [length_arranged]
  stored := by
    unfold arranged
    split
    · next stamped =>
      intro rating mem
      have present := admitted rating ((List.mergeSort_perm _ _).mem_iff.1 mem) stamped
      exact present.trans stamped.symm
    · next plain =>
      rw [← kept_of_plain plain]
      intro rating mem
      obtain ⟨whole, member, rfl⟩ := List.mem_map.1 mem
      exact (admitted whole member).stores_kept
  ordered stamped := by
    rw [arranged, if_pos stamped]
    exact (sortedStably_mergeSort ratings).ascending

/-- Records are arranged as they are. -/
theorem Holds.arranged_eq (h : format.Holds ratings) : format.arranged ratings = ratings := by
  unfold arranged
  split
  · next stamped => exact List.mergeSort_of_pairwise (h.ordered stamped)
  · next plain =>
    rw [← kept_of_plain plain]
    have same : ∀ rating ∈ ratings, format.kept rating = rating := by
      intro rating mem
      exact (h.stored rating mem).kept_eq
    rw [List.map_congr_left same, List.map_id']

end Format

/-- Two ratings with timestamps are in order if and only if the timestamps are. -/
theorem Rating.notLater_iff {first second : Rating} (h : first.timestamp.isSome = true)
    (h' : second.timestamp.isSome = true) :
    first.notLater second = true ↔ first.timestamp.getD 0 ≤ second.timestamp.getD 0 := by
  obtain ⟨t, present⟩ := Option.isSome_iff_exists.1 h
  obtain ⟨u, present'⟩ := Option.isSome_iff_exists.1 h'
  simp [Rating.notLater, present, present']

theorem filterMap_getElem?_range {α : Type} (xs : List α) :
    (List.range xs.length).filterMap (xs[·]?) = xs := by
  induction xs with
  | nil => rfl
  | cons x xs ih =>
    rw [List.length_cons, List.range_succ_eq_map, List.filterMap_cons, List.filterMap_map]
    exact congrArg (x :: ·) ih

namespace Archive

/-- The region of an archive holds the records of ratings, up to its limit. -/
structure Reads (archive : Archive) (records : List Rating) : Prop where
  small : records.length ≤ maxRatings
  stored : ∀ rating ∈ records, archive.format.Stores rating
  region : archive.region = archive.format.region records
  limit : archive.limit.toNat = records.length

/-- An archive shows ratings: it reads them from its region, and its indexes are theirs. -/
structure Shows (archive : Archive) (records : List Rating) : Prop extends
    archive.Reads records where
  table : ∀ side, archive.table side = IndexTable.ofRatings side records

/-- Two archives give the same answer to every query. -/
structure SameAnswers (archive other : Archive) : Prop where
  length : archive.length = other.length
  keys : ∀ side, archive.keys side = other.keys side
  group? : ∀ side key, archive.group? side key = other.group? side key
  counterparts? : ∀ side key, archive.counterparts? side key = other.counterparts? side key
  stream : ∀ order, archive.stream order = other.stream order

/-- Two archives see the same parts: format, records, indexes and limit. -/
structure SameParts (archive other : Archive) : Prop where
  format : archive.format = other.format
  region : archive.region = other.region
  table : ∀ side, archive.table side = other.table side
  limit : archive.limit = other.limit

namespace SameParts

variable {archive other : Archive}

theorem ratings_eq (h : archive.SameParts other) : archive.ratings = other.ratings := by
  rw [ratings, ratings, h.format, h.region, h.limit]

theorem groupOf_eq (h : archive.SameParts other) : archive.groupOf = other.groupOf := by
  funext side entry
  rw [groupOf, groupOf, h.format, h.region]

theorem groups_eq (h : archive.SameParts other) (side : Side) :
    archive.groups side = other.groups side := by
  rw [groups, groups, h.groupOf_eq, h.table]

/-- **Answers** depend on these parts alone. -/
theorem sameAnswers (h : archive.SameParts other) : archive.SameAnswers other := by
  refine ⟨?_, ?_, ?_, ?_, ?_⟩
  · rw [length, length, h.limit]
  · intro side
    rw [keys, keys, h.table]
  · intro side key
    rw [group?, group?, h.groupOf_eq, h.table]
  · intro side key
    simp only [counterparts?, h.format, h.region, h.table]
  · intro order
    cases order <;> simp only [stream, h.ratings_eq, h.groups_eq]

end SameParts

namespace Reads

variable {archive : Archive} {records : List Rating}

/-- The rating at a slot. -/
theorem record? (h : archive.Reads records) {slot : Nat} (inside : slot < records.length) :
    archive.format.record? archive.region slot = some records[slot] := by
  have stored := h.stored _ (List.getElem_mem inside)
  rw [h.region, Format.record?_region inside stored.admits, stored.kept_eq]

theorem keyAt (h : archive.Reads records) (side : Side) {slot : UInt32}
    (inside : slot.toNat < records.length) :
    archive.keyAt side slot = records[slot.toNat].key side := by
  rw [Archive.keyAt, h.region, Format.key?_region _ inside, Option.getD_some]

theorem timestampAt (h : archive.Reads records) {slot : Nat} (inside : slot < records.length) :
    archive.timestampAt slot = records[slot].timestamp.getD 0 := by
  rw [Archive.timestampAt, h.region,
    Format.timestamp?_region inside (h.stored _ (List.getElem_mem inside)), Option.getD_some]

/-- The list of all ratings is the list of the records. -/
theorem toList_ratings (h : archive.Reads records) : archive.ratings.toList = records := by
  have limit := h.limit
  have read (i : Nat) : archive.ratings.get? i = records[i]? := by
    by_cases inside : i < records.length
    · have small := Nat.lt_of_lt_of_le inside h.small
      have slot : (UInt32.ofNat i).toNat = i :=
        UInt32.toNat_ofNat_of_lt' (lt_size_of_small (Nat.le_of_lt small))
      have found := h.record? inside
      rw [List.getElem?_eq_getElem inside]
      simpa [RatingList.get?, RatingList.slot?, ratings, Slots.get?, limit, inside, slot]
        using found
    · rw [List.getElem?_eq_none (Nat.le_of_not_lt inside)]
      simp [RatingList.get?, RatingList.slot?, ratings, Slots.get?, limit, inside]
  have length : archive.ratings.length = records.length := by
    simp [RatingList.length, ratings, Slots.length, limit]
  rw [RatingList.toList, length]
  simp only [funext read]
  exact filterMap_getElem?_range records

end Reads

namespace Shows

variable {archive other : Archive} {records : List Rating}

/-- **What an archive answers** depends on its format and on what it shows. -/
theorem sameAnswers (h : archive.Shows records) (h' : other.Shows records)
    (format : archive.format = other.format) : archive.SameAnswers other := by
  apply SameParts.sameAnswers
  refine ⟨format, ?_, ?_, UInt32.toNat_inj.1 (h.limit.trans h'.limit.symm)⟩
  · rw [h.region, h'.region, format]
  · intro side
    rw [h.table, h'.table]

end Shows

end Archive

end RatingArchive

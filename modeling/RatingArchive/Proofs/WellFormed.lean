import RatingArchive.Archive.Window
import RatingArchive.Proofs.Opening
/-!
# Well-formed archives

The parts of an archive fit together if its region holds as many records as its limit says, and its
indexes are ordered and list slots below the limit only. Nothing is asked of the order of the
records, of the keys under which the indexes list them, or of how often they do.

Every archive that opens is well formed, verified or not (`wellFormed_of_ofFile`), and so are its
windows (`WellFormed.window`): a cutoff is found by halving, which ends at some slot up to the limit
even if the records are in no order.
-/

namespace RatingArchive

namespace Archive

/-- The parts of an archive fit together. -/
structure WellFormed (archive : Archive) : Prop where
  header : archive.header.Valid
  limit_le : archive.limit ≤ archive.header.records
  region : archive.region.length = archive.length * archive.format.recordSize
  ordered : ∀ side, Ordered (archive.table side).entries
  countable : ∀ side, Countable (archive.table side).entries
  below : ∀ side key slot, Lists (archive.table side).entries key slot → slot < archive.limit

variable {archive view : Archive}

/-! ## Opening -/

/-- The archive of an image is well formed if the image is, and passes the check of its indexes. -/
theorem wellFormed_whole {image : Image} (well : image.WellFormed) (file : File)
    (covers : ∀ side, (whole image file).Covers side) : (whole image file).WellFormed where
  header := well.header
  limit_le := UInt32.le_refl _
  region := well.records
  ordered side := by
    cases side
    · exact well.users.ordered
    · exact well.items.ordered
  countable side := by
    cases side
    · exact well.users.countable
    · exact well.items.countable
  below side := (covers side).below

/-- **What opens is well formed**, verified or not. -/
theorem wellFormed_of_ofFile {file : File} {verified : Bool}
    (opened : ofFile file verified = .ok archive) : archive.WellFormed := by
  obtain ⟨image, well, -, covers, rfl⟩ := exists_image_of_ofFile opened
  exact wellFormed_whole well file covers

/-- An archive that shows ratings is well formed. -/
theorem Shows.wellFormed {records : List Rating} (h : archive.Shows records)
    (header : archive.header.Valid) (limit_le : archive.limit ≤ archive.header.records) :
    archive.WellFormed where
  header := header
  limit_le := limit_le
  region := by rw [h.region, Format.length_region, Archive.length, h.limit]
  ordered := h.ordered
  countable side := by
    rw [h.table side]
    exact IndexTable.countable_ofRatings (lt_size_of_small h.small)
  below side := (h.covers side).below

/-! ## Windows -/

/-- **What a window is**: the archive itself, or its records before the slot where the search
ended. -/
theorem window_eq_ok_iff {time : UInt64} :
    archive.window time = .ok view ↔ archive.format.hasTimestamps = true ∧
      (archive.cutoff ≤ time ∧ view = archive ∨
        time < archive.cutoff ∧
          view = archive.restrict (UInt32.ofNat (archive.countBefore time)) time) := by
  unfold window
  by_cases stamped : archive.format.hasTimestamps = true
  · rw [if_neg (by simpa using stamped), ← UInt64.not_le]
    by_cases later : archive.cutoff ≤ time <;> simp [stamped, later, eq_comm]
  · simp [stamped]

theorem countBefore_le (archive : Archive) (time : UInt64) :
    archive.countBefore time ≤ archive.length :=
  lowerBound_le _ _

/-- The number of records before a cutoff fits a word. -/
theorem toNat_countBefore (archive : Archive) (time : UInt64) :
    (UInt32.ofNat (archive.countBefore time)).toNat = archive.countBefore time :=
  UInt32.toNat_ofNat_of_lt' (Nat.lt_of_le_of_lt (archive.countBefore_le time)
    archive.limit.toNat_lt)

theorem countBefore_le_limit (archive : Archive) (time : UInt64) :
    UInt32.ofNat (archive.countBefore time) ≤ archive.limit := by
  rw [UInt32.le_iff_toNat_le, toNat_countBefore]
  exact archive.countBefore_le time

@[simp] theorem table_restrict (archive : Archive) (limit : UInt32) (cutoff : UInt64)
    (side : Side) :
    (archive.restrict limit cutoff).table side = (archive.table side).below limit := by
  cases side <;> rfl

/-- The first records of a well-formed archive are one. -/
theorem WellFormed.restrict (h : archive.WellFormed) {limit : UInt32} (le : limit ≤ archive.limit)
    (cutoff : UInt64) : (archive.restrict limit cutoff).WellFormed where
  header := h.header
  limit_le := UInt32.le_trans le h.limit_le
  region := by
    show (archive.region.take (limit.toNat * archive.format.recordSize)).length = _
    rw [List.length_take, h.region]
    exact Nat.min_eq_left (Nat.mul_le_mul_right _ (UInt32.le_iff_toNat_le.1 le))
  ordered side := by
    rw [table_restrict]
    exact (h.ordered side).below limit
  countable side := by
    rw [table_restrict]
    exact (h.countable side).below limit
  below side key slot listed := by
    rw [table_restrict, lists_below (h.ordered side)] at listed
    exact listed.2

/-- **Windows of well-formed archives** are well formed. -/
theorem WellFormed.window {time : UInt64} (h : archive.WellFormed)
    (cut : archive.window time = .ok view) : view.WellFormed := by
  obtain ⟨-, ⟨-, rfl⟩ | ⟨-, rfl⟩⟩ := window_eq_ok_iff.1 cut
  · exact h
  · exact h.restrict (archive.countBefore_le_limit time) time

end Archive

end RatingArchive

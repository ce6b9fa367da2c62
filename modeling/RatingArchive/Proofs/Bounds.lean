import Mathlib.Logic.Relation
import RatingArchive.Proofs.Index.Placement
import RatingArchive.Proofs.Lists
import RatingArchive.Proofs.Transport
import RatingArchive.Proofs.Windows
/-!
# Reading within bounds

Opening without verification and importing say nothing about the order of the records, nor about
the keys under which they are listed. What they leave is well formed all the same, and so are its
windows (`Archive.views_inv`). The region of a well-formed archive is that of some records
(`Archive.WellFormed.exists_reads`), as many as there are slots. So whatever an archive reads to
answer a query is there (`Archive.InBounds`), and its numbers fit their words (`Archive.Fits`).
-/

namespace RatingArchive.Archive

variable {archive view start : Archive} {records : List Rating}

/-! ## Reading a well-formed archive -/

/-- **A well-formed archive reads records**, whatever they are. -/
theorem WellFormed.exists_reads (h : archive.WellFormed) : ∃ records, archive.Reads records := by
  obtain ⟨records, count, region, stored⟩ := Format.exists_region _ h.region
  refine ⟨records, ?_, stored, region.symm, count.symm⟩
  rw [count]
  exact Nat.le_of_lt_succ archive.limit.toNat_lt

/-- Whatever is read to answer a query, to cut an archive or to export it is there. -/
structure InBounds (archive : Archive) : Prop where
  region_length : archive.region.length = archive.length * archive.format.recordSize
  slot_lt : ∀ side, ∀ entry ∈ (archive.table side).entries, ∀ slot ∈ entry.slots,
    slot < archive.limit
  record? : ∀ slot < archive.length, (archive.format.record? archive.region slot).isSome = true
  key? : ∀ slot < archive.length, ∀ side,
    (archive.format.key? archive.region slot side).isSome = true
  timestamp? : ∀ slot < archive.length,
    (archive.format.timestamp? archive.region slot).isSome = true
  ratings : archive.ratings.Readable
  find : ∀ side key i, (archive.table side).find key = .found i →
    i < (archive.table side).entries.length
  group? : ∀ side key group, archive.group? side key = some group → group.ratings.Readable
  counterparts? : ∀ side key slots, (archive.table side).slots? key = some slots →
    ∀ slot ∈ slots, (archive.format.key? archive.region slot.toNat side.other).isSome = true
  groups : ∀ side count i group left,
    ((archive.startGroups side).take count)[i]? = some (group, left) →
      group.ratings.Readable ∧ left + (i + 1) = (archive.groups side).length
  stream_any : (archive.stream .any).length = archive.length
  stream_timestamp : (archive.stream .timestamp).length = archive.length
  stream_user : (archive.stream .user).length = archive.users.slotCount
  stream_item : (archive.stream .item).length = archive.items.slotCount
  cut : ∀ time, archive.countBefore time * archive.format.recordSize ≤ archive.region.length
  window : archive.format.hasTimestamps = true → ∀ time, ∃ view, archive.window time = .ok view
  serialize : ∃ bytes, archive.serialize = .ok bytes

/-- Numbers that are put into words fit them. -/
structure Fits (archive : Archive) : Prop where
  countBefore : ∀ time, (UInt32.ofNat (archive.countBefore time)).toNat = archive.countBefore time
  run : ∀ side, ∀ entry ∈ (archive.table side).entries, ∀ limit,
    (UInt32.ofNat (entry.below limit).slots.length).toNat = (entry.below limit).slots.length
  keys : ∀ side, (UInt32.ofNat (archive.table side).entries.length).toNat =
    (archive.table side).entries.length
  place : ∀ i < archive.length, ∃ slot, archive.ratings.slot? i = some slot ∧ slot.toNat = i
  region : (UInt64.ofNat archive.region.length).toNat = archive.region.length

/-- The slots of an entry are slots of records. -/
theorem WellFormed.slot_lt (h : archive.WellFormed) (side : Side) {entry : Entry}
    (mem : entry ∈ (archive.table side).entries) {slot : UInt32} (listed : slot ∈ entry.slots) :
    slot < archive.limit :=
  h.below side entry.key slot ⟨entry, mem, rfl, listed⟩

theorem WellFormed.readable_groupOf (h : archive.WellFormed) (side : Side) {entry : Entry}
    (mem : entry ∈ (archive.table side).entries) :
    (archive.groupOf side entry).ratings.Readable := by
  obtain ⟨records, reads⟩ := h.exists_reads
  rw [ratings_groupOf]
  apply reads.readable
  rw [Slots.toList_run]
  intro slot listed
  exact h.slot_lt side mem listed

theorem length_stream_groups (h : archive.WellFormed) (side : Side) :
    ((archive.groups side).flatMap (·.ratings.toList)).length = (archive.table side).slotCount := by
  rw [groups, List.flatMap_map, IndexTable.slotCount, List.length_flatMap, List.length_flatMap]
  congr 1
  apply List.map_congr_left
  intro entry mem
  exact (h.readable_groupOf side mem).toList

/-- **Walking through the groups** yields them one after the other. -/
theorem getElem?_take_groups (archive : Archive) (side : Side) (passed count i : Nat) :
    (GroupCursor.take count ⟨archive, side, ⟨archive.table side, passed⟩⟩)[i]? =
      if i < count then
        (archive.groups side)[passed + i]?.map fun group =>
          (group, (archive.groups side).length - (passed + i + 1))
      else none := by
  induction count generalizing passed i with
  | zero => simp [GroupCursor.take]
  | succ count ih =>
    have place : (archive.groups side)[passed]? =
        (archive.table side).entries[passed]?.map (archive.groupOf side) := List.getElem?_map ..
    have total : (archive.groups side).length = (archive.table side).entries.length :=
      List.length_map ..
    unfold GroupCursor.take GroupCursor.next IndexTable.Cursor.next
    cases here : (archive.table side).entries[passed]? with
    | none =>
      have past : (archive.groups side)[passed + i]? = none := by
        rw [List.getElem?_eq_none_iff] at here ⊢
        omega
      simp [past]
    | some entry =>
      rw [here] at place
      cases i with
      | zero => simp [place, GroupCursor.remaining, IndexTable.Cursor.remaining, total]
      | succ i =>
        have next : passed + 1 + i = passed + (i + 1) := by omega
        simp only [Option.map_some, List.getElem?_cons_succ, ih, next, Nat.add_lt_add_iff_right]

theorem getElem?_take_startGroups {side : Side} {count i left : Nat} {group : Group}
    (found : ((archive.startGroups side).take count)[i]? = some (group, left)) :
    (archive.groups side)[i]? = some group ∧ left + (i + 1) = (archive.groups side).length := by
  rw [startGroups, IndexTable.start, getElem?_take_groups, Nat.zero_add] at found
  split at found
  · obtain ⟨_, place, same⟩ := Option.map_eq_some_iff.1 found
    cases same
    have inside := (List.getElem?_eq_some_iff.1 place).1
    exact ⟨place, by omega⟩
  · cases found

theorem WellFormed.inBounds (h : archive.WellFormed) : archive.InBounds := by
  obtain ⟨records, reads⟩ := h.exists_reads
  have inside {slot : Nat} (lt : slot < archive.length) : slot < records.length := by
    rwa [← reads.limit]
  have slots {side : Side} {key : UInt64} {slots : List UInt32}
      (found : (archive.table side).slots? key = some slots) :
      ⟨key, slots⟩ ∈ (archive.table side).entries :=
    (slots?_eq_some_iff (h.ordered side)).1 found
  have key? (slot : Nat) (lt : slot < archive.length) (side : Side) :
      (archive.format.key? archive.region slot side).isSome = true := by
    rw [reads.region, Format.key?_region _ (inside lt)]
    rfl
  have any : archive.ratings.toList.length = archive.length := reads.readable_ratings.toList
  exact {
    region_length := h.region
    slot_lt side entry mem slot listed := h.slot_lt side mem listed
    record? slot lt := by
      rw [reads.record? (inside lt)]
      rfl
    key?
    timestamp? slot lt := by
      rw [reads.region, Format.timestamp?_region (inside lt) (reads.stored _ (List.getElem_mem _))]
      rfl
    ratings := reads.readable_ratings
    find side key i found := by
      obtain ⟨entry, place, -⟩ := getElem?_of_find_eq_found (h.ordered side) found
      exact (List.getElem?_eq_some_iff.1 place).1
    group? side key group found := by
      obtain ⟨run, listed, rfl⟩ := Option.map_eq_some_iff.1 found
      exact h.readable_groupOf side (slots listed)
    counterparts? side key run found slot listed :=
      key? _ (UInt32.lt_iff_toNat_lt.1 (h.slot_lt side (slots found) listed)) _
    groups side count i group left found := by
      obtain ⟨place, rest⟩ := getElem?_take_startGroups found
      obtain ⟨entry, mem, rfl⟩ := List.mem_map.1 (List.mem_of_getElem? place)
      exact ⟨h.readable_groupOf side mem, rest⟩
    stream_any := any
    stream_timestamp := any
    stream_user := length_stream_groups h .user
    stream_item := length_stream_groups h .item
    cut time := by
      rw [h.region]
      exact Nat.mul_le_mul_right _ (archive.countBefore_le time)
    window stamped time := by
      rcases UInt64.lt_or_le time archive.cutoff with earlier | later
      · exact ⟨_, window_eq_ok_iff.2 ⟨stamped, .inr ⟨earlier, rfl⟩⟩⟩
      · exact ⟨_, window_eq_ok_iff.2 ⟨stamped, .inl ⟨later, rfl⟩⟩⟩
    serialize := ⟨archive.wire, serialize_eq h⟩ }

theorem WellFormed.fits (h : archive.WellFormed) : archive.Fits where
  countBefore := archive.toNat_countBefore
  run side entry mem limit := by
    apply UInt32.toNat_ofNat_of_lt'
    exact Nat.lt_of_le_of_lt (List.length_take_le' _ _) ((h.countable side).slots_lt entry mem)
  keys side := UInt32.toNat_ofNat_of_lt' (h.countable side).entries_lt
  place _ inside := archive.slot?_ratings inside
  region := UInt64.toNat_ofNat_of_lt' h.length_region_lt

/-! ## Archives that a reader accepts -/

/-- An archive that was opened, verified or not, or that came by a stream. -/
inductive Accepted (archive : Archive) : Prop where
  | opened {file : File} {verified : Bool} (opened : ofFile file verified = .ok archive)
  | received {source : Source} (received : ofSource source = .ok archive)

/-- What is accepted is well formed. -/
theorem Accepted.wellFormed (h : archive.Accepted) : archive.WellFormed := by
  cases h with
  | opened opened => exact wellFormed_of_ofFile opened
  | received received => exact (arrives_of_ofSource received).toWellFormed

/-- An archive has another as a window. -/
def Cuts (archive view : Archive) : Prop := ∃ time, archive.window time = .ok view

/-- One archive holds the first records of another. -/
structure Begins (view archive : Archive) : Prop where
  limit_le : view.limit ≤ archive.limit
  region : view.region <+: archive.region
  ratings : view.ratings.toList <+: archive.ratings.toList

/-- **A window** holds the first records of an archive, whatever the order of its records. -/
theorem WellFormed.begins_window (h : archive.WellFormed) (cut : archive.Cuts view) :
    view.Begins archive := by
  obtain ⟨time, cut⟩ := cut
  obtain ⟨-, ⟨-, rfl⟩ | ⟨-, rfl⟩⟩ := window_eq_ok_iff.1 cut
  · exact ⟨UInt32.le_refl _, List.prefix_refl _, List.prefix_refl _⟩
  · obtain ⟨records, reads⟩ := h.exists_reads
    have le := archive.countBefore_le_limit time
    refine ⟨le, List.take_prefix _ _, ?_⟩
    have few := UInt32.le_iff_toNat_le.1 le
    rw [reads.limit] at few
    rw [(reads.restrict few time).toList_ratings, reads.toList_ratings]
    exact List.take_prefix _ _

theorem within_of_cuts (cut : archive.Cuts view) {side : Side} {whole : IndexTable}
    (within : (archive.table side).Within whole) : (view.table side).Within whole := by
  obtain ⟨time, cut⟩ := cut
  obtain ⟨-, ⟨-, rfl⟩ | ⟨-, rfl⟩⟩ := window_eq_ok_iff.1 cut
  · exact within
  · rw [table_restrict]
    exact within.below _

/-- **One window** keeps an archive well formed, and leaves its runs where they are. -/
theorem views_inv (well : start.WellFormed) (views : Relation.ReflTransGen Cuts start view) :
    view.WellFormed ∧ ∀ side, (view.table side).Within (start.table side) := by
  induction views with
  | refl => exact ⟨well, fun side => (start.table side).within_self⟩
  | tail _ cut ih =>
    obtain ⟨well, within⟩ := ih
    refine ⟨?_, fun side => within_of_cuts cut (within side)⟩
    obtain ⟨time, cut⟩ := cut
    exact well.window cut

/-- Two records against the order of their timestamps, with an index of users that lists the first
one twice and the second one never. -/
def unsorted : Image where
  header := ⟨.timestamped, 2, 2, 1⟩
  records := Format.timestamped.region [⟨1, 7, ⟨0⟩, some 9⟩, ⟨2, 7, ⟨1⟩, some 4⟩]
  users := ⟨[⟨1, [0]⟩, ⟨2, [0]⟩]⟩
  items := ⟨[⟨7, [0, 1]⟩]⟩
  trailing := []

theorem wellFormed_unsorted : unsorted.WellFormed where
  header := ⟨rfl, by decide, by decide, by decide⟩
  records := by
    rw [unsorted, Format.length_region]
    rfl
  users := by
    refine ⟨ordered_cons.2 ⟨by decide, ⟨by decide, by decide⟩, ?_⟩, ⟨by decide, by decide⟩, rfl⟩
    exact ordered_cons.2 ⟨by decide, ⟨by decide, by decide⟩, ordered_nil⟩
  items := by
    refine ⟨ordered_cons.2 ⟨by decide, ⟨by decide, by decide⟩, ordered_nil⟩, ⟨by decide, by decide⟩,
      rfl⟩

/-- **Nothing that is accepted leads out of bounds.** -/
theorem views_inBounds (accepted : start.Accepted)
    (views : Relation.ReflTransGen Cuts start view) :
    view.InBounds ∧ view.Fits ∧ (∀ side, (view.table side).Within (start.table side)) ∧
      ∀ next, view.Cuts next → next.Begins view := by
  obtain ⟨well, within⟩ := views_inv accepted.wellFormed views
  exact ⟨well.inBounds, well.fits, within, fun next cut => well.begins_window cut⟩

/-- What opens without verification can be cut down, and stays within bounds. -/
theorem views_inBounds_unsorted :
    ∃ start view : Archive, ofBytes unsorted.bytes false = .ok start ∧
      start.window 5 = .ok view ∧ view.InBounds := by
  have opened : ofBytes unsorted.bytes false = .ok (whole unsorted (.inMemory unsorted.bytes)) :=
    ofFile_eq_ok_iff.2 ⟨unsorted, Image.parse_eq_ok_iff.2 ⟨wellFormed_unsorted, rfl⟩, rfl, nofun,
      rfl⟩
  obtain ⟨safe, -⟩ := views_inBounds (.opened opened) .refl
  obtain ⟨view, cut⟩ := safe.window rfl 5
  obtain ⟨safe, -⟩ := views_inBounds (.opened opened) (.single ⟨5, cut⟩)
  exact ⟨_, view, opened, cut, safe⟩

end RatingArchive.Archive

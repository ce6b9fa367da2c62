import RatingArchive.Proofs.Lists
import RatingArchive.Proofs.Reachable
/-!
# Groups are the records with a key

The index of an archive lists the slots of every key in the order of the records, so that the
ratings of a key are the records with the key (`Archive.Shows.filterMap_slots`). Everything that an
archive answers by key follows from that, for users and for items alike: `Archive.GroupsBy` says
what it has to answer, and `Archive.groupsBy_ratings` that genuine archives do, after any windows
and any transport.

A stream grouped by one side puts the groups one after the other. That is the merge sort of the
records by the key, which leaves ratings of one key in the order that they have
(`flatMap_filter_eq_mergeSort`).
-/

namespace RatingArchive

/-! ## Lists that are cut by keys -/

/-- Ascending places that are those of the elements with a property pick these elements. -/
theorem filterMap_getElem?_of_mem_iff {α : Type} {xs : List α} {p : α → Bool} {places : List Nat}
    (ascending : places.Pairwise (· < ·))
    (mem_iff : ∀ i, i ∈ places ↔ ∃ x, xs[i]? = some x ∧ p x = true) :
    places.filterMap (xs[·]?) = xs.filter p := by
  have all : places = (List.range xs.length).filter fun i => xs[i]?.any p := by
    apply ascending.eq_of_mem_iff (List.pairwise_lt_range.filter _)
    intro i
    rw [mem_iff, List.mem_filter, List.mem_range, Option.any_eq_true]
    constructor
    · rintro ⟨x, place, kept⟩
      exact ⟨(List.getElem?_eq_some_iff.1 place).1, x, place, kept⟩
    · rintro ⟨-, x, place, kept⟩
      exact ⟨x, place, kept⟩
  conv => rhs; rw [← filterMap_getElem?_range xs, List.filter_filterMap]
  rw [all, List.filterMap_filter]
  apply List.filterMap_congr
  intro i _
  cases xs[i]? with
  | none => rfl
  | some x => simp [Option.filter]

section

variable {α : Type} {key : α → UInt64}

/-- Elements in ascending order of their keys begin with those of the least key. -/
theorem filter_append_filter_of_le {least : UInt64} {xs : List α}
    (sorted : xs.Pairwise fun a b => key a ≤ key b) (le : ∀ x ∈ xs, least ≤ key x) :
    xs.filter (key · = least) ++ xs.filter (key · ≠ least) = xs := by
  induction xs with
  | nil => rfl
  | cons x xs ih =>
    obtain ⟨first, sorted⟩ := List.pairwise_cons.1 sorted
    obtain ⟨here, le⟩ := List.forall_mem_cons.1 le
    by_cases equal : key x = least
    · simp only [List.filter_cons, equal]
      simpa using ih sorted le
    · have later : ∀ y ∈ xs, key y ≠ least := by
        intro y hy same
        exact equal (UInt64.le_antisymm (same ▸ first y hy) here)
      have none : xs.filter (key · = least) = [] := by
        rw [List.filter_eq_nil_iff]
        intro y hy
        simpa using later y hy
      simpa [equal, none] using later

/-- **Elements in ascending order of their keys** are those of the first key, followed by those of
the next one, and so on. -/
theorem flatMap_filter_of_ascending {keys : List UInt64} (ascending : keys.Pairwise (· < ·))
    {xs : List α} (sorted : xs.Pairwise fun a b => key a ≤ key b) (mem : ∀ x ∈ xs, key x ∈ keys) :
    keys.flatMap (fun k => xs.filter (key · = k)) = xs := by
  induction keys generalizing xs with
  | nil =>
    rw [List.eq_nil_iff_forall_not_mem.2 fun x hx => List.not_mem_nil (mem x hx)]
    rfl
  | cons least keys ih =>
    obtain ⟨first, ascending⟩ := List.pairwise_cons.1 ascending
    have le : ∀ x ∈ xs, least ≤ key x := by
      intro x hx
      rcases List.mem_cons.1 (mem x hx) with same | later
      · exact UInt64.le_of_eq same.symm
      · exact UInt64.le_of_lt (first _ later)
    have rest := ih ascending (sorted.filter (key · ≠ least)) (by
      intro x hx
      obtain ⟨hx, other⟩ := List.mem_filter.1 hx
      exact (List.mem_cons.1 (mem x hx)).resolve_left (of_decide_eq_true other))
    have same : keys.flatMap (fun k => (xs.filter (key · ≠ least)).filter (key · = k)) =
        keys.flatMap fun k => xs.filter (key · = k) := by
      apply List.flatMap_congr
      intro k hk
      rw [List.filter_filter]
      apply List.filter_congr
      intro x _
      have differs := UInt64.ne_of_lt (first k hk)
      grind
    rw [List.flatMap_cons, ← same, rest, filter_append_filter_of_le sorted le]

/-- Putting together the elements of each key, keys ascending, sorts by the key. -/
theorem flatMap_filter_eq_mergeSort {keys : List UInt64} (ascending : keys.Pairwise (· < ·))
    {xs : List α} (mem : ∀ x ∈ xs, key x ∈ keys) :
    keys.flatMap (fun k => xs.filter (key · = k)) = xs.mergeSort fun a b => key a ≤ key b := by
  have trans (a b c : α) (ab : decide (key a ≤ key b) = true)
      (bc : decide (key b ≤ key c) = true) : decide (key a ≤ key c) = true :=
    decide_eq_true (UInt64.le_trans (of_decide_eq_true ab) (of_decide_eq_true bc))
  have total (a b : α) : (decide (key a ≤ key b) || decide (key b ≤ key a)) = true := by
    simpa using UInt64.le_total (key a) (key b)
  have sorted := (List.pairwise_mergeSort trans total xs).imp of_decide_eq_true
  have stable (k : UInt64) : (xs.mergeSort fun a b => key a ≤ key b).filter (key · = k) =
      xs.filter (key · = k) := by
    apply filter_mergeSort trans total
    intro a b ha hb
    rw [of_decide_eq_true ha, of_decide_eq_true hb]
    exact decide_eq_true (UInt64.le_refl k)
  simp only [← stable]
  apply flatMap_filter_of_ascending ascending sorted
  intro x hx
  exact mem x (List.mem_mergeSort.1 hx)

end

/-! ## Groups of an archive -/

/-- The order of a stream that is grouped by a side. -/
def Side.order : Side → SortOrder
  | user => .user
  | item => .item

/-- A group has the ratings with its key, in the order of the records. -/
structure Group.Collects (group : Group) (records : List Rating) : Prop where
  ascending : group.ratings.slots.toList.Pairwise (· < ·)
  mem_slots_iff : ∀ slot, slot ∈ group.ratings.slots.toList ↔
    keyAt? group.side records slot.toNat = some group.key
  get?_eq : ∀ i, group.ratings.get? i =
    (group.ratings.slot? i).bind fun slot => records[slot.toNat]?
  toList_eq : group.ratings.toList = records.filter (·.key group.side = group.key)

namespace Archive

/-- By the keys of one side, an archive answers as its records ask for. -/
structure GroupsBy (archive : Archive) (side : Side) (records : List Rating) : Prop where
  keys_ascending : (archive.keys side).Pairwise (· < ·)
  mem_keys_iff : ∀ key, key ∈ archive.keys side ↔ ∃ rating ∈ records, rating.key side = key
  group?_eq_none_iff : ∀ key,
    archive.group? side key = none ↔ ∀ rating ∈ records, rating.key side ≠ key
  group?_eq_some : ∀ key group, archive.group? side key = some group →
    group.side = side ∧ group.key = key ∧ group.Collects records
  counterparts?_eq_none_iff : ∀ key,
    archive.counterparts? side key = none ↔ ∀ rating ∈ records, rating.key side ≠ key
  counterparts?_eq_some : ∀ key set, archive.counterparts? side key = some set →
    set.Pairwise (· < ·) ∧ ∀ other, other ∈ set ↔
      ∃ rating ∈ records.filter (·.key side = key), rating.key side.other = other
  groups_eq : archive.groups side = (archive.keys side).filterMap (archive.group? side)
  stream_eq : archive.stream side.order =
    records.mergeSort fun a b => a.key side ≤ b.key side

variable {archive : Archive} {records : List Rating}

theorem stream_order (archive : Archive) (side : Side) :
    archive.stream side.order = (archive.groups side).flatMap (·.ratings.toList) := by
  cases side <;> rfl

/-- What is asked for by the key of an entry is the group of the entry. -/
theorem group?_key {side : Side} (ordered : Ordered (archive.table side).entries) {entry : Entry}
    (mem : entry ∈ (archive.table side).entries) :
    archive.group? side entry.key = some (archive.groupOf side entry) := by
  rw [group?, (slots?_eq_some_iff ordered).2 mem, Option.map_some]

/-- The groups are what is asked for by one key after the other. -/
theorem map_some_groups {side : Side} (ordered : Ordered (archive.table side).entries) :
    (archive.groups side).map some = (archive.keys side).map (archive.group? side) := by
  rw [groups, keys, IndexTable.keys, List.map_map, List.map_map]
  apply List.map_congr_left
  intro entry mem
  exact (group?_key ordered mem).symm

theorem groups_eq_filterMap {side : Side} (ordered : Ordered (archive.table side).entries) :
    archive.groups side = (archive.keys side).filterMap (archive.group? side) := by
  calc archive.groups side
      = ((archive.groups side).map some).filterMap id := by
        rw [List.filterMap_map, Function.id_comp, List.filterMap_some]
    _ = (archive.keys side).filterMap (archive.group? side) := by
        rw [map_some_groups ordered, List.filterMap_map, Function.id_comp]

namespace Shows

theorem mem_keys_iff (h : archive.Shows records) (side : Side) {key : UInt64} :
    key ∈ archive.keys side ↔ ∃ rating ∈ records, rating.key side = key := by
  have perm := (IndexTable.perm_ofRatings side records).map Entry.key
  rw [keys, h.table side, IndexTable.keys, perm.mem_iff, mem_keys_notes, List.mem_map]

/-- The run of a key are the slots of the records with the key. -/
theorem mem_slots_iff (h : archive.Shows records) (side : Side) {entry : Entry}
    (mem : entry ∈ (archive.table side).entries) {slot : UInt32} :
    slot ∈ entry.slots ↔ keyAt? side records slot.toNat = some entry.key := by
  rw [← h.lists_iff side, (h.ordered side).lists_key_iff mem]

/-- **The records at the slots of a key** are those with the key. -/
theorem filterMap_slots (h : archive.Shows records) (side : Side) {entry : Entry}
    (mem : entry ∈ (archive.table side).entries) :
    (entry.slots.filterMap fun slot => records[slot.toNat]?) =
      records.filter (·.key side = entry.key) := by
  have ascending : (entry.slots.map UInt32.toNat).Pairwise (· < ·) :=
    List.pairwise_map.2 (((h.ordered side).runs entry mem).ascending.imp UInt32.lt_iff_toNat_lt.1)
  rw [← filterMap_getElem?_of_mem_iff ascending, List.filterMap_map]
  · rfl
  · intro i
    rw [List.mem_map]
    constructor
    · rintro ⟨slot, listed, rfl⟩
      obtain ⟨rating, place, key⟩ := Option.map_eq_some_iff.1 ((h.mem_slots_iff side mem).1 listed)
      exact ⟨rating, place, decide_eq_true key⟩
    · rintro ⟨rating, place, key⟩
      have inside := (List.getElem?_eq_some_iff.1 place).1
      have slot : (UInt32.ofNat i).toNat = i :=
        UInt32.toNat_ofNat_of_lt' (Nat.lt_trans inside (lt_size_of_small h.small))
      refine ⟨UInt32.ofNat i, (h.mem_slots_iff side mem).2 ?_, slot⟩
      rw [slot, keyAt?, place, Option.map_some, of_decide_eq_true key]

theorem collects (h : archive.Shows records) (side : Side) {entry : Entry}
    (mem : entry ∈ (archive.table side).entries) :
    (archive.groupOf side entry).Collects records where
  ascending := by
    rw [ratings_groupOf]
    simp only [ratingsAt, Slots.toList_run]
    exact ((h.ordered side).runs entry mem).ascending
  mem_slots_iff slot := by
    rw [ratings_groupOf]
    simp only [ratingsAt, Slots.toList_run]
    exact h.mem_slots_iff side mem
  get?_eq := h.get?_ratingsAt _
  toList_eq := by
    rw [ratings_groupOf, h.toList_ratingsAt, Slots.toList_run]
    exact h.filterMap_slots side mem

theorem toList_groupOf (h : archive.Shows records) (side : Side) {entry : Entry}
    (mem : entry ∈ (archive.table side).entries) :
    (archive.groupOf side entry).ratings.toList = records.filter (·.key side = entry.key) :=
  (h.collects side mem).toList_eq

/-- The keys that are read on their own are those of the records. -/
theorem filterMap_key? (h : archive.Shows records) (side : Side) {entry : Entry}
    (mem : entry ∈ (archive.table side).entries) (other : Side) :
    (entry.slots.filterMap fun slot => archive.format.key? archive.region slot.toNat other) =
      (records.filter (·.key side = entry.key)).map (·.key other) := by
  rw [← h.toList_groupOf side mem, ratings_groupOf]
  apply h.toReads.filterMap_key?
  intro slot listed
  exact (h.covers side).below entry.key slot ⟨entry, mem, rfl, listed⟩

/-- A key without records has no slots. -/
theorem slots?_eq_none_iff (h : archive.Shows records) (side : Side) {key : UInt64} :
    (archive.table side).slots? key = none ↔ ∀ rating ∈ records, rating.key side ≠ key := by
  have keys : key ∈ (archive.table side).keys ↔ _ := h.mem_keys_iff side
  rw [RatingArchive.slots?_eq_none_iff (h.ordered side), keys]
  simp only [not_exists, not_and, ne_eq]

/-- **What is shown is grouped** by either side. -/
theorem groupsBy (h : archive.Shows records) (side : Side) : archive.GroupsBy side records where
  keys_ascending := List.pairwise_map.2 (h.ordered side).keys
  mem_keys_iff _ := h.mem_keys_iff side
  group?_eq_none_iff key := by
    rw [group?, Option.map_eq_none_iff, h.slots?_eq_none_iff]
  group?_eq_some key group found := by
    obtain ⟨slots, listed, rfl⟩ := Option.map_eq_some_iff.1 found
    exact ⟨rfl, rfl, h.collects side ((slots?_eq_some_iff (h.ordered side)).1 listed)⟩
  counterparts?_eq_none_iff key := by
    rw [counterparts?, Option.map_eq_none_iff, h.slots?_eq_none_iff]
  counterparts?_eq_some key set found := by
    obtain ⟨slots, listed, rfl⟩ := Option.map_eq_some_iff.1 found
    rw [h.filterMap_key? side ((slots?_eq_some_iff (h.ordered side)).1 listed)]
    refine ⟨KeySet.pairwise_ofList _, ?_⟩
    intro other
    rw [KeySet.mem_ofList, List.mem_map]
  groups_eq := groups_eq_filterMap (h.ordered side)
  stream_eq := by
    have collected : (archive.groups side).flatMap (·.ratings.toList) =
        (archive.keys side).flatMap fun key => records.filter (·.key side = key) := by
      rw [groups, keys, IndexTable.keys, List.flatMap_map, List.flatMap_map]
      apply List.flatMap_congr
      intro entry mem
      exact h.toList_groupOf side mem
    rw [stream_order, collected]
    apply flatMap_filter_eq_mergeSort (List.pairwise_map.2 (h.ordered side).keys)
    intro rating mem
    exact (h.mem_keys_iff side).2 ⟨rating, mem, rfl⟩

end Shows

/-- **Archives group their records** by either side, also when they were cut down or sent through a
stream. -/
theorem groupsBy_ratings (h : Reachable archive) (side : Side) :
    archive.GroupsBy side archive.ratings.toList := by
  obtain ⟨records, shown, -⟩ := h.exists_shows
  rw [shown.toList_ratings]
  exact shown.groupsBy side

/-- Two ratings by different users, and what is left of them when the later one is cut off. -/
theorem groupsBy_ratings_two :
    ∃ archive view : Archive, archive.Genuine ∧ archive.window 5 = .ok view ∧
      (∀ side, archive.GroupsBy side [⟨2, 7, ⟨1⟩, some 4⟩, ⟨1, 7, ⟨0⟩, some 9⟩]) ∧
      ∀ side, view.GroupsBy side [⟨2, 7, ⟨1⟩, some 4⟩] := by
  obtain ⟨archive, view, genuine, cut, shown, left⟩ := exists_window Format.holds_two 5
  refine ⟨archive, view, genuine, cut, ?_, ?_⟩
  · intro side
    rw [← shown.toList_ratings]
    exact groupsBy_ratings (.genuine genuine) side
  · intro side
    have grouped := groupsBy_ratings (.window (.genuine genuine) cut) side
    rw [left.toList_ratings] at grouped
    exact grouped

end Archive

end RatingArchive

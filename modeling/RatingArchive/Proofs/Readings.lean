import RatingArchive.Proofs.Bounds
import RatingArchive.Proofs.Grouping
/-!
# Ways to read a list

A list of ratings can be asked for all ratings, for the one at a place, and for the first and the
last one. It can be walked through from its front, and from both ends at once. If its slots are
those of records, all of these tell of the same ratings (`RatingList.ReadsAlike`), and it is the
same as another list if and only if their ratings are, be they at a range of slots or at the run of
a key.

Such are the lists that an archive lends (`Archive.Lends`), whatever the order of its records and
the keys under which they are listed (`Archive.WellFormed.stored_of_lends`).
-/

namespace RatingArchive

namespace RatingList

variable {list : RatingList}

/-- What a step takes off one end after some earlier steps: as many ratings are gone from either end
as there were steps there, until no rating is left. -/
def atEnd (list : RatingList) (earlier : List Bool) (fromFront : Bool) : Option Rating :=
  if earlier.length < list.length then
    list.get? (if fromFront then earlier.count true else list.length - 1 - earlier.count false)
  else none

/-- All ways to read a list tell of the same ratings. -/
structure ReadsAlike (list : RatingList) : Prop where
  get?_eq_none_iff : ∀ i, list.get? i = none ↔ list.length ≤ i
  getElem?_toList : ∀ i, list.toList[i]? = list.get? i
  first? : list.first? = list.toList.head?
  last? : list.last? = list.toList.getLast?
  walks : Walks Place.next Place.remaining list.start list.toList
  remaining_cursor : list.cursor.remaining = list.length
  getElem?_walk : ∀ moves i, (list.cursor.walk moves)[i]? =
    moves[i]?.map fun fromFront => (list.atEnd (moves.take i) fromFront, list.length - (i + 1))
  exists_left : ∀ moves, ∃ left, left.length = list.length - moves.length ∧
    list.toList = Cursor.taken true moves (list.cursor.walk moves) ++
      (left ++ (Cursor.taken false moves (list.cursor.walk moves)).reverse)

theorem getElem?_walk_cursor (list : RatingList) (moves : List Bool) (i : Nat) :
    (list.cursor.walk moves)[i]? =
      moves[i]?.map fun fromFront =>
        (list.atEnd (moves.take i) fromFront, list.length - (i + 1)) := by
  rw [Cursor.getElem?_walk]
  by_cases made : i < moves.length
  · have earlier : (moves.take i).length = i := List.length_take_of_le (Nat.le_of_lt made)
    simp only [atEnd, earlier, Cursor.place, Cursor.remaining, cursor, Nat.zero_add, Nat.sub_zero]
  · rw [List.getElem?_eq_none (Nat.le_of_not_lt made)]
    rfl

theorem Filled.inside_cursor (h : list.Filled) : list.cursor.Inside := ⟨Nat.le_refl _, h⟩

theorem Filled.between_cursor (h : list.Filled) : list.cursor.between = list.toList := by
  show (list.toList.take list.length).drop 0 = list.toList
  rw [List.drop_zero, List.take_of_length_le (Nat.le_of_eq h.length_toList)]

/-- **All ways to read a list** of slots of records tell of the same ratings. -/
theorem Stored.readsAlike (h : list.Stored) : list.ReadsAlike where
  get?_eq_none_iff := h.filled.get?_eq_none_iff
  getElem?_toList := h.filled.getElem?_toList
  first? := h.filled.first?_eq
  last? := h.filled.last?_eq
  walks := h.filled.walks_start
  remaining_cursor := rfl
  getElem?_walk := list.getElem?_walk_cursor
  exists_left moves := by
    rw [← h.filled.between_cursor]
    exact h.filled.inside_cursor.exists_between moves

end RatingList

namespace Archive

variable {archive : Archive} {list : RatingList}

/-- The lists that an archive lends: that of all ratings, and those of the groups that are asked for
or walked through. -/
inductive Lends (archive : Archive) : RatingList → Prop
  | ratings : archive.Lends archive.ratings
  | asked {side : Side} {key : UInt64} {group : Group}
      (found : archive.group? side key = some group) : archive.Lends group.ratings
  | passed {side : Side} {group : Group} (mem : group ∈ archive.groups side) :
      archive.Lends group.ratings

theorem WellFormed.stored_of_lends (h : archive.WellFormed) (lent : archive.Lends list) :
    list.Stored := by
  cases lent with
  | ratings => exact h.inBounds.ratings.slot?
  | asked found => exact (h.inBounds.group? _ _ _ found).slot?
  | passed mem =>
    obtain ⟨entry, listed, rfl⟩ := List.mem_map.1 mem
    exact (h.readable_groupOf _ listed).slot?

/-- **Lists are read alike in all ways**, and are the same if and only if their ratings are. This
holds for all lists of slots of records, and archives lend no others. -/
theorem lists_read_alike :
    (∀ list : RatingList, list.Stored → list.ReadsAlike) ∧
    (∀ list other : RatingList, list.Stored → other.Stored →
      (list.same other = true ↔ list.toList = other.toList)) ∧
    ∀ start view : Archive, start.Accepted → Relation.ReflTransGen Cuts start view →
      ∀ list, view.Lends list → list.Stored := by
  refine ⟨fun list stored => stored.readsAlike, ?_, ?_⟩
  · intro list other stored stored'
    exact stored.filled.same_iff stored'.filled
  · intro start view accepted views list lent
    exact (views_inv accepted.wellFormed views).1.stored_of_lends lent

theorem ofBytes_unsorted :
    ofBytes unsorted.bytes false = .ok (whole unsorted (.inMemory unsorted.bytes)) :=
  ofFile_eq_ok_iff.2
    ⟨unsorted, Image.parse_eq_ok_iff.2 ⟨wellFormed_unsorted, rfl⟩, rfl, nofun, rfl⟩

/-- The ratings of an archive and those of its only item are the same list, and the steps of a walk
meet in it. -/
theorem lists_read_alike_unsorted :
    ∃ archive : Archive, ∃ group : Group, ofBytes unsorted.bytes false = .ok archive ∧
      archive.group? .item 7 = some group ∧ archive.ratings.same group.ratings = true ∧
      group.ratings.cursor.walk [false, true, false] =
        [(some ⟨2, 7, ⟨1⟩, some 4⟩, 1), (some ⟨1, 7, ⟨0⟩, some 9⟩, 0), (none, 0)] := by
  obtain ⟨alike, same, stored⟩ := lists_read_alike
  have opened := ofBytes_unsorted
  have found : (whole unsorted (.inMemory unsorted.bytes)).group? .item 7 =
      some (groupOf (whole unsorted (.inMemory unsorted.bytes)) .item ⟨7, [0, 1]⟩) :=
    group?_key ((wellFormed_of_ofFile opened).ordered .item) (List.mem_singleton.2 rfl)
  have all := stored _ _ (.opened opened) .refl _ .ratings
  have one := stored _ _ (.opened opened) .refl _ (.asked found)
  refine ⟨_, _, opened, found, (same _ _ all one).2 (by decide +kernel), ?_⟩
  apply List.ext_getElem?
  intro i
  rw [(alike _ one).getElem?_walk]
  obtain _ | _ | _ | i := i
  · decide +kernel
  · decide +kernel
  · decide +kernel
  · rfl

end Archive

end RatingArchive

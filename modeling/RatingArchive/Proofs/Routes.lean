import RatingArchive.Archive.Source
import RatingArchive.Proofs.Readings
/-!
# Routes to the same ratings

The ratings of a user can be asked for, passed on a walk through all groups, or picked out of a
stream. The items among them can be read off the ratings, or off the records on their own. All
routes lead to the same answers (`Archive.RoutesAgree`). They do so on whatever an archive was read
from (`Archive.WellFormed.routesAgree`): that its groups are the records with their keys is not
assumed here.
-/

namespace RatingArchive

namespace Archive

variable {archive start view : Archive}

/-- All routes to the ratings of one side lead to the same ones. -/
structure RoutesAgree (archive : Archive) (side : Side) : Prop where
  walks : Walks GroupCursor.next GroupCursor.remaining (archive.startGroups side)
    (archive.groups side)
  keys : (archive.groups side).map Group.key = archive.keys side
  groups : (archive.groups side).map some = (archive.keys side).map (archive.group? side)
  group?_eq_none_iff : ∀ key, archive.group? side key = none ↔ key ∉ archive.keys side
  stream : archive.stream side.order =
    ((archive.keys side).filterMap (archive.group? side)).flatMap (·.ratings.toList)
  counterparts? : ∀ key,
    archive.counterparts? side key = (archive.group? side key).map Group.counterparts
  counterparts?_eq_none_iff : ∀ key,
    archive.counterparts? side key = none ↔ archive.group? side key = none
  counterparts : ∀ group ∈ archive.groups side, group.counterparts.Pairwise (· < ·) ∧
    ∀ key, key ∈ group.counterparts ↔ ∃ rating ∈ group.ratings.toList, rating.key side.other = key
  length : ∀ group ∈ archive.groups side, group.ratings.toList.length = group.length
  ratings : ∀ group ∈ archive.groups side, ∀ i rating, group.ratings.toList[i]? = some rating →
    group.ratings.get? i = some rating ∧
      ∃ slot, group.ratings.slot? i = some slot ∧ archive.ratings.slot? slot.toNat = some slot ∧
        archive.ratings.get? slot.toNat = some rating

/-- The list of all ratings has each slot at its own place. -/
theorem slot?_ratings_toNat {slot : UInt32} (lt : slot < archive.limit) :
    archive.ratings.slot? slot.toNat = some slot := by
  obtain ⟨other, place, same⟩ := archive.slot?_ratings (UInt32.lt_iff_toNat_lt.1 lt)
  rwa [UInt32.toNat_inj.1 same] at place

namespace WellFormed

/-- Reading keys on their own leads to the same set as reading the ratings. -/
theorem counterparts?_eq (h : archive.WellFormed) (side : Side) (key : UInt64) :
    archive.counterparts? side key = (archive.group? side key).map Group.counterparts := by
  obtain ⟨records, reads⟩ := h.exists_reads
  rw [Archive.counterparts?, group?, Option.map_map]
  apply Option.map_congr
  intro slots found
  have mem := (slots?_eq_some_iff (h.ordered side)).1 found
  rw [reads.filterMap_key? (fun slot listed => h.slot_lt side mem listed)]
  rfl

/-- A rating of a group is the one that the archive has at the slot that the group names. -/
theorem exists_slot (h : archive.WellFormed) {side : Side} {entry : Entry}
    (mem : entry ∈ (archive.table side).entries) {i : Nat} {rating : Rating}
    (found : (archive.groupOf side entry).ratings.get? i = some rating) :
    ∃ slot, (archive.groupOf side entry).ratings.slot? i = some slot ∧
      archive.ratings.slot? slot.toNat = some slot ∧
      archive.ratings.get? slot.toNat = some rating := by
  obtain ⟨slot, place, read⟩ := Option.bind_eq_some_iff.1 found
  -- both lists read the record of one slot, which has a place of its own among all
  have own := slot?_ratings_toNat (h.slot_lt side mem (List.mem_of_getElem? place))
  exact ⟨slot, place, own, Option.bind_eq_some_iff.2 ⟨slot, own, read⟩⟩

/-- **All routes lead to the same ratings** in a well-formed archive. -/
theorem routesAgree (h : archive.WellFormed) (side : Side) : archive.RoutesAgree side where
  walks := archive.walks_startGroups side
  keys := List.map_map
  groups := map_some_groups (h.ordered side)
  group?_eq_none_iff key := by
    rw [group?, Option.map_eq_none_iff, slots?_eq_none_iff (h.ordered side)]
    rfl
  stream := by
    rw [stream_order, ← groups_eq_filterMap (h.ordered side)]
  counterparts? := h.counterparts?_eq side
  counterparts?_eq_none_iff key := by
    rw [h.counterparts?_eq, Option.map_eq_none_iff]
  counterparts group mem := by
    obtain ⟨entry, -, rfl⟩ := List.mem_map.1 mem
    refine ⟨KeySet.pairwise_ofList _, ?_⟩
    intro key
    rw [Group.counterparts, KeySet.mem_ofList, List.mem_map]
    rfl
  length group mem := by
    obtain ⟨entry, listed, rfl⟩ := List.mem_map.1 mem
    exact (h.readable_groupOf side listed).toList
  ratings group mem i rating found := by
    obtain ⟨entry, listed, rfl⟩ := List.mem_map.1 mem
    have filled : (archive.groupOf side entry).ratings.Filled :=
      (h.readable_groupOf side listed).get?
    rw [filled.getElem?_toList] at found
    exact ⟨found, h.exists_slot listed found⟩

end WellFormed

/-- The users that any source would read off the ratings of an item are those of its group. -/
theorem raters_ratingsOfItem (archive : Archive) (item : UInt64) :
    raters (ItemSource.ratingsOfItem archive) item =
      (archive.group? .item item).map Group.counterparts := by
  change Option.map _ (Option.map _ (archive.group? .item item)) = _
  rw [group?, Option.map_map, Option.map_map, Option.map_map]
  rfl

/-- **All routes lead to the same ratings**, also if nothing is known of the order of the records
and of the keys under which they are listed. The users of an item are those that any source would read
off its ratings. -/
theorem routes_agree (accepted : start.Accepted) (views : Relation.ReflTransGen Cuts start view) :
    (∀ side, view.RoutesAgree side) ∧
    ∀ item, ItemSource.usersOfItem view item = view.counterparts? .item item ∧
      raters (ItemSource.ratingsOfItem view) item = view.counterparts? .item item := by
  have agree := (views_inv accepted.wellFormed views).1.routesAgree
  refine ⟨agree, fun item => ⟨rfl, ?_⟩⟩
  rw [raters_ratingsOfItem, (agree .item).counterparts?]

/-- The second user is listed with the record of the first one. All routes lead to that record. -/
theorem routes_agree_unsorted :
    ∃ start view : Archive, ofBytes unsorted.bytes false = .ok start ∧
      start.window 5 = .ok view ∧ view.keys .user = [1, 2] ∧
      view.stream .user = [⟨1, 7, ⟨0⟩, some 9⟩, ⟨1, 7, ⟨0⟩, some 9⟩] ∧
      raters (ItemSource.ratingsOfItem view) 7 = some [1, 2] := by
  have cut : (whole unsorted (.inMemory unsorted.bytes)).window 5 = .ok _ :=
    window_eq_ok_iff.2 ⟨rfl, .inr ⟨by decide, rfl⟩⟩
  obtain ⟨agree, byItem⟩ := routes_agree (.opened ofBytes_unsorted) (.single ⟨5, cut⟩)
  refine ⟨_, _, ofBytes_unsorted, cut, by decide +kernel, ?_, ?_⟩
  · exact (agree .user).stream.trans (by decide +kernel)
  · exact (byItem 7).2.trans (by decide +kernel)

end Archive

end RatingArchive

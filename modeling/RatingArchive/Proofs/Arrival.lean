import RatingArchive.Proofs.Grouping
/-!
# The order of arrival

An archive with timestamps has its ratings in the order of their timestamps, and those of one
timestamp in the order in which they arrived. It is put together from the ratings of each timestamp
(`SortedStably.eq_flatMap`), and so depends on nothing else about the order of arrival. As the bytes
of an archive determine its records (`arranged_eq_of_archiveOf_eq`), two lists are packed into the
same bytes if and only if they are permutations of each other that agree within each timestamp
(`packed_alike`).
-/

namespace RatingArchive

/-- Two lists have the same ratings, and have those of each timestamp in the same order. -/
structure AgreeByTime (ratings others : List Rating) : Prop where
  perm : ratings.Perm others
  order : ∀ time : UInt64,
    ratings.filter (·.timestamp = some time) = others.filter (·.timestamp = some time)

variable {ratings others sorted sorted' : List Rating}

theorem AgreeByTime.symm (h : AgreeByTime ratings others) : AgreeByTime others ratings :=
  ⟨h.perm.symm, fun time => (h.order time).symm⟩

/-! ## One arrangement -/

/-- **Ratings that are sorted stably** are those of the first timestamp, followed by those of the
next one, and so on. -/
theorem SortedStably.eq_flatMap (h : SortedStably ratings sorted)
    (stamped : ∀ rating ∈ ratings, rating.timestamp.isSome = true) {times : List UInt64}
    (ascending : times.Pairwise (· < ·))
    (mem : ∀ rating ∈ ratings, rating.timestamp.getD 0 ∈ times) :
    sorted = times.flatMap fun time => ratings.filter (·.timestamp = some time) := by
  have stamped' : ∀ rating ∈ sorted, rating.timestamp.isSome = true := fun rating mem =>
    stamped rating (h.perm.mem_iff.1 mem)
  have le : sorted.Pairwise fun a b => a.timestamp.getD 0 ≤ b.timestamp.getD 0 := by
    apply h.ascending.imp_of_mem
    intro a b ha hb
    exact (Rating.notLater_iff (stamped' a ha) (stamped' b hb)).1
  have parts (time : UInt64) : sorted.filter (·.timestamp.getD 0 = time) =
      ratings.filter (·.timestamp = some time) := by
    rw [← h.stable]
    apply List.filter_congr
    intro rating mem
    obtain ⟨own, present⟩ := Option.isSome_iff_exists.1 (stamped' rating mem)
    simp [present]
  simp only [← parts]
  symm
  apply flatMap_filter_of_ascending ascending le
  intro rating mem'
  exact mem rating (h.perm.mem_iff.1 mem')

/-- **There is one arrangement** of lists that agree by time. -/
theorem AgreeByTime.sorted_eq (agree : AgreeByTime ratings others)
    (stamped : ∀ rating ∈ ratings, rating.timestamp.isSome = true)
    (h : SortedStably ratings sorted) (h' : SortedStably others sorted') : sorted = sorted' := by
  let times := KeySet.ofList (ratings.map (·.timestamp.getD 0))
  have ascending : times.Pairwise (· < ·) := KeySet.pairwise_ofList _
  have mem (rating : Rating) (member : rating ∈ ratings) : rating.timestamp.getD 0 ∈ times :=
    KeySet.mem_ofList.2 (List.mem_map_of_mem member)
  have stamped' : ∀ rating ∈ others, rating.timestamp.isSome = true := fun rating member =>
    stamped rating (agree.perm.mem_iff.2 member)
  have mem' (rating : Rating) (member : rating ∈ others) : rating.timestamp.getD 0 ∈ times :=
    mem rating (agree.perm.mem_iff.2 member)
  rw [h.eq_flatMap stamped ascending mem, h'.eq_flatMap stamped' ascending mem']
  simp only [agree.order]

/-- Lists with one arrangement agree by time. -/
theorem AgreeByTime.of_sorted (h : SortedStably ratings sorted) (h' : SortedStably others sorted) :
    AgreeByTime ratings others where
  perm := h.perm.symm.trans h'.perm
  order time := by rw [← h.stable, ← h'.stable]

/-! ## What is packed -/

/-- **The bytes of an archive determine its records.** -/
theorem arranged_eq_of_archiveOf_eq {format : Format} (packable : Packable format ratings)
    (packable' : Packable format others)
    (same : archiveOf format ratings = archiveOf format others) :
    format.arranged ratings = format.arranged others := by
  have opened := Archive.ofBytes_archiveOf packable false
  have opened' := Archive.ofBytes_archiveOf packable' false
  rw [same] at opened
  have one := Except.ok.inj (opened.symm.trans opened')
  rw [← (Archive.shows_whole packable.holds _).toList_ratings, one,
    (Archive.shows_whole packable'.holds _).toList_ratings]

theorem packable_of_pack {image : Bytes} (packed : pack ratings .timestamped = .ok image) :
    Packable .timestamped ratings := by
  obtain ⟨small, admitted, -⟩ := pack_eq_ok_iff.1 packed
  exact ⟨.inr rfl, small, fun _ rating mem => admitted rating mem rfl⟩

theorem AgreeByTime.pack_eq (agree : AgreeByTime ratings others) {image : Bytes}
    (packed : pack ratings .timestamped = .ok image) : pack others .timestamped = .ok image := by
  have stamped := (packable_of_pack packed).stamped rfl
  obtain ⟨small, admitted, rfl⟩ := pack_eq_ok_iff.1 packed
  refine pack_eq_ok_iff.2 ⟨agree.perm.length_eq ▸ small, ?_, ?_⟩
  · intro rating mem
    exact admitted rating (agree.perm.mem_iff.2 mem)
  · have arranged : Format.arranged .timestamped ratings = Format.arranged .timestamped others :=
      agree.sorted_eq stamped (sortedStably_mergeSort ratings) (sortedStably_mergeSort others)
    rw [archiveOf, arranged, archiveOf]

/-- **Of the order of arrival** an archive keeps that within each timestamp, and no more: ratings
with timestamps are packed into the same bytes if they agree by time, and only then. -/
theorem packed_alike (stamped : ∀ rating ∈ ratings, rating.timestamp.isSome = true) :
    (AgreeByTime ratings others → ∀ image,
      pack ratings .timestamped = .ok image ↔ pack others .timestamped = .ok image) ∧
    (∀ image, pack ratings .timestamped = .ok image → pack others .timestamped = .ok image →
      AgreeByTime ratings others) ∧
    (ratings.length ≤ maxRatings → ∃ image, pack ratings .timestamped = .ok image) := by
  refine ⟨?_, ?_, ?_⟩
  · intro agree image
    exact ⟨agree.pack_eq, agree.symm.pack_eq⟩
  · intro image packed packed'
    have packable := packable_of_pack packed
    have packable' := packable_of_pack packed'
    obtain ⟨-, -, whole⟩ := pack_eq_ok_iff.1 packed
    obtain ⟨-, -, whole'⟩ := pack_eq_ok_iff.1 packed'
    have arranged : ratings.mergeSort Rating.notLater = others.mergeSort Rating.notLater :=
      arranged_eq_of_archiveOf_eq packable packable' (whole.symm.trans whole')
    exact .of_sorted (sortedStably_mergeSort ratings) (arranged ▸ sortedStably_mergeSort others)
  · intro small
    have packable : Packable .timestamped ratings := ⟨.inr rfl, small, fun _ => stamped⟩
    exact ⟨_, packable.pack_eq⟩

/-- Three ratings, of which the latest arrives first. -/
def latestFirst : List Rating := [⟨1, 7, ⟨0⟩, some 9⟩, ⟨2, 7, ⟨1⟩, some 4⟩, ⟨3, 8, ⟨2⟩, some 4⟩]

/-- The same ratings, of which the latest arrives last. -/
def latestLast : List Rating := [⟨2, 7, ⟨1⟩, some 4⟩, ⟨3, 8, ⟨2⟩, some 4⟩, ⟨1, 7, ⟨0⟩, some 9⟩]

theorem agreeByTime_latest : AgreeByTime latestFirst latestLast where
  perm := by decide
  order time := by
    by_cases late : 9 = time
    · subst late
      decide
    · by_cases early : 4 = time
      · subst early
        decide
      · simp [latestFirst, latestLast, late, early]

theorem packed_alike_latest :
    (∀ rating ∈ latestFirst, rating.timestamp.isSome = true) ∧
      ∃ image, pack latestFirst .timestamped = .ok image ∧
        pack latestLast .timestamped = .ok image := by
  have stamped : ∀ rating ∈ latestFirst, rating.timestamp.isSome = true := by decide
  obtain ⟨same, -, exists_image⟩ := @packed_alike _ latestLast stamped
  obtain ⟨image, packed⟩ := exists_image (by decide)
  exact ⟨stamped, image, packed, (same agreeByTime_latest image).1 packed⟩

end RatingArchive

import RatingArchive.RatingList
/-!
# Record regions

A region holds the records of its ratings one after the other (`Format.region`). All records of a
format have one size, so that a slot number finds its record, and the partial readers of a record
agree with the full one:

* `record?_region`, `key?_region`, `timestamp?_region`: what is read at a slot of a region.
* `take_region`: cutting a region at a slot cuts the list of its ratings.
* `exists_region`: every byte string of the right length is the region of ratings, which are as the
  format stores them.
-/

namespace RatingArchive

namespace Format

/-- A format takes every rating, unless it stores timestamps and the rating has none. -/
def Admits (format : Format) (rating : Rating) : Prop :=
  format.hasTimestamps = true → rating.timestamp.isSome = true

/-- The ratings that a format reads back as they are: those with a timestamp, or those without. -/
def Stores (format : Format) (rating : Rating) : Prop :=
  rating.timestamp.isSome = format.hasTimestamps

/-- The record of a rating that the format admits. -/
def record (format : Format) (rating : Rating) : Bytes :=
  word64 rating.user ++ word64 rating.item ++ word64 rating.value.bits ++
    if format.hasTimestamps then word64 (rating.timestamp.getD 0) else []

/-- The records of a list of ratings. -/
def region (format : Format) (ratings : List Rating) : Bytes := ratings.flatMap format.record

variable {format : Format} {rating : Rating} {ratings : List Rating}

theorem Stores.admits (h : format.Stores rating) : format.Admits rating := fun stamped =>
  h.trans stamped

theorem Stores.kept_eq (h : format.Stores rating) : format.kept rating = rating := by
  obtain ⟨user, item, value, timestamp⟩ := rating
  unfold Stores at h
  unfold kept
  split
  · rfl
  · next unstamped =>
    cases timestamp with
    | none => rfl
    | some time => simp_all

theorem Admits.stores_kept (h : format.Admits rating) : format.Stores (format.kept rating) := by
  unfold Stores kept
  split
  · next stamped => rw [h stamped, stamped]
  · next unstamped => simp [Rating.withoutTimestamp, unstamped]

@[simp] theorem key_kept (side : Side) : (format.kept rating).key side = rating.key side := by
  unfold kept
  split <;> cases side <;> rfl

/-! ## One record -/

theorem encode_of_admits (h : format.Admits rating) :
    format.encode rating = .ok (format.record rating) := by
  unfold encode record
  by_cases stamped : format.hasTimestamps = true
  · obtain ⟨time, present⟩ := Option.isSome_iff_exists.1 (h stamped)
    simp [stamped, present]
  · simp [stamped]

theorem length_record (format : Format) (rating : Rating) :
    (format.record rating).length = format.recordSize := by
  unfold record recordSize
  split <;> simp [baseSize]

theorem record_kept (format : Format) (rating : Rating) :
    format.record (format.kept rating) = format.record rating := by
  unfold record kept
  split <;> simp_all [Rating.withoutTimestamp]

/-- Every byte string of the size of a record is one. -/
theorem exists_record (format : Format) {bytes : Bytes} (h : bytes.length = format.recordSize) :
    ∃ rating, format.record rating = bytes ∧ format.Stores rating := by
  have word (start : Nat) (inside : start + 8 ≤ bytes.length) :
      word64 (ofWord64 ((bytes.drop start).take 8)) = (bytes.drop start).take 8 :=
    word64_ofWord64 (by rw [List.length_take, List.length_drop]; omega)
  have cut (start : Nat) : (bytes.drop start).take 8 ++ bytes.drop (start + 8) =
      bytes.drop start := by
    rw [← List.drop_drop, List.take_append_drop]
  unfold recordSize at h
  by_cases stamped : format.hasTimestamps = true
  · rw [if_pos stamped, baseSize] at h
    refine ⟨⟨ofWord64 ((bytes.drop 0).take 8), ofWord64 ((bytes.drop 8).take 8),
      ⟨ofWord64 ((bytes.drop 16).take 8)⟩, some (ofWord64 ((bytes.drop 24).take 8))⟩, ?_, ?_⟩
    · rw [record, if_pos stamped]
      simp only [Option.getD_some]
      rw [word 0 (by omega), word 8 (by omega), word 16 (by omega), word 24 (by omega)]
      have whole : bytes.drop 32 = [] := List.drop_eq_nil_of_le (by omega)
      have last := cut 24
      rw [whole, List.append_nil] at last
      rw [last, List.append_assoc, cut 16, List.append_assoc, cut 8, cut 0, List.drop_zero]
    · exact stamped.symm
  · rw [if_neg stamped, baseSize] at h
    refine ⟨⟨ofWord64 ((bytes.drop 0).take 8), ofWord64 ((bytes.drop 8).take 8),
      ⟨ofWord64 ((bytes.drop 16).take 8)⟩, none⟩, ?_, ?_⟩
    · rw [record, if_neg stamped]
      simp only
      rw [word 0 (by omega), word 8 (by omega), word 16 (by omega)]
      have whole : bytes.drop 24 = [] := List.drop_eq_nil_of_le (by omega)
      have last := cut 16
      rw [whole, List.append_nil] at last
      rw [List.append_nil, last, List.append_assoc, cut 8, cut 0, List.drop_zero]
    · simp [Stores, stamped]

/-! ## The region of a list -/

@[simp] theorem region_nil (format : Format) : format.region [] = [] := rfl

theorem region_append (format : Format) (front back : List Rating) :
    format.region (front ++ back) = format.region front ++ format.region back :=
  List.flatMap_append

@[simp] theorem region_singleton (format : Format) (rating : Rating) :
    format.region [rating] = format.record rating := by
  simp [region]

@[simp] theorem length_region (format : Format) (ratings : List Rating) :
    (format.region ratings).length = ratings.length * format.recordSize :=
  length_flatMap_of_width (length_record format) ratings

theorem region_map_kept (format : Format) (ratings : List Rating) :
    format.region (ratings.map format.kept) = format.region ratings := by
  simp only [region, List.flatMap_map, record_kept]

/-- Cutting a region at a slot cuts the list of its ratings. -/
theorem take_region (format : Format) (ratings : List Rating) (n : Nat) :
    (format.region ratings).take (n * format.recordSize) = format.region (ratings.take n) :=
  take_flatMap_of_width (length_record format) ratings n

/-- The region up to a slot, the record at the slot, and the region behind it. -/
theorem region_split (format : Format) {slot : Nat} (h : slot < ratings.length) :
    format.region ratings = format.region (ratings.take slot) ++
      (format.record ratings[slot] ++ format.region (ratings.drop (slot + 1))) :=
  flatMap_split format.record h

theorem length_region_take (format : Format) {slot : Nat} (h : slot < ratings.length) :
    (format.region (ratings.take slot)).length = slot * format.recordSize := by
  rw [length_region, List.length_take, Nat.min_eq_left (Nat.le_of_lt h)]

theorem recordSize_pos (format : Format) : 0 < format.recordSize := by
  unfold recordSize
  split <;> decide

/-- **The record at a slot** reads back as what the format keeps of its rating. -/
theorem record?_region {slot : Nat} (h : slot < ratings.length)
    (admitted : format.Admits ratings[slot]) :
    format.record? (format.region ratings) slot = some (format.kept ratings[slot]) := by
  have read := decode?_encode (encode_of_admits admitted) []
  rw [List.append_nil] at read
  rw [record?, region, slice?_flatMap_of_width format.recordSize_pos (length_record format),
    List.getElem?_eq_getElem h]
  exact read

/-- There is no record behind the end of a region. -/
theorem record?_eq_none {bytes : Bytes} {slot : Nat}
    (h : bytes.length ≤ slot * format.recordSize) : format.record? bytes slot = none := by
  have pos := format.recordSize_pos
  rw [record?, slice?_eq_none pos (Nat.lt_of_le_of_lt h (Nat.lt_add_of_pos_right pos))]
  rfl

/-- Whatever bytes a region has, there is a record at a slot that it reaches. -/
theorem isSome_record? (format : Format) {bytes : Bytes} {slot : Nat}
    (inside : (slot + 1) * format.recordSize ≤ bytes.length) :
    (format.record? bytes slot).isSome = true := by
  rw [Nat.succ_mul] at inside
  obtain ⟨piece, found⟩ := Option.isSome_iff_exists.1 (slice?_isSome inside)
  obtain ⟨rating, rfl, stored⟩ := exists_record format (length_of_slice? found)
  have read := decode?_encode (encode_of_admits stored.admits) []
  rw [List.append_nil] at read
  simp [record?, found, read]

/-- The key at a slot, read on its own. -/
theorem key?_region (format : Format) {slot : Nat} (h : slot < ratings.length) (side : Side) :
    format.key? (format.region ratings) slot side = some (ratings[slot].key side) := by
  have front := length_region_take format h
  rw [region_split format h, record]
  cases side with
  | user =>
    simp only [List.append_assoc]
    exact word64At?_append _ _ front
  | item =>
    simp only [key?, List.append_assoc]
    rw [← List.append_assoc]
    exact word64At?_append _ _ (by rw [List.length_append, front, length_word64])

/-- The timestamp at a slot, read on its own. -/
theorem timestamp?_region {slot : Nat} (h : slot < ratings.length)
    (stored : format.Stores ratings[slot]) :
    format.timestamp? (format.region ratings) slot = some ratings[slot].timestamp := by
  unfold Stores at stored
  unfold timestamp?
  split
  · next stamped =>
    obtain ⟨time, present⟩ := Option.isSome_iff_exists.1 (stored.trans stamped)
    have front := length_region_take format h
    rw [region_split format h, record, if_pos stamped, present, Option.getD_some]
    rw [List.append_assoc, ← List.append_assoc,
      word64At?_append time _ (by simp [front, baseSize]), Option.map_some]
  · next unstamped =>
    have absent : ratings[slot].timestamp = none :=
      Option.not_isSome_iff_eq_none.1 (by rw [stored]; exact unstamped)
    rw [absent]

/-- **Every byte string of the right length is a region** of ratings that are as the format stores
them. -/
theorem exists_region (format : Format) {n : Nat} {bytes : Bytes}
    (h : bytes.length = n * format.recordSize) :
    ∃ ratings : List Rating, ratings.length = n ∧ format.region ratings = bytes ∧
      ∀ rating ∈ ratings, format.Stores rating := by
  induction n generalizing bytes with
  | zero =>
    rw [Nat.zero_mul] at h
    exact ⟨[], rfl, (List.eq_nil_of_length_eq_zero h).symm, List.forall_mem_nil _⟩
  | succ n ih =>
    rw [Nat.succ_mul] at h
    have front : (bytes.take format.recordSize).length = format.recordSize := by
      rw [List.length_take]
      omega
    have back : (bytes.drop format.recordSize).length = n * format.recordSize := by
      rw [List.length_drop]
      omega
    obtain ⟨rating, first, stored⟩ := exists_record format front
    obtain ⟨ratings, count, rest, all⟩ := ih back
    refine ⟨rating :: ratings, by rw [List.length_cons, count], ?_, ?_⟩
    · rw [region, List.flatMap_cons, ← region, first, rest, List.take_append_drop]
    · exact List.forall_mem_cons.2 ⟨stored, all⟩

end Format

end RatingArchive

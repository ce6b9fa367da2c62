import Mathlib.Data.List.Induction
import RatingArchive.Proofs.Actions
import RatingArchive.Proofs.Region
/-!
# Records in a buffer

The records of ratings are put into a buffer one behind the other (`Format.put`). A rating that the
format does not admit is refused, and leaves the buffer as it was, so that a buffer holds the region
of the ratings that were admitted (`Format.putAll_eq`). At each of its slots the full reader and the
readers of single fields give the rating there, as the format keeps it (`Format.ReadsAt`).

Conversely a string of bytes of the right length is put together again from the ratings that are
read in it, whatever its bytes are (`Format.put_and_read`).
-/

namespace RatingArchive.Format

variable {format : Format} {rating : Rating} {ratings : List Rating}

instance (format : Format) : DecidablePred format.Admits := fun _ =>
  inferInstanceAs (Decidable (_ → _))

/-! ## Putting records into a buffer -/

/-- Puts the record of a rating behind what a buffer has. -/
def put (format : Format) (rating : Rating) : EStateM Error Bytes Unit := fun buffer =>
  match format.encode rating with
  | .ok record => .ok () (buffer ++ record)
  | .error error => .error error buffer

theorem put_of_admits (admits : format.Admits rating) (buffer : Bytes) :
    format.put rating buffer = .ok () (buffer ++ format.record rating) := by
  rw [put, encode_of_admits admits]

/-- A rating without a timestamp is refused by a format that stores one. -/
theorem put_of_not_admits (refused : ¬format.Admits rating) (buffer : Bytes) :
    format.put rating buffer =
      .error (.invalidData (.missingTimestamp rating.item rating.user)) buffer := by
  obtain ⟨stamped, absent⟩ := Classical.not_imp.1 refused
  have absent : rating.timestamp = none := Option.not_isSome_iff_eq_none.1 absent
  have failed : format.encode rating =
      .error (.invalidData (.missingTimestamp rating.item rating.user)) := by
    simp [encode, stamped, absent]
  rw [put, failed]

/-- A buffer into which the records of ratings were to be put, whether they were admitted or not. -/
def putAll (format : Format) (ratings : List Rating) (buffer : Bytes) : Bytes :=
  ratings.foldl (fun buffer rating => stateAfter (format.put rating) buffer) buffer

/-- **A buffer holds the region** of the ratings that were admitted. -/
theorem putAll_eq (format : Format) (ratings : List Rating) (buffer : Bytes) :
    format.putAll ratings buffer = buffer ++ format.region (ratings.filter format.Admits) := by
  induction ratings using List.reverseRecOn with
  | nil => simp [putAll]
  | append_singleton ratings rating ih =>
    have step : format.putAll (ratings ++ [rating]) buffer =
        stateAfter (format.put rating) (format.putAll ratings buffer) := by
      simp only [putAll, List.foldl_append, List.foldl_cons, List.foldl_nil]
    rw [step, ih, List.filter_append, region_append]
    by_cases admits : format.Admits rating
    · rw [stateAfter_of_ok (put_of_admits admits _)]
      simp [admits]
    · rw [stateAfter_of_error (put_of_not_admits admits _)]
      simp [admits]

/-- Ratings that are all admitted are put into a buffer without a failure. -/
theorem forM_put (admitted : ∀ rating ∈ ratings, format.Admits rating) (buffer : Bytes) :
    ratings.forM format.put buffer = .ok () (buffer ++ format.region ratings) := by
  induction ratings generalizing buffer with
  | nil => simp [pure, EStateM.pure]
  | cons rating ratings ih =>
    obtain ⟨admits, admitted⟩ := List.forall_mem_cons.1 admitted
    show (format.put rating >>= fun _ => ratings.forM format.put) buffer = _
    rw [bind_of_ok (put_of_admits admits buffer), ih admitted]
    simp [region]

/-! ## Reading them -/

/-- What is read at a slot of a region, as a whole and field by field. -/
structure ReadsAt (format : Format) (region : Bytes) (slot : Nat) (rating : Rating) : Prop where
  record? : format.record? region slot = some rating
  user : format.key? region slot .user = some rating.user
  item : format.key? region slot .item = some rating.item
  timestamp? : format.timestamp? region slot = some rating.timestamp

/-- Ratings that are as the format stores them are read back as they are. -/
theorem readsAt_region (stored : ∀ rating ∈ ratings, format.Stores rating) {slot : Nat}
    (inside : slot < ratings.length) :
    format.ReadsAt (format.region ratings) slot ratings[slot] := by
  have here := stored _ (List.getElem_mem inside)
  refine ⟨?_, key?_region format inside .user, key?_region format inside .item,
    timestamp?_region inside here⟩
  rw [record?_region inside here.admits, here.kept_eq]

/-- Ratings that the format admits are read back as it keeps them. -/
theorem readsAt_region_kept (admitted : ∀ rating ∈ ratings, format.Admits rating) {slot : Nat}
    (inside : slot < ratings.length) :
    format.ReadsAt (format.region ratings) slot (format.kept ratings[slot]) := by
  have stored : ∀ rating ∈ ratings.map format.kept, format.Stores rating := by
    intro rating mem
    obtain ⟨whole, member, rfl⟩ := List.mem_map.1 mem
    exact (admitted whole member).stores_kept
  have read := @readsAt_region format _ stored slot (by rwa [List.length_map])
  rwa [region_map_kept, List.getElem_map] at read

/-- A buffer of records: what is put into it next, how long it is, and what is read in it. -/
structure Buffers (format : Format) (ratings : List Rating) (buffer : Bytes) : Prop where
  accepts : ∀ rating, (format.hasTimestamps = true → rating.timestamp ≠ none) →
    ∃ next, format.put rating buffer = .ok () next
  refuses : ∀ rating, format.hasTimestamps = true → rating.timestamp = none →
    ∃ fault, format.put rating buffer = .error (.invalidData fault) buffer
  length : buffer.length = ratings.length * format.recordSize
  readsAt : ∀ slot (inside : slot < ratings.length),
    format.ReadsAt buffer slot (format.kept ratings[slot])

/-- **Records are read back as they were put, and put as they were read.** -/
theorem put_and_read (format : Format) :
    (∀ ratings, format.Buffers (ratings.filter format.Admits) (format.putAll ratings [])) ∧
    ∀ n region, region.length = n * format.recordSize →
      ∃ ratings : List Rating, ratings.length = n ∧
        (∀ slot (inside : slot < ratings.length), format.ReadsAt region slot ratings[slot]) ∧
        ratings.forM format.put [] = .ok () region := by
  constructor
  · intro ratings
    have admitted : ∀ rating ∈ ratings.filter format.Admits, format.Admits rating := by
      intro rating mem
      exact of_decide_eq_true (List.mem_filter.1 mem).2
    rw [putAll_eq, List.nil_append]
    refine ⟨?_, ?_, length_region format _, fun slot => readsAt_region_kept admitted⟩
    · intro rating present
      have admits : format.Admits rating := fun stamped =>
        Option.isSome_iff_ne_none.2 (present stamped)
      exact ⟨_, put_of_admits admits _⟩
    · intro rating stamped absent
      have refused : ¬format.Admits rating := by
        intro admits
        simpa [absent] using admits stamped
      exact ⟨_, put_of_not_admits refused _⟩
  · intro n region whole
    obtain ⟨ratings, count, rfl, stored⟩ := exists_region format whole
    have put := forM_put (fun rating mem => (stored rating mem).admits) []
    exact ⟨ratings, count, fun slot => readsAt_region stored, put⟩

end RatingArchive.Format

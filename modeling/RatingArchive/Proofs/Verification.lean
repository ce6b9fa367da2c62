import RatingArchive.Proofs.Bounds
/-!
# What verification says

Of an archive that opens anyway, verification asks that its records are in order, and that each
index lists no slot twice and every slot under the key of its record. It does not ask whether every
slot is listed. But an index that opens lists as many slots as there are records, so if none is
listed twice, none is missing (`Archive.Covers.mem_slots`). What verification lets pass are the
archives whose indexes file every record where it belongs, and nowhere else
(`Archive.verified_iff_consistent`).
-/

namespace RatingArchive.Archive

variable {archive : Archive} {records : List Rating}

/-- An index files every record: its slot is in the run of its key, and in no other one. -/
def Files (archive : Archive) (side : Side) : Prop :=
  ∀ slot < archive.limit, ∃ run ∈ (archive.table side).entries,
    keyAt? side archive.ratings.toList slot.toNat = some run.key ∧
      ∀ entry ∈ (archive.table side).entries, slot ∈ entry.slots ↔ entry = run

/-- An archive whose records are in order, if they have timestamps, and whose indexes file them. -/
structure Consistent (archive : Archive) : Prop where
  ascending : archive.format.hasTimestamps = true →
    (archive.ratings.toList.filterMap (·.timestamp)).Pairwise (· ≤ ·)
  files : ∀ side, archive.Files side

/-! ## Order and indexes -/

/-- Records with timestamps are in order if their timestamps are. -/
theorem pairwise_timestamps_iff (stamped : ∀ rating ∈ records, rating.timestamp.isSome = true) :
    (records.filterMap (·.timestamp)).Pairwise (· ≤ ·) ↔
      records.Pairwise fun a b => a.notLater b = true := by
  rw [List.pairwise_filterMap]
  apply List.Pairwise.iff_of_mem
  intro a b ha hb
  rw [Rating.notLater_iff (stamped a ha) (stamped b hb)]
  obtain ⟨first, ha⟩ := Option.isSome_iff_exists.1 (stamped a ha)
  obtain ⟨second, hb⟩ := Option.isSome_iff_exists.1 (stamped b hb)
  simp [ha, hb]

/-- **No slot twice, and none under a wrong key**: then every slot is in the run of its key, and in
no other one. -/
theorem Covers.listsOnce_iff_files {side : Side} (covers : archive.Covers side)
    (reads : archive.Reads records) (ordered : Ordered (archive.table side).entries) :
    archive.ListsOnce side ↔ archive.Files side := by
  have own {slot : UInt32} (lt : slot < archive.limit) :
      keyAt? side archive.ratings.toList slot.toNat = some (archive.keyAt side slot) := by
    rw [reads.toList_ratings]
    apply reads.keyAt?_eq side
    rwa [UInt32.lt_iff_toNat_lt, reads.limit] at lt
  constructor
  · rintro ⟨nodup, keyAt⟩ slot lt
    obtain ⟨run, mem, listed⟩ := List.mem_flatMap.1 (covers.mem_slots nodup lt)
    refine ⟨run, mem, ?_, ?_⟩
    · rw [own lt, keyAt run.key slot ⟨run, mem, rfl, listed⟩]
    · intro entry mem'
      constructor
      · intro listed'
        apply ordered.eq_of_key_eq mem' mem
        rw [← keyAt entry.key slot ⟨entry, mem', rfl, listed'⟩,
          keyAt run.key slot ⟨run, mem, rfl, listed⟩]
      · rintro rfl
        exact listed
  · intro files
    have filed (key : UInt64) (slot : UInt32)
        (listed : Lists (archive.table side).entries key slot) : archive.keyAt side slot = key := by
      have lt := covers.below key slot listed
      obtain ⟨entry, mem, rfl, listed⟩ := listed
      obtain ⟨run, -, place, only⟩ := files slot lt
      rw [(only entry mem).1 listed]
      exact Option.some.inj ((own lt).symm.trans place)
    refine ⟨ordered.nodup_slots ?_, filed⟩
    intro a b slot listed listed'
    rw [← filed a slot listed, filed b slot listed']

/-! ## Verification -/

/-- **Verification lets consistent archives pass**, and no others. -/
theorem WellFormed.verify_eq_ok_iff (well : archive.WellFormed)
    (covers : ∀ side, archive.Covers side) : archive.verify = .ok () ↔ archive.Consistent := by
  obtain ⟨records, reads⟩ := well.exists_reads
  have files : (∀ side, archive.ListsOnce side) ↔ ∀ side, archive.Files side :=
    forall_congr' fun side => (covers side).listsOnce_iff_files reads (well.ordered side)
  have ascending (stamped : archive.format.hasTimestamps = true) :
      records.Pairwise (fun a b => a.notLater b = true) ↔
        (archive.ratings.toList.filterMap (·.timestamp)).Pairwise (· ≤ ·) := by
    rw [reads.toList_ratings, pairwise_timestamps_iff]
    exact fun rating mem => (reads.stored rating mem).trans stamped
  rw [Archive.verify_eq_ok_iff reads, files, forall_congr' ascending]
  exact ⟨fun ⟨ascending, files⟩ => ⟨ascending, files⟩, fun ⟨ascending, files⟩ => ⟨ascending, files⟩⟩

theorem invalidData_of_checkTimestamps {slot : Nat} {last : UInt64} {timestamps : List UInt64}
    {error : Error} (failed : checkTimestamps slot last timestamps = .error error) :
    ∃ fault, error = .invalidData fault := by
  fun_induction checkTimestamps slot last timestamps with
  | case1 => cases failed
  | case2 =>
    cases failed
    exact ⟨_, rfl⟩
  | case3 _ _ _ _ _ ih => exact ih failed

theorem invalidData_of_checkListing {side : Side} {seen : List UInt32}
    {pairs : List (UInt64 × UInt32)} {error : Error}
    (failed : archive.checkListing side seen pairs = .error error) :
    ∃ fault, error = .invalidData fault := by
  fun_induction archive.checkListing side seen pairs with
  | case1 => cases failed
  | case2 =>
    cases failed
    exact ⟨_, rfl⟩
  | case3 =>
    cases failed
    exact ⟨_, rfl⟩
  | case4 _ _ _ _ _ _ _ ih => exact ih failed

/-- **Whatever verification finds** is a fault of the data. -/
theorem invalidData_of_verify {error : Error} (failed : archive.verify = .error error) :
    ∃ fault, error = .invalidData fault := by
  have listings : (do
      archive.checkListing .user [] (archive.listing .user)
      archive.checkListing .item [] (archive.listing .item)) = .error error →
      ∃ fault, error = .invalidData fault := by
    intro failed
    rcases error_of_check_bind failed with users | items
    · exact invalidData_of_checkListing users
    · exact invalidData_of_checkListing items
  unfold verify at failed
  split at failed
  · rcases error_of_check_bind failed with order | failed
    · exact invalidData_of_checkTimestamps order
    · exact listings failed
  · exact listings failed

/-- Opening an archive with verification is opening it and then verifying it. -/
theorem ofFile_true_eq {file : File} (opened : ofFile file false = .ok archive) :
    ofFile file true = do
      archive.verify
      return archive := by
  obtain ⟨image, parsed, covered, -, rfl⟩ := ofFile_eq_ok_iff.1 opened
  rw [ofFile, parsed]
  show ofImage image file true = _
  rw [ofImage, covered]
  rfl

/-- **Verification is sound and complete.** An archive that opens without it passes it if and only
if it is consistent, and is left as it is. In every other case its data are invalid. -/
theorem verified_iff_consistent {content : Bytes} (opened : ofBytes content false = .ok archive) :
    ((∃ verified, ofBytes content true = .ok verified) ↔ archive.Consistent) ∧
      (∀ verified, ofBytes content true = .ok verified → verified = archive) ∧
      (¬archive.Consistent → ∃ fault, ofBytes content true = .error (.invalidData fault)) := by
  obtain ⟨image, _, _, covers, rfl⟩ := exists_image_of_ofFile opened
  have passes := (wellFormed_of_ofFile opened).verify_eq_ok_iff covers
  have answer := ofFile_true_eq opened
  rw [← passes, ofBytes, answer]
  cases verified : (whole image (.inMemory content)).verify with
  | ok _ =>
    refine ⟨iff_of_true ⟨_, rfl⟩ rfl, ?_, fun fails => absurd rfl fails⟩
    intro verified same
    cases same
    rfl
  | error error =>
    obtain ⟨fault, rfl⟩ := invalidData_of_verify verified
    exact ⟨iff_of_false nofun nofun, nofun, fun _ => ⟨fault, rfl⟩⟩

/-- The second record of these is in no run of the index of users, which is found although no check
looks for it. -/
theorem verified_iff_consistent_unsorted :
    ∃ archive, ofBytes unsorted.bytes false = .ok archive ∧ ¬archive.Files .user ∧
      ∃ fault, ofBytes unsorted.bytes true = .error (.invalidData fault) := by
  have opened : ofBytes unsorted.bytes false = .ok (whole unsorted (.inMemory unsorted.bytes)) :=
    ofFile_eq_ok_iff.2 ⟨unsorted, Image.parse_eq_ok_iff.2 ⟨wellFormed_unsorted, rfl⟩, rfl, nofun,
      rfl⟩
  have missing : ¬(whole unsorted (.inMemory unsorted.bytes)).Files .user := by
    intro files
    obtain ⟨run, mem, -, only⟩ := files 1 (by decide)
    have listed : (1 : UInt32) ∈ run.slots := (only run mem).2 rfl
    have first : ∀ entry ∈ unsorted.users.entries, 1 ∉ entry.slots := by decide
    exact first run mem listed
  obtain ⟨-, -, invalid⟩ := verified_iff_consistent opened
  exact ⟨_, opened, missing, invalid fun consistent => missing (consistent.files .user)⟩

end RatingArchive.Archive

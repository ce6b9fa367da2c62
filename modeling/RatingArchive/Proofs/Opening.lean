import RatingArchive.Proofs.Records
/-!
# Opening archives

A content opens and passes verification if and only if it is the image of ratings that can be the
records of an archive, with anything behind it. Three checks of each index work together: it lists
as many slots as there are records, all below that number, and none twice. So it lists every slot,
and since it lists each under the key of its record, it is the index of the records.

* `Archive.ofFile_verified`: what opens and passes verification is the image of records.
* `Archive.ofFile_bytes_append`: the image of records opens, with or without verification.
-/

namespace RatingArchive

namespace IndexTable

theorem checkCoverage_eq_ok_iff {table : IndexTable} (h : Ordered table.entries) (side : Side)
    (records : UInt32) :
    table.checkCoverage side records = .ok () ↔
      (∀ key slot, Lists table.entries key slot → slot < records) ∧
        table.slotCount = records.toNat := by
  rw [← checkSlots_eq_ok_iff h records, checkCoverage, check_bind_eq_ok_iff]
  by_cases count : table.slotCount = records.toNat
  · simp [count, pure, Except.pure]
  · simp [count, throw, throwThe, MonadExceptOf.throw]

end IndexTable

/-- **As many slots as there are records**, all of them below that number and none twice, are all
the slots there are. -/
theorem mem_of_lt {slots : List UInt32} {n : Nat} (nodup : slots.Nodup)
    (below : ∀ slot ∈ slots, slot.toNat < n) (count : slots.length = n) {slot : UInt32}
    (lt : slot.toNat < n) : slot ∈ slots := by
  have inj : Function.Injective UInt32.toNat := fun _ _ => UInt32.toNat_inj.1
  have sub : slots.map UInt32.toNat ⊆ List.range n := by
    intro place mem
    obtain ⟨other, listed, rfl⟩ := List.mem_map.1 mem
    exact List.mem_range.2 (below other listed)
  have perm : (slots.map UInt32.toNat).Perm (List.range n) := by
    refine ((nodup.map inj).subperm sub).perm_of_length_le ?_
    rw [List.length_map, count, List.length_range]
  exact (List.mem_map_of_injective inj).1
    (perm.mem_iff.2 (List.mem_range.2 lt))

namespace Archive

/-! ## Verification -/

theorem checkTimestamps_eq_ok_iff {slot : Nat} {last : UInt64} {timestamps : List UInt64} :
    checkTimestamps slot last timestamps = .ok () ↔
      (last :: timestamps).Pairwise (· ≤ ·) := by
  have trans : IsTrans UInt64 (· ≤ ·) := ⟨fun _ _ _ => UInt64.le_trans⟩
  rw [← List.isChain_iff_pairwise]
  induction timestamps generalizing slot last with
  | nil => simp [checkTimestamps]
  | cons timestamp timestamps ih =>
    unfold checkTimestamps
    have later : checkTimestamps (slot + 1) timestamp timestamps = .ok () ↔ _ := ih
    rw [List.isChain_cons_cons, ← later, ← UInt64.not_lt]
    split
    · next descends => simp [descends]
    · next ascends => simp [ascends]

/-- Verification lets an index pass if it lists no slot twice, and each under its key. -/
theorem checkListing_eq_ok_iff {archive : Archive} {side : Side} {seen : List UInt32}
    {pairs : List (UInt64 × UInt32)} :
    archive.checkListing side seen pairs = .ok () ↔
      (pairs.map Prod.snd).Nodup ∧ (∀ slot ∈ pairs.map Prod.snd, slot ∉ seen) ∧
        ∀ pair ∈ pairs, archive.keyAt side pair.2 = pair.1 := by
  induction pairs generalizing seen with
  | nil => simp [checkListing]
  | cons pair pairs ih =>
    obtain ⟨key, slot⟩ := pair
    simp only [checkListing, List.map_cons, List.nodup_cons, List.forall_mem_cons]
    by_cases old : slot ∈ seen
    · simp [old]
    · by_cases foreign : archive.keyAt side slot = key
      · simp only [List.contains_eq_mem, decide_eq_true_eq, old, if_false, foreign, ne_eq,
          not_true_eq_false, ih, List.mem_cons, not_or, not_false_eq_true, true_and]
        grind
      · simp [old, foreign]

theorem map_snd_listing (archive : Archive) (side : Side) :
    (archive.listing side).map Prod.snd = (archive.table side).entries.flatMap (·.slots) := by
  simp [listing, List.map_flatMap, Function.comp_def]

theorem mem_listing {archive : Archive} {side : Side} {key : UInt64} {slot : UInt32} :
    (key, slot) ∈ archive.listing side ↔ Lists (archive.table side).entries key slot := by
  simp only [listing, List.mem_flatMap, List.mem_map, Prod.mk.injEq, Lists]
  grind

/-- The timestamps of the records do not descend if and only if the records are in order. -/
theorem checkTimestamps_range_eq_ok_iff {archive : Archive} {records : List Rating}
    (h : archive.Reads records) (stamped : archive.format.hasTimestamps = true) :
    checkTimestamps 0 0 ((List.range archive.length).map archive.timestampAt) = .ok () ↔
      records.Pairwise fun a b => a.notLater b = true := by
  have timestamps : (List.range archive.length).map archive.timestampAt =
      records.map (·.timestamp.getD 0) := by
    apply List.ext_getElem (by simp [Archive.length, h.limit])
    intro i _ inside
    rw [List.length_map] at inside
    rw [List.getElem_map, List.getElem_map, List.getElem_range, h.timestampAt inside]
  have some (rating : Rating) (mem : rating ∈ records) : rating.timestamp.isSome = true :=
    (h.stored rating mem).trans stamped
  rw [checkTimestamps_eq_ok_iff, List.pairwise_cons, timestamps, List.pairwise_map]
  constructor
  · rintro ⟨-, sorted⟩
    apply sorted.imp_of_mem
    intro a b ha hb le
    rwa [Rating.notLater_iff (some a ha) (some b hb)]
  · intro sorted
    refine ⟨fun _ _ => UInt64.zero_le, ?_⟩
    apply sorted.imp_of_mem
    intro a b ha hb le
    rwa [Rating.notLater_iff (some a ha) (some b hb)] at le

/-- An index lists no slot twice, and each under the key of its record. -/
structure ListsOnce (archive : Archive) (side : Side) : Prop where
  nodup : ((archive.table side).entries.flatMap (·.slots)).Nodup
  keyAt : ∀ key slot, Lists (archive.table side).entries key slot → archive.keyAt side slot = key

theorem checkListing_listing_eq_ok_iff {archive : Archive} {side : Side} :
    archive.checkListing side [] (archive.listing side) = .ok () ↔ archive.ListsOnce side := by
  rw [checkListing_eq_ok_iff, map_snd_listing, Prod.forall]
  simp only [mem_listing, List.not_mem_nil, not_false_eq_true, implies_true, true_and]
  exact ⟨fun ⟨nodup, keyAt⟩ => ⟨nodup, keyAt⟩, fun ⟨nodup, keyAt⟩ => ⟨nodup, keyAt⟩⟩

/-- **Verification** looks at the order of the records and at what the indexes list. -/
theorem verify_eq_ok_iff {archive : Archive} {records : List Rating} (h : archive.Reads records) :
    archive.verify = .ok () ↔
      (archive.format.hasTimestamps = true → records.Pairwise fun a b => a.notLater b = true) ∧
        ∀ side, archive.ListsOnce side := by
  rw [Side.forall_iff, ← checkListing_listing_eq_ok_iff, ← checkListing_listing_eq_ok_iff, verify]
  by_cases stamped : archive.format.hasTimestamps = true
  · simp only [stamped, if_true, check_bind_eq_ok_iff, checkTimestamps_range_eq_ok_iff h stamped,
      true_imp_iff]
  · simp only [stamped, check_bind_eq_ok_iff, Bool.false_eq_true, if_false, false_imp_iff, true_and]

/-- An index that lists as many slots as there are records, all of them slots of records. -/
structure Covers (archive : Archive) (side : Side) : Prop where
  below : ∀ key slot, Lists (archive.table side).entries key slot → slot < archive.limit
  slotCount_eq : (archive.table side).slotCount = archive.limit.toNat

/-- An index that covers the records and lists no slot twice lists every slot. -/
theorem Covers.mem_slots {archive : Archive} {side : Side} (h : archive.Covers side)
    (nodup : ((archive.table side).entries.flatMap (·.slots)).Nodup) {slot : UInt32}
    (lt : slot < archive.limit) : slot ∈ (archive.table side).entries.flatMap (·.slots) := by
  refine mem_of_lt nodup ?_ h.slotCount_eq (UInt32.lt_iff_toNat_lt.1 lt)
  intro other mem
  obtain ⟨entry, place, listed⟩ := List.mem_flatMap.1 mem
  exact UInt32.lt_iff_toNat_lt.1 (h.below entry.key other ⟨entry, place, rfl, listed⟩)

/-- The index of ratings lists each slot under the key of its rating. -/
theorem Shows.lists_iff {archive : Archive} {records : List Rating} (h : archive.Shows records)
    (side : Side) {key : UInt64} {slot : UInt32} :
    Lists (archive.table side).entries key slot ↔ keyAt? side records slot.toNat = some key := by
  rw [h.table side]
  exact IndexTable.lists_ofRatings (Nat.le_of_lt (lt_size_of_small h.small))

theorem Reads.keyAt?_eq {archive : Archive} {records : List Rating} (h : archive.Reads records)
    (side : Side) {slot : UInt32} (inside : slot.toNat < records.length) :
    keyAt? side records slot.toNat = some (archive.keyAt side slot) := by
  rw [keyAt?, List.getElem?_eq_getElem inside, h.keyAt side inside, Option.map_some]

theorem Shows.ordered {archive : Archive} {records : List Rating} (h : archive.Shows records)
    (side : Side) : Ordered (archive.table side).entries := by
  rw [h.table side]
  exact IndexTable.ordered_ofRatings (Nat.le_of_lt (lt_size_of_small h.small))

theorem Shows.covers {archive : Archive} {records : List Rating} (h : archive.Shows records)
    (side : Side) : archive.Covers side where
  below key slot listed := by
    rw [UInt32.lt_iff_toNat_lt, h.limit]
    exact lt_of_keyAt? ((h.lists_iff side).1 listed)
  slotCount_eq := by rw [h.table side, IndexTable.slotCount_ofRatings, h.limit]

theorem Shows.listsOnce {archive : Archive} {records : List Rating} (h : archive.Shows records)
    (side : Side) : archive.ListsOnce side where
  nodup := by
    apply (h.ordered side).nodup_slots
    intro a b slot listed listed'
    rw [h.lists_iff side] at listed listed'
    exact Option.some.inj (listed.symm.trans listed')
  keyAt key slot listed := by
    rw [h.lists_iff side] at listed
    exact Option.some.inj ((h.keyAt?_eq side (lt_of_keyAt? listed)).symm.trans listed)

/-- **Indexes that pass all checks are those of the records.** -/
theorem Reads.shows {archive : Archive} {records : List Rating} (h : archive.Reads records)
    (ordered : ∀ side, Ordered (archive.table side).entries) (covers : ∀ side, archive.Covers side)
    (listsOnce : ∀ side, archive.ListsOnce side) : archive.Shows records := by
  refine ⟨h, ?_⟩
  intro side
  obtain ⟨nodup, keyAt⟩ := listsOnce side
  have inside (slot : UInt32) : slot < archive.limit ↔ slot.toNat < records.length := by
    rw [UInt32.lt_iff_toNat_lt, h.limit]
  refine IndexTable.eq_ofRatings (Nat.le_of_lt (lt_size_of_small h.small)) (ordered side) ?_
  intro key slot
  constructor
  · intro listed
    have lt := (inside slot).1 ((covers side).below key slot listed)
    rw [h.keyAt?_eq side lt, keyAt key slot listed]
  · intro present
    have lt := lt_of_keyAt? present
    -- the slot is listed under some key, which can be no other than that of its record
    have listed := (covers side).mem_slots nodup ((inside slot).2 lt)
    obtain ⟨entry, place, mem⟩ := List.mem_flatMap.1 listed
    have own := keyAt entry.key slot ⟨entry, place, rfl, mem⟩
    rw [h.keyAt?_eq side lt, own] at present
    exact ⟨entry, place, Option.some.inj present, mem⟩

/-! ## Opening -/

/-- The archive with every record of an image visible. -/
def whole (image : Image) (file : File) : Archive where
  path := file.path
  modified := file.modified
  header := image.header
  region := image.records
  users := image.users
  items := image.items
  limit := image.header.records
  cutoff := noCutoff

theorem ofFile_eq_ok_iff {file : File} {verified : Bool} {archive : Archive} :
    ofFile file verified = .ok archive ↔
      ∃ image, Image.parse file.content = .ok image ∧ image.checkCoverage = .ok () ∧
        (verified = true → (whole image file).verify = .ok ()) ∧ whole image file = archive := by
  rw [ofFile, bind_eq_ok_iff]
  apply exists_congr
  intro image
  apply and_congr_right
  intro _
  rw [ofImage, check_bind_eq_ok_iff]
  cases verified with
  | true => simp [check_bind_eq_ok_iff, whole, pure, Except.pure]
  | false => simp [whole, pure, Except.pure]

theorem checkCoverage_eq_ok_iff {image : Image} (well : image.WellFormed) (file : File) :
    image.checkCoverage = .ok () ↔ ∀ side, (whole image file).Covers side := by
  have covers (side : Side) (ordered : Ordered (image.table side).entries) :
      (image.table side).checkCoverage side image.header.records = .ok () ↔
        (whole image file).Covers side := by
    rw [IndexTable.checkCoverage_eq_ok_iff ordered]
    cases side <;>
      exact ⟨fun ⟨below, count⟩ => ⟨below, count⟩, fun ⟨below, count⟩ => ⟨below, count⟩⟩
  have users := covers .user well.users.ordered
  have items := covers .item well.items.ordered
  simp only [Image.table] at users items
  rw [Image.checkCoverage, check_bind_eq_ok_iff, users, items, Side.forall_iff]

/-- What opens, verified or not, is the archive of a well-formed image whose indexes list as many
slots as there are records. -/
theorem exists_image_of_ofFile {file : File} {verified : Bool} {archive : Archive}
    (opened : ofFile file verified = .ok archive) :
    ∃ image : Image, image.WellFormed ∧ file.content = image.bytes ∧
      (∀ side, (whole image file).Covers side) ∧ whole image file = archive := by
  obtain ⟨image, parsed, covered, -, same⟩ := ofFile_eq_ok_iff.1 opened
  obtain ⟨well, content⟩ := Image.parse_eq_ok_iff.1 parsed
  exact ⟨image, well, content, (checkCoverage_eq_ok_iff well file).1 covered, same⟩

/-- **What opens without verification**: the archives of well-formed images whose indexes list as
many slots as there are records, all of them slots of records. -/
theorem ofFile_unverified_eq_ok_iff {file : File} {archive : Archive} :
    ofFile file false = .ok archive ↔
      ∃ image : Image, image.WellFormed ∧ file.content = image.bytes ∧
        (∀ side, (whole image file).Covers side) ∧ whole image file = archive := by
  rw [ofFile_eq_ok_iff]
  apply exists_congr
  intro image
  rw [Image.parse_eq_ok_iff, and_assoc]
  apply and_congr_right
  intro well
  rw [checkCoverage_eq_ok_iff well file]
  simp

/-- The archive of the image of records shows the records. -/
theorem shows_whole {format : Format} {records : List Rating} (holds : format.Holds records)
    (file : File) : (whole (Image.ofRatings format records) file).Shows records where
  small := holds.small
  stored := holds.stored
  region := rfl
  limit := Image.toNat_records_ofRatings format holds.small
  table side := by cases side <;> rfl

/-- The image of an archive is determined by the ratings that it shows. -/
theorem Shows.image_eq {image : Image} {file : File} {records : List Rating}
    (h : (whole image file).Shows records) (well : image.WellFormed) :
    image = { Image.ofRatings image.header.format records with trailing := image.trailing } := by
  have count {n : UInt32} {m : Nat} (same : m = n.toNat) : n = UInt32.ofNat m := by
    rw [same, UInt32.ofNat_toNat]
  have userCount := count well.users.length_eq
  have itemCount := count well.items.length_eq
  obtain ⟨⟨format, n, users, items⟩, region, userTable, itemTable, trailing⟩ := image
  have limit : n = UInt32.ofNat records.length := count h.limit.symm
  have onUsers : userTable = IndexTable.ofRatings .user records := h.table .user
  have onItems : itemTable = IndexTable.ofRatings .item records := h.table .item
  have records : region = format.region records := h.region
  simp only [Header.keys] at userCount itemCount
  subst onUsers onItems records
  rw [limit, userCount, itemCount]
  rfl

/-- **The image of records opens**, verified or not, whatever stands behind it. -/
theorem ofFile_bytes_append {format : Format} {records : List Rating} (holds : format.Holds records)
    {file : File} {trailing : Bytes}
    (content : file.content = (Image.ofRatings format records).bytes ++ trailing)
    (verified : Bool) :
    ofFile file verified = .ok (whole (Image.ofRatings format records) file) := by
  rw [Image.bytes_append _ rfl] at content
  have shown := shows_whole holds file
  have well := Image.wellFormed_ofRatings holds.known holds.small trailing
  refine ofFile_eq_ok_iff.2 ⟨_, Image.parse_eq_ok_iff.2 ⟨well, content⟩, ?_, ?_, rfl⟩
  · exact (checkCoverage_eq_ok_iff well file).2 shown.covers
  · intro _
    exact (verify_eq_ok_iff shown.toReads).2 ⟨holds.ordered, shown.listsOnce⟩

/-- **A verified archive** was the image of records, with something behind it. -/
theorem ofFile_verified {file : File} {archive : Archive} (h : ofFile file true = .ok archive) :
    ∃ format records trailing, Format.Holds format records ∧
      file.content = (Image.ofRatings format records).bytes ++ trailing ∧
      archive = whole (Image.ofRatings format records) file := by
  obtain ⟨image, parsed, covered, verified, rfl⟩ := ofFile_eq_ok_iff.1 h
  obtain ⟨well, content⟩ := Image.parse_eq_ok_iff.1 parsed
  obtain ⟨records, count, region, stored⟩ := Format.exists_region _ well.records
  have reads : (whole image file).Reads records :=
    { small := by rw [count]; exact Nat.le_of_lt_succ image.header.records.toNat_lt
      stored
      region := region.symm
      limit := count.symm }
  obtain ⟨ordered, listsOnce⟩ := (verify_eq_ok_iff reads).1 (verified rfl)
  have covers := (checkCoverage_eq_ok_iff well file).1 covered
  have tables (side : Side) : Ordered ((whole image file).table side).entries := by
    cases side
    · exact well.users.ordered
    · exact well.items.ordered
  have shown := reads.shows tables covers listsOnce
  have same := shown.image_eq well
  refine ⟨image.header.format, records, image.trailing,
    ⟨well.header.known, reads.small, stored, ordered⟩, ?_, ?_⟩
  · rw [Image.bytes_append _ rfl, ← same, content]
  · rw [same]
    rfl

end Archive

end RatingArchive

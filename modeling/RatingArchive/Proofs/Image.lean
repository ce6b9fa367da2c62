import RatingArchive.Image
import RatingArchive.Proofs.Header
import RatingArchive.Proofs.Index.OfRatings
/-!
# The grammar of archives

A content is taken apart as an image if and only if it is the parts of a well-formed image one after
the other (`Image.parse_eq_ok_iff`): a valid header, as many records as it declares, two ordered
tables with as many entries as it declares, and anything at all. The least size that the header
demands follows, since every entry has a slot.

`Image.ofRatings` is the image that a list of ratings has: their region, the indexes of the two
sides, and a header that counts them.
-/

namespace RatingArchive

theorem length_le_slots {entries : List Entry} (ordered : Ordered entries) :
    entries.length ≤ (entries.flatMap (·.slots)).length := by
  induction entries with
  | nil => exact Nat.le_refl 0
  | cons entry entries ih =>
    obtain ⟨-, run, ordered⟩ := ordered_cons.1 ordered
    have := List.length_pos_iff.2 run.nonempty
    have := ih ordered
    rw [List.flatMap_cons, List.length_append, List.length_cons]
    omega

namespace Image

/-- The parts of an image, one after the other. -/
def bytes (image : Image) : Bytes :=
  image.header.render ++ (image.records ++ (tableBytes image.users.entries ++
    (tableBytes image.items.entries ++ image.trailing)))

/-- A table has the entries that the header declares, in order. -/
structure HasTable (header : Header) (side : Side) (table : IndexTable) : Prop where
  ordered : Ordered table.entries
  countable : Countable table.entries
  length_eq : table.entries.length = (header.keys side).toNat

/-- The parts of an image are as its header declares. -/
structure WellFormed (image : Image) : Prop where
  header : image.header.Valid
  records : image.records.length = image.header.recordsSize
  users : HasTable image.header .user image.users
  items : HasTable image.header .item image.items

theorem hasTable_of_read {header : Header} (side : Side) {table : IndexTable} {buffer rest : Bytes}
    (h : (IndexTable.read (header.keys side)).run buffer = .ok table rest) :
    HasTable header side table ∧ buffer = tableBytes table.entries ++ rest := by
  obtain ⟨ordered, countable, length, whole⟩ := IndexTable.read_eq_ok_iff.1 h
  exact ⟨⟨ordered, countable, length⟩, whole⟩

theorem HasTable.read_append {header : Header} {side : Side} {table : IndexTable}
    (h : HasTable header side table) (rest : Bytes) :
    (IndexTable.read (header.keys side)).run (tableBytes table.entries ++ rest) = .ok table rest :=
  IndexTable.read_eq_ok_iff.2 ⟨h.ordered, h.countable, h.length_eq, rfl⟩

theorem HasTable.le_length {header : Header} {side : Side} {table : IndexTable}
    (h : HasTable header side table) :
    4 + 16 * (header.keys side).toNat ≤ (tableBytes table.entries).length := by
  have := length_le_slots h.ordered
  rw [length_tableBytes, ← h.length_eq]
  omega

theorem WellFormed.length_bytes {image : Image} (h : image.WellFormed) :
    image.bytes.length = headerSize + image.header.recordsSize +
      ((tableBytes image.users.entries).length + ((tableBytes image.items.entries).length +
        image.trailing.length)) := by
  simp only [bytes, List.length_append, Header.length_render, h.records, Nat.add_assoc]

/-- The parts of a well-formed image take the room that its header demands. -/
theorem WellFormed.minFileSize_le {image : Image} (h : image.WellFormed) :
    image.header.minFileSize ≤ image.bytes.length := by
  have users := h.users.le_length
  have items := h.items.le_length
  simp only [Header.keys] at users items
  rw [h.length_bytes, Header.minFileSize]
  omega

/-- The header of a well-formed image is that of its content. -/
theorem WellFormed.ofContent_bytes {image : Image} (h : image.WellFormed) :
    Header.ofContent image.bytes = .ok image.header :=
  Header.ofContent_eq_ok_iff.2 ⟨Header.parse_eq_ok_iff.2 ⟨h.header, _, rfl⟩, h.minFileSize_le⟩

/-- **A content is an image if and only if it is the parts of a well-formed one.** -/
theorem parse_eq_ok_iff {content : Bytes} {image : Image} :
    parse content = .ok image ↔ image.WellFormed ∧ content = image.bytes := by
  unfold parse
  constructor
  · intro h
    cases found : Header.ofContent content with
    | error error => rw [found] at h; cases h
    | ok header =>
      rw [found] at h
      simp only [bind, Except.bind] at h
      obtain ⟨parsed, large⟩ := Header.ofContent_eq_ok_iff.1 found
      obtain ⟨valid, rest, rfl⟩ := Header.parse_eq_ok_iff.1 parsed
      rw [List.drop_left' (Header.length_render header)] at h
      rw [List.length_append, Header.length_render] at large
      have fits : (rest.take header.recordsSize).length = header.recordsSize := by
        rw [List.length_take]
        unfold Header.minFileSize at large
        omega
      split at h
      · cases h
      · next users behind readUsers =>
        split at h
        · cases h
        · next items trailing readItems =>
          cases h
          obtain ⟨hasUsers, front⟩ := hasTable_of_read .user readUsers
          obtain ⟨hasItems, back⟩ := hasTable_of_read .item readItems
          refine ⟨⟨valid, fits, hasUsers, hasItems⟩, ?_⟩
          simp only [bytes, ← back, ← front, List.take_append_drop]
  · rintro ⟨well, rfl⟩
    have found := well.ofContent_bytes
    obtain ⟨header, records, users, items, trailing⟩ := image
    have readUsers := well.users.read_append (tableBytes items.entries ++ trailing)
    have readItems := well.items.read_append trailing
    simp only [Header.keys] at readUsers readItems
    rw [found]
    simp only [bind, Except.bind, bytes, List.drop_left' (Header.length_render header),
      List.take_left' well.records, List.drop_left' well.records, readUsers, readItems]
    rfl

/-! ## The image of a list of ratings -/

/-- The image of an archive with the given ratings, in the order of its records. -/
def ofRatings (format : Format) (ratings : List Rating) : Image :=
  let users := IndexTable.ofRatings .user ratings
  let items := IndexTable.ofRatings .item ratings
  { header :=
      { format
        records := UInt32.ofNat ratings.length
        users := UInt32.ofNat users.entries.length
        items := UInt32.ofNat items.entries.length }
    records := format.region ratings
    users
    items
    trailing := [] }

theorem ofRatings_map_kept (format : Format) (ratings : List Rating) :
    ofRatings format (ratings.map format.kept) = ofRatings format ratings := by
  simp only [ofRatings, IndexTable.ofRatings_map_kept, Format.region_map_kept, List.length_map]

variable (format : Format) {ratings : List Rating}

theorem toNat_records_ofRatings (small : ratings.length ≤ maxRatings) :
    (ofRatings format ratings).header.records.toNat = ratings.length :=
  UInt32.toNat_ofNat_of_lt' (lt_size_of_small small)

theorem toNat_keys_ofRatings (small : ratings.length ≤ maxRatings) (side : Side) :
    ((ofRatings format ratings).header.keys side).toNat =
      (IndexTable.ofRatings side ratings).entries.length := by
  have le := IndexTable.length_ofRatings_le side ratings
  have lt := lt_size_of_small (Nat.le_trans le small)
  cases side <;> exact UInt32.toNat_ofNat_of_lt' lt

theorem hasTable_ofRatings (small : ratings.length ≤ maxRatings) (side : Side) :
    HasTable (ofRatings format ratings).header side (IndexTable.ofRatings side ratings) where
  ordered := IndexTable.ordered_ofRatings (Nat.le_of_lt (lt_size_of_small small))
  countable := IndexTable.countable_ofRatings (lt_size_of_small small)
  length_eq := (toNat_keys_ofRatings format small side).symm

theorem valid_ofRatings {format : Format} (known : format.isKnown = true)
    (small : ratings.length ≤ maxRatings) : (ofRatings format ratings).header.Valid := by
  have records := toNat_records_ofRatings format small
  have count (side : Side) := toNat_keys_ofRatings format small side
  have le (side : Side) : (ofRatings format ratings).header.keys side ≤
      (ofRatings format ratings).header.records := by
    rw [UInt32.le_iff_toNat_le, count side, records]
    exact IndexTable.length_ofRatings_le side ratings
  have pos (side : Side) (some : 0 < (ofRatings format ratings).header.records) :
      (ofRatings format ratings).header.keys side ≠ 0 := by
    intro none
    have empty := count side
    rw [none, IndexTable.length_ofRatings] at empty
    have := Finset.card_eq_zero.1 empty.symm
    rw [List.toFinset_eq_empty_iff, List.map_eq_nil_iff] at this
    rw [UInt32.lt_iff_toNat_lt, records, this] at some
    exact Nat.lt_irrefl 0 some
  exact ⟨known, fun some => ⟨pos .user some, pos .item some⟩, le .user, le .item⟩

/-- The image of ratings is well formed, whatever follows it. -/
theorem wellFormed_ofRatings {format : Format} (known : format.isKnown = true)
    (small : ratings.length ≤ maxRatings) (trailing : Bytes) :
    WellFormed { ofRatings format ratings with trailing } where
  header := valid_ofRatings known small
  records := by
    have records := toNat_records_ofRatings format small
    simp only [Header.recordsSize, records]
    exact Format.length_region format ratings
  users := hasTable_ofRatings format small .user
  items := hasTable_ofRatings format small .item

/-- What follows an image is its trailing part. -/
theorem bytes_append (image : Image) (none : image.trailing = []) (trailing : Bytes) :
    image.bytes ++ trailing = Image.bytes { image with trailing } := by
  simp only [bytes, none, List.append_assoc, List.nil_append]

end Image

end RatingArchive

import Mathlib.Algebra.GroupWithZero.Nat
import RatingArchive.Proofs.Index.Shortage
import RatingArchive.Proofs.Opening
/-!
# The extent of archives

A content opens without verification if and only if it begins with the parts of an archive as its
header declares them, whatever stands behind them (`Archive.opens_iff_laid`). Since the slots of
each index add up to the number of records, the header alone says how long these parts are
(`Header.extent`).

No byte of them can be missing: every front of a content that opens, down to none of it, is refused
because more bytes are expected than there are (`Archive.short_of_take`). A cut does not change what
stands before it, so that no other check can fail first, and a reader that reaches the cut runs
short.
-/

namespace RatingArchive

/-! ## The grammar -/

/-- Entries that can be the index of `records` records under `keys` keys. -/
structure Indexes (keys records : UInt32) (entries : List Entry) : Prop where
  length_eq : entries.length = keys.toNat
  ordered : Ordered entries
  below : ∀ entry ∈ entries, ∀ slot ∈ entry.slots, slot < records
  sum_eq : (entries.map (·.slots.length)).sum = records.toNat

namespace Indexes

variable {keys records : UInt32} {entries : List Entry}

theorem slots_eq (h : Indexes keys records entries) :
    (entries.flatMap (·.slots)).length = records.toNat := by
  rw [List.length_flatMap, h.sum_eq]

theorem countable (h : Indexes keys records entries) : Countable entries where
  entries_lt := by
    rw [h.length_eq]
    exact keys.toNat_lt
  slots_lt entry mem := by
    have run : entry.slots.Sublist (entries.flatMap (·.slots)) :=
      List.sublist_flatten_of_mem (List.mem_map_of_mem mem)
    refine Nat.lt_of_le_of_lt run.length_le ?_
    rw [h.slots_eq]
    exact records.toNat_lt

/-- The size of an index depends on its numbers of keys and of records alone. -/
theorem length_tableBytes (h : Indexes keys records entries) :
    (tableBytes entries).length = 4 + 12 * keys.toNat + 4 * records.toNat := by
  rw [RatingArchive.length_tableBytes, h.length_eq, h.slots_eq]

end Indexes

/-- The number of bytes that an archive takes, as its header declares it. -/
def Header.extent (header : Header) : Nat :=
  headerSize + header.records.toNat * header.format.recordSize + 8 +
    12 * (header.users.toNat + header.items.toNat) + 8 * header.records.toNat

/-- An archive takes more than the least size for its header by the slots that a key has besides
its first one. -/
theorem Header.Valid.extent_eq {header : Header} (h : header.Valid) :
    header.extent = header.minFileSize +
      4 * ((header.records.toNat - header.users.toNat) +
        (header.records.toNat - header.items.toNat)) := by
  have users := UInt32.le_iff_toNat_le.1 h.users_le
  have items := UInt32.le_iff_toNat_le.1 h.items_le
  unfold extent minFileSize recordsSize
  omega

/-- The parts of an archive as its header declares them: the bytes of the header, those of the
records, and the entries of the two indexes. -/
structure Laid (header : Header) (front records : Bytes) (users items : List Entry) : Prop where
  length_front : front.length = headerSize
  parse_front : Header.parse front = .ok header
  length_records : records.length = header.records.toNat * header.format.recordSize
  users : Indexes header.users header.records users
  items : Indexes header.items header.records items

namespace Laid

variable {header : Header} {front records : Bytes} {users items : List Entry}

theorem valid (h : Laid header front records users items) : header.Valid :=
  (Header.parse_eq_ok_iff.1 h.parse_front).1

theorem front_eq (h : Laid header front records users items) : front = header.render := by
  obtain ⟨-, rest, rfl⟩ := Header.parse_eq_ok_iff.1 h.parse_front
  have length := h.length_front
  rw [List.length_append, Header.length_render] at length
  rw [List.eq_nil_of_length_eq_zero (by omega : rest.length = 0), List.append_nil]

theorem length_eq (h : Laid header front records users items) :
    (front ++ records ++ tableBytes users ++ tableBytes items).length = header.extent := by
  simp only [List.length_append, h.length_front, h.length_records, h.users.length_tableBytes,
    h.items.length_tableBytes, Header.extent]
  omega

/-- The image with these parts is well formed. -/
theorem wellFormed (h : Laid header front records users items) (trailing : Bytes) :
    Image.WellFormed ⟨header, records, ⟨users⟩, ⟨items⟩, trailing⟩ where
  header := h.valid
  records := h.length_records
  users := ⟨h.users.ordered, h.users.countable, h.users.length_eq⟩
  items := ⟨h.items.ordered, h.items.countable, h.items.length_eq⟩

end Laid

namespace Archive

theorem Covers.indexes {archive : Archive} {side : Side} (h : archive.Covers side)
    (table : Image.HasTable archive.header side (archive.table side)) :
    Indexes (archive.header.keys side) archive.limit (archive.table side).entries where
  length_eq := table.length_eq
  ordered := table.ordered
  below entry mem slot listed := h.below entry.key slot ⟨entry, mem, rfl, listed⟩
  sum_eq := by
    rw [← List.length_flatMap]
    exact h.slotCount_eq

theorem covers_of_indexes {archive : Archive} {side : Side} {keys : UInt32}
    (h : Indexes keys archive.limit (archive.table side).entries) : archive.Covers side where
  below _ slot listed := by
    obtain ⟨entry, mem, -, listed⟩ := listed
    exact h.below entry mem slot listed
  slotCount_eq := h.slots_eq

/-- The parts of an archive that opens are as its header declares them. -/
theorem laid_whole {image : Image} {file : File} (well : image.WellFormed)
    (covers : ∀ side, (whole image file).Covers side) :
    Laid image.header image.header.render image.records image.users.entries
      image.items.entries where
  length_front := Header.length_render _
  parse_front := Header.parse_eq_ok_iff.2 ⟨well.header, [], (List.append_nil _).symm⟩
  length_records := well.records
  users := (covers .user).indexes well.users
  items := (covers .item).indexes well.items

/-- **What opens without verification** is an archive laid out as its header declares, with anything
behind it; and the header alone says how long such an archive is. -/
theorem opens_iff_laid (content : Bytes) :
    ((∃ archive, ofBytes content false = .ok archive) ↔
      ∃ header front records users items trailing, Laid header front records users items ∧
        content = front ++ records ++ tableBytes users ++ tableBytes items ++ trailing) ∧
    ∀ header front records users items, Laid header front records users items →
      (front ++ records ++ tableBytes users ++ tableBytes items).length =
        24 + header.records.toNat * header.format.recordSize + 8 +
          12 * (header.users.toNat + header.items.toNat) + 8 * header.records.toNat ∧
      (front ++ records ++ tableBytes users ++ tableBytes items).length =
        header.minFileSize + 4 * ((header.records.toNat - header.users.toNat) +
          (header.records.toNat - header.items.toNat)) := by
  refine ⟨⟨?_, ?_⟩, ?_⟩
  · rintro ⟨archive, opened⟩
    obtain ⟨image, well, whole, covers, -⟩ := ofFile_unverified_eq_ok_iff.1 opened
    refine ⟨_, _, _, _, _, image.trailing, laid_whole well covers, ?_⟩
    simp only [List.append_assoc]
    exact whole
  · rintro ⟨header, front, records, users, items, trailing, laid, rfl⟩
    refine ⟨_, ofFile_unverified_eq_ok_iff.2 ⟨_, laid.wellFormed trailing, ?_, ?_, rfl⟩⟩
    · simp only [File.inMemory, Image.bytes, laid.front_eq, List.append_assoc]
    · rw [Side.forall_iff]
      exact ⟨covers_of_indexes laid.users, covers_of_indexes laid.items⟩
  · intro header front records users items laid
    exact ⟨laid.length_eq, laid.length_eq.trans laid.valid.extent_eq⟩

end Archive

/-! ## Fronts of contents -/

/-- Bytes are missing: more were expected than there are. -/
def Short {α : Type} (result : Except Error α) : Prop :=
  ∃ expected actual, result = .error (.truncated expected actual) ∧ actual < expected

/-- What stands behind a step is not done if the step finds that bytes are missing. -/
theorem Short.bind {α β : Type} {x : Except Error α} (h : Short x) (f : α → Except Error β) :
    Short (x >>= f) := by
  obtain ⟨expected, actual, rfl, lt⟩ := h
  exact ⟨expected, actual, rfl, lt⟩

namespace Header

variable {content : Bytes} {header : Header} {k : Nat}

/-- A front of a file has the header of the file, if all of it is there. -/
theorem parse_take (found : parse content = .ok header) (long : headerSize ≤ k) :
    parse (content.take k) = .ok header := by
  obtain ⟨valid, rest, rfl⟩ := parse_eq_ok_iff.1 found
  refine parse_eq_ok_iff.2 ⟨valid, rest.take (k - headerSize), ?_⟩
  rw [List.take_append, length_render, List.take_of_length_le (by rwa [length_render])]

theorem ofContent_take (found : ofContent content = .ok header) (le : k ≤ content.length)
    (large : header.minFileSize ≤ k) : ofContent (content.take k) = .ok header := by
  have long : headerSize ≤ k := by
    unfold minFileSize at large
    omega
  refine ofContent_eq_ok_iff.2 ⟨parse_take (ofContent_eq_ok_iff.1 found).1 long, ?_⟩
  rwa [List.length_take, Nat.min_eq_left le]

/-- A front of a file that is smaller than the header demands lacks bytes. -/
theorem short_ofContent_take (found : ofContent content = .ok header)
    (small : k < header.minFileSize) : Short (ofContent (content.take k)) := by
  obtain ⟨parsed, large⟩ := ofContent_eq_ok_iff.1 found
  have left : (content.take k).length = k := by
    rw [List.length_take]
    omega
  unfold ofContent
  by_cases cut : k < headerSize
  · refine Short.bind ⟨headerSize, k, ?_, cut⟩ _
    rw [parse, left, if_pos cut]
  · refine ⟨header.minFileSize, k, ?_, small⟩
    rw [parse_take parsed (Nat.not_lt.1 cut), left]
    simp only [bind, Except.bind, if_pos small]
    rfl

end Header

namespace Image

/-- The content of an image, behind its records. -/
theorem drop_bytes {image : Image} (well : image.WellFormed) :
    (image.bytes.drop headerSize).drop image.header.recordsSize =
      tableBytes image.users.entries ++ (tableBytes image.items.entries ++ image.trailing) := by
  rw [bytes, List.drop_left' (Header.length_render _), List.drop_left' well.records]

/-- **A front of an image** that lacks a byte of its parts is refused for that. -/
theorem short_parse_take {image : Image} (well : image.WellFormed) {k : Nat}
    (cut : k + image.trailing.length < image.bytes.length) :
    Short (parse (image.bytes.take k)) := by
  have found := well.ofContent_bytes
  unfold parse
  by_cases small : k < image.header.minFileSize
  · exact (Header.short_ofContent_take found small).bind _
  have total := well.length_bytes
  have readUsers := well.users.read_append (tableBytes image.items.entries ++ image.trailing)
  have readItems := well.items.read_append image.trailing
  simp only [Header.keys] at readUsers readItems
  -- the header and the records are whole, and `j` bytes of the tables are left
  have large : headerSize + image.header.recordsSize ≤ k := by
    unfold Header.minFileSize at small
    omega
  obtain ⟨j, rfl⟩ := Nat.exists_eq_add_of_le large
  rw [Header.ofContent_take found (by omega) (Nat.not_lt.1 small)]
  have behind : ((image.bytes.take (headerSize + image.header.recordsSize + j)).drop
      headerSize).drop image.header.recordsSize =
        (tableBytes image.users.entries ++ (tableBytes image.items.entries ++
          image.trailing)).take j := by
    rw [← drop_bytes well, List.drop_drop, List.drop_drop, List.drop_take, Nat.add_sub_cancel_left]
  simp only [bind, Except.bind, behind]
  by_cases inUsers : j < (tableBytes image.users.entries).length
  · obtain ⟨expected, actual, rest, short, lt⟩ := IndexTable.read_take readUsers (k := j) (by
      simp only [List.length_append]
      omega)
    rw [short]
    exact ⟨expected, actual, rfl, lt⟩
  · obtain ⟨i, rfl⟩ := Nat.exists_eq_add_of_le (Nat.not_lt.1 inUsers)
    rw [List.take_length_add_append]
    have readUsers := well.users.read_append
      ((tableBytes image.items.entries ++ image.trailing).take i)
    obtain ⟨expected, actual, rest, short, lt⟩ := IndexTable.read_take readItems (k := i) (by
      rw [List.length_append]
      omega)
    simp only [Header.keys] at readUsers
    rw [readUsers]
    simp only [short]
    exact ⟨expected, actual, rfl, lt⟩

end Image

namespace Archive

/-- The length of the header, of the records and of the two indexes of an archive. -/
def extent (archive : Archive) : Nat :=
  headerSize + archive.region.length + (tableBytes archive.users.entries).length +
    (tableBytes archive.items.entries).length

/-- **No front of an archive opens.** If a byte of its header, of its records or of its indexes is
missing, that is why it is refused, verified or not. -/
theorem short_of_take {content : Bytes} {archive : Archive}
    (opened : ofBytes content false = .ok archive) {k : Nat} (cut : k < archive.extent)
    (verified : Bool) :
    ∃ expected actual, ofBytes (content.take k) verified = .error (.truncated expected actual) ∧
      actual < expected := by
  obtain ⟨image, well, rfl, -, rfl⟩ := ofFile_unverified_eq_ok_iff.1 opened
  have missing : k + image.trailing.length < image.bytes.length := by
    simp only [extent, whole, well.records] at cut
    rw [well.length_bytes]
    omega
  exact (Image.short_parse_take well missing).bind _

/-- The archive of one rating, with a byte behind it. -/
def single : Image where
  header := ⟨.plain, 1, 1, 1⟩
  records := Format.plain.region [⟨3, 7, ⟨0⟩, none⟩]
  users := ⟨[⟨3, [0]⟩]⟩
  items := ⟨[⟨7, [0]⟩]⟩
  trailing := [42]

/-- The last byte of the item index is missing. -/
theorem short_of_take_single :
    ∃ archive, ofBytes single.bytes false = .ok archive ∧ archive.extent = 88 ∧
      ∃ expected actual,
        ofBytes (single.bytes.take 87) true = .error (.truncated expected actual) ∧
          actual < expected := by
  have opened : ofBytes single.bytes false = .ok (whole single (.inMemory single.bytes)) := by
    decide +kernel
  have size : (whole single (.inMemory single.bytes)).extent = 88 := by decide +kernel
  have inside : 87 < (whole single (.inMemory single.bytes)).extent := by
    rw [size]
    decide
  exact ⟨_, opened, size, short_of_take opened inside true⟩

end Archive

end RatingArchive

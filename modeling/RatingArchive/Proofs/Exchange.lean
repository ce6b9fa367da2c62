import RatingArchive.Proofs.Coverage
import RatingArchive.Proofs.Reachable
/-!
# Files and streams of one archive

The parts of an archive are the same in a file and in a stream, in another order. What opens can
therefore be written as a stream, which is imported.

The other way round there is a difference. The header of a stream describes the archive that the
sender had opened, and not what the sender sees of it. So an import does not compare the numbers of
keys in the header with the indexes, which say themselves how many entries they have. Opening
compares them. If an import has all the records of its header, the file of its parts opens if and
only if these numbers are right, and then gives the same answers (`Archive.files_and_streams`).
-/

namespace RatingArchive.Archive

variable {archive : Archive}

/-- The image of an archive, with nothing behind it. -/
def image (archive : Archive) : Image where
  header := archive.header
  records := archive.region
  users := archive.users
  items := archive.items
  trailing := []

theorem encode_image (h : archive.WellFormed) :
    archive.image.encode = .ok archive.image.bytes := by
  have users := encodeEntries_eq (h.ordered .user) (h.countable .user)
  have items := encodeEntries_eq (h.ordered .item) (h.countable .item)
  simp only [table] at users items
  simp only [Image.encode, image, IndexTable.encode, users, items, Image.bytes]
  simp only [bind, Except.bind, List.append_assoc]
  rfl

/-! ## From streams to files -/

/-- The indexes of an archive have as many entries as its header declares. -/
def Counted (archive : Archive) : Prop :=
  ∀ side, (archive.table side).entries.length = (archive.header.keys side).toNat

theorem SameContent.counted {other : Archive} (h : archive.SameContent other)
    (counted : other.Counted) : archive.Counted := by
  intro side
  rw [h.table side, h.header, counted side]

theorem wellFormed_image (h : archive.WellFormed) (all : archive.limit = archive.header.records)
    (counted : archive.Counted) : archive.image.WellFormed where
  header := h.header
  records := by
    rw [Header.recordsSize, image, ← all]
    exact h.region
  users := ⟨h.ordered .user, h.countable .user, counted .user⟩
  items := ⟨h.ordered .item, h.countable .item, counted .item⟩

/-- No other image has the bytes of that of an archive. -/
theorem image_eq_of_bytes_eq (h : archive.WellFormed) (all : archive.limit = archive.header.records)
    {image : Image} (well : image.WellFormed) (same : image.bytes = archive.image.bytes) :
    image = archive.image := by
  -- the header tells how long the records are, and each index tells where it ends
  obtain ⟨header, same⟩ := parses_takeHeader.unique well.header h.header same
  have length : image.records.length = archive.region.length := by
    rw [well.records, h.region, Header.recordsSize, header, Archive.length, all]
    rfl
  obtain ⟨records, same⟩ := List.append_inj same length
  obtain ⟨users, same⟩ := IndexTable.parses_readStream.unique
    ⟨well.users.ordered, well.users.countable⟩ ⟨h.ordered .user, h.countable .user⟩ same
  obtain ⟨items, trailing⟩ := IndexTable.parses_readStream.unique
    ⟨well.items.ordered, well.items.countable⟩ ⟨h.ordered .item, h.countable .item⟩ same
  obtain ⟨_, _, _, _, _⟩ := image
  cases header
  cases records
  cases users
  cases items
  cases trailing
  rfl

/-- What opens as the file of an archive differs from it in its place and its cutoff. -/
theorem sameParts_whole_image (all : archive.limit = archive.header.records) (file : File) :
    (whole archive.image file).SameParts archive where
  format := rfl
  region := rfl
  table := Side.forall_iff.2 ⟨rfl, rfl⟩
  limit := all.symm

/-- **The file of an import** opens if and only if its indexes have as many entries as its header
declares. -/
theorem Arrives.ofBytes_image_iff (h : archive.Arrives)
    (all : archive.limit = archive.header.records) (opened : Archive) :
    ofBytes archive.image.bytes false = .ok opened ↔
      archive.Counted ∧ opened = whole archive.image (.inMemory archive.image.bytes) := by
  rw [ofBytes, ofFile_unverified_eq_ok_iff]
  constructor
  · rintro ⟨image, well, content, -, rfl⟩
    cases image_eq_of_bytes_eq h.toWellFormed all well content.symm
    exact ⟨Side.forall_iff.2 ⟨well.users.length_eq, well.items.length_eq⟩, rfl⟩
  · rintro ⟨counted, rfl⟩
    have same := sameParts_whole_image all (.inMemory archive.image.bytes)
    refine ⟨_, wellFormed_image h.toWellFormed all counted, rfl, ?_, rfl⟩
    intro side
    exact same.covers (h.covers side)

/-! ## From files to streams -/

/-- The parts of an archive that opens can be taken from its content. -/
theorem content_eq_of_ofBytes {content : Bytes} {verified : Bool}
    (found : ofBytes content verified = .ok archive) :
    ∃ trailing, content = archive.header.render ++ archive.region ++
      tableBytes archive.users.entries ++ tableBytes archive.items.entries ++ trailing := by
  obtain ⟨image, -, content, -, rfl⟩ := exists_image_of_ofFile found
  refine ⟨image.trailing, ?_⟩
  simp only [List.append_assoc]
  exact content

/-- The stream of an archive that opens is imported. -/
theorem deserialize_wire_of_ofBytes {content : Bytes} {verified : Bool}
    (found : ofBytes content verified = .ok archive) :
    deserialize archive.wire = .ok archive.detached := by
  have accepted : archive.Accepted := .opened found
  apply ofSource_wire accepted.wellFormed fun side => (accepted.covers side).slotCount_eq
  rw [Source.remaining_ofBytes, List.append_nil]

/-- What opens is as its header declares it. -/
theorem declared_of_ofBytes {content : Bytes} {verified : Bool}
    (found : ofBytes content verified = .ok archive) :
    archive.limit = archive.header.records ∧ archive.cutoff = noCutoff ∧ archive.Counted := by
  obtain ⟨image, well, -, -, rfl⟩ := exists_image_of_ofFile found
  exact ⟨rfl, rfl, Side.forall_iff.2 ⟨well.users.length_eq, well.items.length_eq⟩⟩

/-- **Files and streams of one archive.** If an import has all the records that its header declares,
the file of its parts opens if and only if its indexes have as many entries as the header declares,
and then gives the answers of the import. And what opens is imported from the stream of its
parts. -/
theorem files_and_streams :
    (∀ bytes archive, deserialize bytes = .ok archive → archive.limit = archive.header.records →
      ∃ content, archive.image.encode = .ok content ∧
        ((∃ opened, ofBytes content false = .ok opened) ↔ archive.Counted) ∧
        ∀ opened, ofBytes content false = .ok opened →
          opened.header = archive.header ∧ opened.SameAnswers archive ∧
            (archive.cutoff = noCutoff → opened.SameContent archive)) ∧
    ∀ content verified archive, ofBytes content verified = .ok archive →
      ∃ users items, archive.users.encode = .ok users ∧ archive.items.encode = .ok items ∧
        (∃ trailing, content =
          archive.header.render ++ archive.region ++ users ++ items ++ trailing) ∧
        ∃ copy, deserialize (word32 (UInt32.ofNat headerSize) ++ archive.header.render ++ users ++
            items ++ word32 archive.header.records ++ word64 noCutoff ++
            word64 (UInt64.ofNat archive.region.length) ++ archive.region) = .ok copy ∧
          copy.SameContent archive := by
  constructor
  · intro bytes archive received all
    have arrives := arrives_of_ofSource received
    refine ⟨_, encode_image arrives.toWellFormed, ?_, ?_⟩
    · simp only [arrives.ofBytes_image_iff all, exists_and_left, exists_eq, and_true]
    · intro opened found
      obtain ⟨-, rfl⟩ := (arrives.ofBytes_image_iff all opened).1 found
      have same := sameParts_whole_image all (.inMemory archive.image.bytes)
      refine ⟨rfl, same.sameAnswers, ?_⟩
      intro unbounded
      exact ⟨rfl, rfl, same.table, same.limit, unbounded.symm⟩
  · intro content verified archive found
    have well := wellFormed_of_ofFile found
    refine ⟨_, _, encodeEntries_eq (well.ordered .user) (well.countable .user),
      encodeEntries_eq (well.ordered .item) (well.countable .item), content_eq_of_ofBytes found,
      archive.detached, ?_, sameContent_detached archive⟩
    have sent := deserialize_wire_of_ofBytes found
    obtain ⟨all, unbounded, -⟩ := declared_of_ofBytes found
    rw [wire, all, unbounded] at sent
    simp only [List.append_assoc]
    exact sent

/-- Two ratings pass verification, travel by a stream, and open from the file of what arrived. -/
theorem files_and_streams_two :
    ∃ content archive bytes copy file opened, ofBytes content true = .ok archive ∧
      deserialize bytes = .ok copy ∧ copy.image.encode = .ok file ∧
      ofBytes file false = .ok opened ∧ opened.SameContent copy := by
  have found := ofBytes_archiveOf Format.holds_two.packable true
  obtain ⟨toFile, toStream⟩ := files_and_streams
  obtain ⟨users, items, -, -, -, copy, received, same⟩ := toStream _ _ _ found
  obtain ⟨all, unbounded, counted⟩ := declared_of_ofBytes found
  rw [← same.limit, ← same.header] at all
  obtain ⟨file, encoded, opens, answers⟩ := toFile _ copy received all
  obtain ⟨opened, reopened⟩ := opens.2 (same.counted counted)
  obtain ⟨-, -, content⟩ := answers opened reopened
  exact ⟨_, _, _, copy, file, opened, found, received, encoded, reopened,
    content (same.cutoff.trans unbounded)⟩

/-- Two records of two users, where the header counts one user. -/
def miscounted : Archive where
  path := none
  modified := none
  header := ⟨.plain, 2, 1, 1⟩
  region := Format.plain.region [⟨1, 7, ⟨0⟩, none⟩, ⟨2, 7, ⟨1⟩, none⟩]
  users := ⟨[⟨1, [0]⟩, ⟨2, [1]⟩]⟩
  items := ⟨[⟨7, [0, 1]⟩]⟩
  limit := 2
  cutoff := noCutoff

/-- **A stream whose file is refused**: its header counts fewer users than its index has entries. -/
theorem not_opens_miscounted :
    deserialize miscounted.wire = .ok miscounted ∧
      miscounted.limit = miscounted.header.records ∧
      ∃ content, miscounted.image.encode = .ok content ∧
        ofBytes content false = .error (.invalidData (.entryCount 2 1)) := by
  exact ⟨by decide +kernel, rfl, miscounted.image.bytes, by decide +kernel, by decide +kernel⟩

end RatingArchive.Archive

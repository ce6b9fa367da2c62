import RatingArchive.Archive.Transport
import RatingArchive.Proofs.Index.Streaming
import RatingArchive.Proofs.WellFormed
/-!
# The written form of archives in streams

A well-formed archive is exported as `Archive.wire`, whatever takes the bytes (`exportTo_eq`). To be
imported, a stream has to begin with the written form of an archive that could arrive
(`parses_read`): one that is well formed, without a place, and with indexes that list as many slots
as there are records. So the written form is the only one that an archive has, and importing and
exporting again gives back the bytes (`export_import`).
-/

namespace RatingArchive.Archive

variable {archive : Archive}

/-- The written form of an archive. -/
def wire (archive : Archive) : Bytes :=
  word32 (UInt32.ofNat headerSize) ++ (archive.header.render ++
    (tableBytes archive.users.entries ++ (tableBytes archive.items.entries ++
      (word32 archive.limit ++ (word64 archive.cutoff ++
        (word64 (UInt64.ofNat archive.region.length) ++ archive.region))))))

theorem WellFormed.length_region_lt (h : archive.WellFormed) :
    archive.region.length < UInt64.size := by
  have count : archive.length < UInt32.size := archive.limit.toNat_lt
  have size : archive.format.recordSize ≤ 32 := by
    unfold Format.recordSize
    split <;> decide
  calc archive.region.length = archive.length * archive.format.recordSize := h.region
    _ ≤ archive.length * 32 := Nat.mul_le_mul_left _ size
    _ < UInt32.size * 32 := Nat.mul_lt_mul_of_pos_right count (by decide)
    _ ≤ UInt64.size := by decide

/-! ## Export -/

/-- The pieces of a string are all of it. -/
theorem flatten_pieces (bytes : Bytes) : (pieces bytes).flatten = bytes := by
  fun_induction pieces bytes with
  | case1 bytes none => exact (List.isEmpty_iff.1 none).symm
  | case2 bytes some ih => rw [List.flatten_cons, ih, List.take_append_drop]

/-- The parts of the written form of an archive, as they are written. -/
def parts (archive : Archive) : List Bytes :=
  [word32 (UInt32.ofNat headerSize), archive.header.render, tableBytes archive.users.entries,
    tableBytes archive.items.entries, word32 archive.limit, word64 archive.cutoff,
    word64 (UInt64.ofNat archive.region.length)] ++ pieces archive.region

theorem flatten_parts (archive : Archive) : archive.parts.flatten = archive.wire := by
  simp [parts, wire, flatten_pieces]

theorem length_wire (archive : Archive) :
    archive.wire.length = 4 + headerSize + (tableBytes archive.users.entries).length +
      (tableBytes archive.items.entries).length + (4 + 8 + 8) + archive.region.length := by
  simp only [wire, List.length_append, length_word32, length_word64, Header.length_render]
  omega

section

variable {σ : Type} [Writer σ]

theorem putTable_eq {table : IndexTable} (ordered : Ordered table.entries)
    (countable : Countable table.entries) :
    (putTable table : EStateM Error σ Nat) = do
      put (tableBytes table.entries)
      return (tableBytes table.entries).length := by
  rw [putTable, IndexTable.encode, encodeEntries_eq ordered countable]
  rfl

/-- **An export writes the parts of the written form**, and has counted their bytes. -/
theorem exportTo_eq (h : archive.WellFormed) :
    (archive.exportTo : EStateM Error σ Nat) = do
      archive.parts.forM put
      return archive.wire.length := by
  have users := putTable_eq (σ := σ) (h.ordered .user) (h.countable .user)
  have items := putTable_eq (σ := σ) (h.ordered .item) (h.countable .item)
  simp only [table] at users items
  simp only [exportTo, users, items, Header.length_render, parts, length_wire, List.cons_append,
    List.nil_append, List.forM, bind_assoc, pure_bind]

/-- If an export succeeds, it answers the length of the written form. -/
theorem exportTo_eq_ok (h : archive.WellFormed) {writer next : σ} {size : Nat}
    (written : archive.exportTo.run writer = .ok size next) : size = archive.wire.length := by
  rw [exportTo_eq h] at written
  simp only [EStateM.run, bind, EStateM.bind, pure, EStateM.pure] at written
  split at written
  · cases written
    rfl
  · cases written

end

/-- A buffer in memory takes every part. -/
theorem forM_put_memory (parts : List Bytes) (sink : MemorySink) :
    parts.forM put sink = .ok () ⟨sink.content ++ parts.flatten⟩ := by
  induction parts generalizing sink with
  | nil => simp [pure, EStateM.pure]
  | cons part parts ih =>
    show (put part >>= fun _ => parts.forM put) sink = _
    have first : put part sink = .ok () ⟨sink.content ++ part⟩ := rfl
    rw [bind_of_ok first, ih, List.flatten_cons, List.append_assoc]

/-- **An export to memory** appends the written form. -/
theorem run_exportTo_memory (h : archive.WellFormed) (sink : MemorySink) :
    archive.exportTo.run sink = .ok archive.wire.length ⟨sink.content ++ archive.wire⟩ := by
  rw [exportTo_eq h, EStateM.run, bind_of_ok (forM_put_memory archive.parts sink), flatten_parts]
  rfl

theorem serialize_eq (h : archive.WellFormed) : archive.serialize = .ok archive.wire := by
  rw [serialize, serializeLogged, run_exportTo_memory h]
  rfl

/-! ## Import -/

/-- Archives that can arrive by a stream. -/
structure Arrives (archive : Archive) : Prop extends archive.WellFormed where
  path_eq : archive.path = none
  modified_eq : archive.modified = none
  slotCount_eq : ∀ side, (archive.table side).slotCount = archive.limit.toNat

theorem parses_takePart (n : Nat) :
    Parses (takePart n) fun front bytes => bytes.length = n ∧ front = bytes := by
  apply (Source.parses_takeExactly n).of_ok_iff
  intro source bytes rest
  unfold takePart
  split
  · next found => simp [found]
  · next found => simp [found]

/-- A word of a fixed width is taken where it was written. -/
theorem parses_takeWord {α : Type} {width : Nat} {ofWord : Bytes → α} {word : α → Bytes}
    (length : ∀ w, (word w).length = width) (read : ∀ w, ofWord (word w) = w)
    (written : ∀ bytes, bytes.length = width → word (ofWord bytes) = bytes) :
    Parses (takePart width >>= fun bytes => pure (ofWord bytes)) fun front w =>
      True ∧ front = word w := by
  apply ((parses_takePart width).bind fun bytes _ => Parses.pure (ofWord bytes)).congr
  intro front w
  constructor
  · rintro ⟨bytes, _, whole, ⟨rfl, rfl⟩, rfl⟩
    rw [written bytes whole, List.append_nil]
    exact ⟨trivial, rfl⟩
  · rintro ⟨-, rfl⟩
    exact ⟨word w, [], length w, ⟨(read w).symm, rfl⟩, (List.append_nil _).symm⟩

theorem parses_takeWord32 : Parses takeWord32 fun front w => True ∧ front = word32 w :=
  parses_takeWord length_word32 ofWord32_word32 fun _ => word32_ofWord32

theorem parses_takeWord64 : Parses takeWord64 fun front w => True ∧ front = word64 w :=
  parses_takeWord length_word64 ofWord64_word64 fun _ => word64_ofWord64

theorem parses_require {α : Type} (result : Except Error α) :
    Parses (require result) fun front value => result = .ok value ∧ front = [] := by
  cases result with
  | ok value =>
    apply (Parses.pure value).congr
    intro front answer
    simp [eq_comm]
  | error error =>
    apply (Parses.throw error).congr
    intro front value
    simp

theorem parses_check (check : Except Error Unit) :
    Parses (require check) fun front _ => check = .ok () ∧ front = [] :=
  parses_require check

theorem ensure_bind {σ β : Type} {holds : Prop} [Decidable holds] (h : holds) (fault : DataFault)
    (next : Unit → EStateM Error σ β) : (ensure holds fault >>= next) = next () := by
  rw [ensure, if_pos h, pure_bind]

theorem parses_ensure (holds : Prop) [Decidable holds] (fault : DataFault) :
    Parses (ensure holds fault) fun front _ => holds ∧ front = [] := by
  unfold ensure
  by_cases h : holds
  · rw [if_pos h]
    apply (Parses.pure ()).congr
    intro front _
    simp [h]
  · rw [if_neg h]
    apply (parses_check (.error (.invalidData fault))).congr
    intro front _
    simp [h]

/-- A header is taken where a valid one was written. -/
theorem parses_takeHeader :
    Parses takeHeader fun front header => header.Valid ∧ front = header.render := by
  apply ((parses_takePart headerSize).bind fun bytes _ => parses_require (Header.parse bytes)).congr
  intro front header
  constructor
  · rintro ⟨bytes, _, whole, ⟨parsed, rfl⟩, rfl⟩
    obtain ⟨valid, rest, rfl⟩ := Header.parse_eq_ok_iff.1 parsed
    rw [List.length_append, Header.length_render] at whole
    have none : rest = [] := List.eq_nil_of_length_eq_zero (by omega)
    rw [none, List.append_nil, List.append_nil]
    exact ⟨valid, rfl⟩
  · rintro ⟨valid, rfl⟩
    refine ⟨header.render, [], Header.length_render header, ⟨?_, rfl⟩, (List.append_nil _).symm⟩
    exact Header.parse_eq_ok_iff.2 ⟨valid, [], (List.append_nil _).symm⟩

/-- Pieces are taken until there are as many bytes as announced. -/
theorem parses_takeRecords (n : Nat) :
    Parses (takeRecords n) fun front bytes => bytes.length = n ∧ front = bytes := by
  fun_induction takeRecords n with
  | case1 =>
    apply (Parses.pure []).congr
    intro front bytes
    rw [List.length_eq_zero_iff]
    constructor
    · rintro ⟨rfl, rfl⟩
      exact ⟨rfl, rfl⟩
    · rintro ⟨rfl, rfl⟩
      exact ⟨rfl, rfl⟩
  | case2 n some ih =>
    apply ((parses_takePart (min n pieceSize)).bind fun piece _ => ih.bind fun rest _ =>
      Parses.pure (piece ++ rest)).congr
    intro front bytes
    constructor
    · rintro ⟨piece, _, first, ⟨rest, _, last, ⟨rfl, rfl⟩, rfl⟩, rfl⟩
      rw [List.length_append, first, last, List.append_nil]
      exact ⟨by omega, rfl⟩
    · rintro ⟨rfl, rfl⟩
      refine ⟨front.take pieceSize, front.drop pieceSize, ?_,
        ⟨front.drop pieceSize, [], ?_, ?_, ?_⟩, (List.take_append_drop _ _).symm⟩
      · rw [List.length_take, Nat.min_comm]
      · rw [List.length_drop]
        omega
      · exact ⟨(List.take_append_drop _ _).symm, rfl⟩
      · rw [List.append_nil]

/-- **An archive is read from a stream where one was written that can arrive**, and nowhere else. -/
theorem parses_read :
    Parses read fun front archive => archive.Arrives ∧ front = archive.wire := by
  refine (parses_takeWord32.bind fun size _ => (parses_ensure _ _).check_bind fun _ =>
    parses_takeHeader.bind fun header _ => IndexTable.parses_readStream.bind fun users _ =>
    IndexTable.parses_readStream.bind fun items _ => parses_takeWord32.bind fun limit _ =>
    parses_takeWord64.bind fun cutoff _ => parses_takeWord64.bind fun dataSize _ =>
    (parses_ensure _ _).check_bind fun _ => (parses_ensure _ _).check_bind fun _ =>
    (parses_takeRecords _).bind fun region _ => (parses_check _).check_bind fun _ =>
    (parses_check _).check_bind fun _ => Parses.pure _).congr ?_
  intro front archive
  constructor
  · rintro ⟨size, _, -, ⟨sized, header, _, valid, ⟨users, _, ⟨usersOrdered, usersCountable⟩,
      ⟨items, _, ⟨itemsOrdered, itemsCountable⟩, ⟨limit, _, -, ⟨cutoff, _, -, ⟨dataSize, _, -,
      ⟨limit_le, whole, region, _, count, ⟨usersCover, itemsCover, rfl, rfl⟩, rfl⟩, rfl⟩, rfl⟩,
      rfl⟩, rfl⟩, rfl⟩, rfl⟩, rfl⟩
    obtain ⟨usersBelow, usersCount⟩ := (IndexTable.checkCoverage_eq_ok_iff usersOrdered _ _).1
      usersCover
    obtain ⟨itemsBelow, itemsCount⟩ := (IndexTable.checkCoverage_eq_ok_iff itemsOrdered _ _).1
      itemsCover
    refine ⟨⟨⟨valid, limit_le, count.trans whole, ?_, ?_, ?_⟩, rfl, rfl, ?_⟩, ?_⟩
    · exact Side.forall_iff.2 ⟨usersOrdered, itemsOrdered⟩
    · exact Side.forall_iff.2 ⟨usersCountable, itemsCountable⟩
    · exact Side.forall_iff.2 ⟨usersBelow, itemsBelow⟩
    · exact Side.forall_iff.2 ⟨usersCount, itemsCount⟩
    · rw [wire, ← sized, count, UInt32.ofNat_toNat, UInt64.ofNat_toNat, List.append_nil]
  · rintro ⟨h, rfl⟩
    have dataSize := UInt64.toNat_ofNat_of_lt' h.length_region_lt
    have covered (side : Side) := (IndexTable.checkCoverage_eq_ok_iff (h.ordered side) side _).2
      ⟨h.below side, h.slotCount_eq side⟩
    refine ⟨_, _, trivial, ⟨rfl, _, _, h.header, ⟨archive.users, _,
      ⟨h.ordered .user, h.countable .user⟩, ⟨archive.items, _, ⟨h.ordered .item, h.countable .item⟩,
      ⟨_, _, trivial, ⟨_, _, trivial, ⟨_, _, trivial, ⟨h.limit_le, dataSize.trans h.region,
      archive.region, [], dataSize.symm, ⟨covered .user, covered .item, ?_, rfl⟩, ?_⟩, rfl⟩, rfl⟩,
      rfl⟩, rfl⟩, rfl⟩, rfl⟩, rfl⟩
    · obtain ⟨path, modified, header, region, users, items, limit, cutoff⟩ := archive
      cases h.path_eq
      cases h.modified_eq
      rfl
    · rw [List.append_nil]

theorem arrives_of_ofSource {source : Source} (received : ofSource source = .ok archive) :
    archive.Arrives := by
  unfold ofSource at received
  split at received
  · next imported =>
    cases received
    obtain ⟨_, ⟨arrives, -⟩, -⟩ := parses_read.taken imported
    exact arrives
  · cases received

/-! ## Import and export -/

/-- The archive without its place. -/
def detached (archive : Archive) : Archive := { archive with path := none, modified := none }

theorem arrives_detached (h : archive.WellFormed)
    (count : ∀ side, (archive.table side).slotCount = archive.limit.toNat) :
    archive.detached.Arrives where
  header := h.header
  limit_le := h.limit_le
  region := h.region
  ordered := Side.forall_iff.2 ⟨h.ordered .user, h.ordered .item⟩
  countable := Side.forall_iff.2 ⟨h.countable .user, h.countable .item⟩
  below := Side.forall_iff.2 ⟨h.below .user, h.below .item⟩
  path_eq := rfl
  modified_eq := rfl
  slotCount_eq := Side.forall_iff.2 ⟨count .user, count .item⟩

/-- **Exporting and importing** leaves an archive without its place, if its indexes list as many
slots as there are records. -/
theorem read_wire (h : archive.WellFormed)
    (count : ∀ side, (archive.table side).slotCount = archive.limit.toNat) {source : Source}
    {tail : Bytes} (begins : source.remaining = archive.wire ++ tail) :
    ∃ rest, read source = .ok archive.detached rest ∧ rest.remaining = tail :=
  parses_read.run ⟨arrives_detached h count, rfl⟩ begins

theorem ofSource_wire (h : archive.WellFormed)
    (count : ∀ side, (archive.table side).slotCount = archive.limit.toNat) {source : Source}
    {tail : Bytes} (begins : source.remaining = archive.wire ++ tail) :
    ofSource source = .ok archive.detached := by
  obtain ⟨rest, found, -⟩ := read_wire h count begins
  rw [ofSource, EStateM.run, found]

/-- **Importing and exporting again** gives back the bytes that were taken off the stream, and
counts them, whatever they are written to. -/
theorem export_import {source rest : Source} (imported : read.run source = .ok archive rest) :
    ∃ front, source.remaining = front ++ rest.remaining ∧ archive.serialize = .ok front ∧
      (∀ sink : MemorySink,
        archive.exportTo.run sink = .ok front.length ⟨sink.content ++ front⟩) ∧
      ∀ (σ : Type) [Writer σ] (writer next : σ) (size : Nat),
        archive.exportTo.run writer = .ok size next → size = front.length := by
  obtain ⟨_, ⟨arrives, rfl⟩, begins⟩ := parses_read.taken imported
  refine ⟨archive.wire, begins, serialize_eq arrives.toWellFormed, ?_, ?_⟩
  · exact run_exportTo_memory arrives.toWellFormed
  · intro σ _ writer next size written
    exact exportTo_eq_ok arrives.toWellFormed written

/-- The written form of two ratings, with one more byte behind it. -/
theorem export_import_two :
    ∃ (archive : Archive) (source rest : Source), read.run source = .ok archive rest ∧
      rest.remaining = [42] ∧
      ∃ front, source.remaining = front ++ [42] ∧ archive.serialize = .ok front := by
  have shown := shows_whole Format.holds_two (.inMemory [])
  have well := shown.wellFormed (Image.valid_ofRatings rfl (by decide)) (UInt32.le_refl _)
  have count (side : Side) := (shown.covers side).slotCount_eq
  obtain ⟨rest, imported, left⟩ := read_wire well count (Source.remaining_ofBytes (_ ++ [42]))
  obtain ⟨front, begins, sent, -⟩ := export_import imported
  rw [left] at begins
  exact ⟨_, _, rest, imported, left, front, begins, sent⟩

end RatingArchive.Archive

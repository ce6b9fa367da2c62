import RatingArchive.Proofs.Bounds
import RatingArchive.Proofs.Index.Agreement
/-!
# Imports that break off

An import takes exactly the written form of an archive off a stream (`Archive.takes_read`), and goes
on to its last checks. So it does not matter how the stream is cut into chunks, and only that an
index does not cover the records can be wrong with it (`Archive.ofSource_wire_eq`). A stream that
ends or fails before is never imported, wherever that is: in the middle of a word, of a run or of a
piece of the records, or between them (`Archive.imports_whole_of_views`).
-/

namespace RatingArchive.Archive

variable {archive view start : Archive}

theorem takes_takePart {n : Nat} {bytes : Bytes} (length : bytes.length = n) :
    Takes (takePart n) bytes (.ok bytes) := by
  apply takes_piece .endInTransport _ _ length
  · intro source bytes rest taken
    rw [takePart, taken]
  · intro source failure rest failed
    rw [takePart, failed]

theorem takes_takeWord32 (w : UInt32) : Takes takeWord32 (word32 w) (.ok w) := by
  refine (takes_takePart (length_word32 w)).bind_nil ?_
  rw [ofWord32_word32]
  exact Takes.pure w

theorem takes_takeWord64 (w : UInt64) : Takes takeWord64 (word64 w) (.ok w) := by
  refine (takes_takePart (length_word64 w)).bind_nil ?_
  rw [ofWord64_word64]
  exact Takes.pure w

theorem takes_require {α : Type} (result : Except Error α) : Takes (require result) [] result := by
  cases result with
  | ok value => exact Takes.pure value
  | error error => exact Takes.throw error

/-- A check takes nothing, and neither does what follows if it fails. -/
theorem takes_check {α : Type} {next : EStateM Error Source α} {answer : Except Error α}
    {check : Except Error Unit} (h : Takes next [] answer) :
    Takes (require check >>= fun _ => next) [] (check >>= fun _ => answer) := by
  have checked := takes_require check
  cases check with
  | error error => exact checked.bind_error
  | ok _ => exact checked.bind h

theorem takes_takeHeader {header : Header} (valid : header.Valid) :
    Takes takeHeader header.render (.ok header) := by
  have parsed : Header.parse header.render = .ok header :=
    Header.parse_eq_ok_iff.2 ⟨valid, [], (List.append_nil _).symm⟩
  refine (takes_takePart (Header.length_render header)).bind_nil ?_
  rw [← parsed]
  exact takes_require _

/-- **Records are taken piece by piece**, as many bytes as announced. -/
theorem takes_takeRecords {n : Nat} {bytes : Bytes} (length : bytes.length = n) :
    Takes (takeRecords n) bytes (.ok bytes) := by
  fun_induction takeRecords n generalizing bytes with
  | case1 =>
    rw [List.eq_nil_of_length_eq_zero length]
    exact Takes.pure []
  | case2 n some ih =>
    obtain ⟨piece, rest, first, last, rfl⟩ : ∃ piece rest : Bytes,
        piece.length = min n pieceSize ∧ rest.length = n - min n pieceSize ∧
          bytes = piece ++ rest := by
      refine ⟨bytes.take pieceSize, bytes.drop pieceSize, ?_, ?_, (List.take_append_drop _ _).symm⟩
      · rw [List.length_take, length, Nat.min_comm]
      · rw [List.length_drop, length]
        omega
    exact (takes_takePart first).bind ((ih last).bind_nil (Takes.pure (piece ++ rest)))

/-- **An import takes the written form** of a well-formed archive, and then checks its indexes. -/
theorem takes_read (h : archive.WellFormed) : Takes read archive.wire (do
    archive.users.checkCoverage .user archive.limit
    archive.items.checkCoverage .item archive.limit
    return archive.detached) := by
  have sized : (UInt32.ofNat headerSize).toNat = headerSize := rfl
  have dataSize := UInt64.toNat_ofNat_of_lt' h.length_region_lt
  have whole : (UInt64.ofNat archive.region.length).toNat =
      archive.limit.toNat * archive.header.format.recordSize := dataSize.trans h.region
  have users : Takes IndexTable.readStream (tableBytes archive.users.entries) (.ok archive.users) :=
    IndexTable.takes_tableBytes (h.ordered .user) (h.countable .user)
  have items : Takes IndexTable.readStream (tableBytes archive.items.entries) (.ok archive.items) :=
    IndexTable.takes_tableBytes (h.ordered .item) (h.countable .item)
  unfold read wire
  refine (takes_takeWord32 _).bind ?_
  rw [ensure_bind sized]
  refine (takes_takeHeader h.header).bind (users.bind (items.bind ?_))
  refine (takes_takeWord32 _).bind ((takes_takeWord64 _).bind ((takes_takeWord64 _).bind ?_))
  simp only [ensure_bind h.limit_le, ensure_bind whole, dataSize]
  refine (takes_takeRecords rfl).bind_nil ?_
  exact takes_check (takes_check (Takes.pure archive.detached))

theorem ofSource_eq (source : Source) : ofSource source = answerOf read source := by
  unfold ofSource answerOf
  rw [EStateM.run]
  cases read source <;> rfl

/-- **An import of the written form** of a well-formed archive goes on to its last checks: only
that an index does not cover the records can be wrong with it. -/
theorem ofSource_wire_eq (h : archive.WellFormed) {source : Source} {tail : Bytes}
    (begins : source.remaining = archive.wire ++ tail) :
    ofSource source = do
      archive.users.checkCoverage .user archive.limit
      archive.items.checkCoverage .item archive.limit
      return archive.detached := by
  rw [ofSource_eq]
  exact ((takes_read h).whole begins).1

theorem deserialize_wire_eq (h : archive.WellFormed) :
    deserialize archive.wire = do
      archive.users.checkCoverage .user archive.limit
      archive.items.checkCoverage .item archive.limit
      return archive.detached := by
  apply ofSource_wire_eq h
  rw [Source.remaining_ofBytes, List.append_nil]

/-- A stream that holds only the first bytes of the written form is reported as it breaks off. -/
theorem breaksOff_of_take (h : archive.WellFormed) {k : Nat} (cut : k < archive.wire.length)
    {source : Source} (delivered : source.remaining = archive.wire.take k) :
    ∃ error, ofSource source = .error error ∧ source.BreaksOff error := by
  rw [ofSource_eq]
  apply (takes_read h).short
  · rw [delivered]
    exact List.take_prefix _ _
  · rw [delivered, List.length_take_of_le (Nat.le_of_lt cut)]
    exact cut

/-- **No import of a part.** Whatever was accepted and cut down, its export is imported as a whole
or not at all. If only its first bytes arrive, the data are invalid; and if the stream fails behind
them, this is reported. If all of it arrives, the answer does not depend on the chunks. -/
theorem imports_whole_of_views (accepted : start.Accepted)
    (views : Relation.ReflTransGen Cuts start view) :
    ∃ bytes, view.serialize = .ok bytes ∧
      (∀ k < bytes.length,
        (∃ fault, deserialize (bytes.take k) = .error (.invalidData fault)) ∧
        ∀ source, source.remaining = bytes.take k →
          (source.fault = none → ∃ fault, ofSource source = .error (.invalidData fault)) ∧
          ∀ failure, source.fault = some failure → failure.kind = .other →
            ofSource source = .error (.io failure)) ∧
      ∀ source tail, source.remaining = bytes ++ tail → ofSource source = deserialize bytes := by
  obtain ⟨well, -⟩ := views_inv accepted.wellFormed views
  refine ⟨view.wire, serialize_eq well, ?_, ?_⟩
  · intro k cut
    have ends {source : Source} (delivered : source.remaining = view.wire.take k)
        (none : source.fault = none) : ∃ fault, ofSource source = .error (.invalidData fault) := by
      obtain ⟨error, failed, breaks⟩ := breaksOff_of_take well cut delivered
      rw [Source.BreaksOff, none] at breaks
      obtain ⟨fault, rfl⟩ := breaks
      exact ⟨fault, failed⟩
    refine ⟨ends (Source.remaining_ofBytes _) rfl, ?_⟩
    intro source delivered
    refine ⟨ends delivered, ?_⟩
    intro failure fails other
    obtain ⟨error, failed, breaks⟩ := breaksOff_of_take well cut delivered
    rw [Source.BreaksOff, fails] at breaks
    rw [failed, breaks (by rw [other]; decide)]
  · intro source tail begins
    rw [ofSource_wire_eq well begins, deserialize_wire_eq well]

/-- A window of two ratings, of which 30 bytes arrive. -/
theorem imports_whole_of_views_two :
    ∃ (content : Bytes) (start view : Archive), ofBytes content true = .ok start ∧
      start.window 5 = .ok view ∧
      ∃ bytes, view.serialize = .ok bytes ∧
        (∃ fault, deserialize (bytes.take 30) = .error (.invalidData fault)) ∧
        ofSource ⟨[bytes.take 30], some (.device .other "lost")⟩ =
          .error (.io (.device .other "lost")) := by
  have opened := ofBytes_archiveOf Format.holds_two.packable true
  have well := wellFormed_of_ofFile opened
  obtain ⟨view, cut⟩ := well.inBounds.window rfl 5
  obtain ⟨bytes, sent, parts, -⟩ := imports_whole_of_views (.opened opened) (.single ⟨5, cut⟩)
  have long : 30 < bytes.length := by
    cases (serialize_eq (well.window cut)).symm.trans sent
    rw [length_wire, headerSize]
    omega
  obtain ⟨invalid, lost⟩ := parts 30 long
  obtain ⟨-, lost⟩ := lost ⟨[bytes.take 30], some (.device .other "lost")⟩ (List.append_nil _)
  exact ⟨_, _, view, opened, cut, bytes, sent, invalid, lost _ rfl rfl⟩

end RatingArchive.Archive

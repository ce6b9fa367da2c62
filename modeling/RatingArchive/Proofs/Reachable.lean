import RatingArchive.Proofs.Transport
import RatingArchive.Proofs.Windows
/-!
# Archives that were cut down and transported

A genuine archive stays the archive of its records, however often it is cut down or sent through a
stream (`Reachable.exists_shows`). So its indexes list as many slots as there are records, also when
it is a window, which is what an import asks of them: it arrives as it was sent (`import_export`).
-/

namespace RatingArchive.Archive

/-- What becomes of genuine archives by windows and by export and import. -/
inductive Reachable : Archive → Prop where
  | genuine {archive : Archive} (genuine : archive.Genuine) : Reachable archive
  | window {archive view : Archive} {time : UInt64} (h : Reachable archive)
      (cut : archive.window time = .ok view) : Reachable view
  | transport {archive copy : Archive} {bytes tail : Bytes} {source : Source}
      (h : Reachable archive) (sent : archive.serialize = .ok bytes)
      (carried : source.remaining = bytes ++ tail) (received : ofSource source = .ok copy) :
      Reachable copy

variable {archive other : Archive} {records : List Rating}

/-! ## Archives that differ in their place -/

/-- Two archives have the same content, wherever they are. -/
structure SameContent (archive other : Archive) : Prop where
  header : archive.header = other.header
  region : archive.region = other.region
  table : ∀ side, archive.table side = other.table side
  limit : archive.limit = other.limit
  cutoff : archive.cutoff = other.cutoff

theorem sameContent_detached (archive : Archive) : archive.detached.SameContent archive where
  header := rfl
  region := rfl
  table side := by cases side <;> rfl
  limit := rfl
  cutoff := rfl

theorem SameContent.sameParts (h : archive.SameContent other) : archive.SameParts other where
  format := by rw [format, format, h.header]
  region := h.region
  table := h.table
  limit := h.limit

/-- A window does not depend on the place of the archive. -/
theorem window_detached (archive : Archive) (time : UInt64) :
    archive.detached.window time = (archive.window time).map detached := by
  unfold window
  have stamps : archive.detached.format = archive.format := rfl
  have bound : archive.detached.cutoff = archive.cutoff := rfl
  rw [stamps, bound]
  split
  · rfl
  · split <;> rfl

/-! ## Archives of their records -/

theorem Genuine.shows_wellFormed (h : archive.Genuine) :
    ∃ records, archive.Shows records ∧ archive.WellFormed := by
  obtain ⟨format, records, file, holds, rfl⟩ := h.exists_whole
  have shown := shows_whole holds file
  exact ⟨records, shown, shown.wellFormed (Image.valid_ofRatings holds.known holds.small)
    (UInt32.le_refl _)⟩

/-- A window shows the first of the records. -/
theorem Shows.window {view : Archive} {time : UInt64} (h : archive.Shows records)
    (cut : archive.window time = .ok view) : ∃ n, view.Shows (records.take n) := by
  obtain ⟨-, ⟨-, rfl⟩ | ⟨-, rfl⟩⟩ := window_eq_ok_iff.1 cut
  · exact ⟨records.length, by rwa [List.take_length]⟩
  · refine ⟨_, h.restrict ?_ time⟩
    rw [← h.limit]
    exact UInt32.le_iff_toNat_le.1 (archive.countBefore_le_limit time)

theorem Shows.detached (h : archive.Shows records) : archive.detached.Shows records where
  small := h.small
  stored := h.stored
  region := h.region
  limit := h.limit
  table := Side.forall_iff.2 ⟨h.table .user, h.table .item⟩

theorem Shows.ofSource_wire (h : archive.Shows records) (well : archive.WellFormed)
    {source : Source} {tail : Bytes} (begins : source.remaining = archive.wire ++ tail) :
    ofSource source = .ok archive.detached :=
  Archive.ofSource_wire well (fun side => (h.covers side).slotCount_eq) begins

/-- **What windows and transport leave** is the archive of some records. -/
theorem Reachable.exists_shows (h : Reachable archive) :
    ∃ records, archive.Shows records ∧ archive.WellFormed := by
  induction h with
  | genuine genuine => exact genuine.shows_wellFormed
  | window _ cut ih =>
    obtain ⟨records, shown, well⟩ := ih
    obtain ⟨n, shown⟩ := shown.window cut
    exact ⟨_, shown, well.window cut⟩
  | transport _ sent carried received ih =>
    obtain ⟨records, shown, well⟩ := ih
    cases (serialize_eq well).symm.trans sent
    cases (shown.ofSource_wire well carried).symm.trans received
    exact ⟨records, shown.detached, shown.detached.wellFormed well.header well.limit_le⟩

/-- **Exporting and importing** loses nothing but the place of an archive. The copy gives the same
answers, and so do its windows. -/
theorem import_export (h : Reachable archive) :
    ∃ bytes copy, archive.serialize = .ok bytes ∧ deserialize bytes = .ok copy ∧
      copy.SameContent archive ∧ copy.SameAnswers archive ∧
      copy.limitTimestamp = archive.limitTimestamp ∧ copy.ratings = archive.ratings ∧
      (∀ side, copy.groups side = archive.groups side) ∧
      ∀ time,
        (∀ error, copy.window time = .error error ↔ archive.window time = .error error) ∧
        ∀ view, archive.window time = .ok view → ∃ copied, copy.window time = .ok copied ∧
          copied.SameContent view ∧ copied.SameAnswers view := by
  obtain ⟨records, shown, well⟩ := h.exists_shows
  have same := sameContent_detached archive
  have alike := same.sameParts
  refine ⟨archive.wire, archive.detached, serialize_eq well, ?_, same, alike.sameAnswers, rfl,
    alike.ratings_eq, alike.groups_eq, ?_⟩
  · apply shown.ofSource_wire well
    rw [Source.remaining_ofBytes, List.append_nil]
  · intro time
    rw [window_detached]
    cases archive.window time with
    | error error => exact ⟨fun _ => by simp [Except.map], nofun⟩
    | ok view =>
      refine ⟨fun _ => by simp [Except.map], ?_⟩
      intro view' found
      cases found
      have same := sameContent_detached view
      exact ⟨view.detached, rfl, same, same.sameParts.sameAnswers⟩

/-- Two ratings, of which the later one is cut off before the export. -/
theorem import_export_two :
    ∃ archive view : Archive, archive.Genuine ∧ archive.window 5 = .ok view ∧
      view.ratings.toList = [⟨2, 7, ⟨1⟩, some 4⟩] ∧
      ∃ bytes copy, view.serialize = .ok bytes ∧ deserialize bytes = .ok copy ∧
        copy.SameAnswers view := by
  obtain ⟨archive, view, genuine, cut, -, left⟩ := exists_window Format.holds_two 5
  have reached : view.Reachable := .window (.genuine genuine) cut
  obtain ⟨bytes, copy, sent, received, -, same, -⟩ := import_export reached
  exact ⟨archive, view, genuine, cut, left.toList_ratings, bytes, copy, sent, received, same⟩

end RatingArchive.Archive

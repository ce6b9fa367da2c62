import RatingArchive.Archive.Window
import RatingArchive.Proofs.RoundTrip
/-!
# Windows are archives of the earlier records

A window shows the records before its cutoff, and nothing else about it depends on how it was cut:
windows of windows lead to the archive `Archive.before` of the smallest cutoff
(`Archive.foldlM_window`). It answers like an archive that was packed from those records alone
(`Archive.windows_like_packed`).
-/

namespace RatingArchive

/-- The smallest cutoff of a list, or that of an archive without one. -/
def earliest (cutoffs : List UInt64) : UInt64 := cutoffs.foldl min Archive.noCutoff

theorem le_foldl_min_iff {cutoffs : List UInt64} {time first : UInt64} :
    time ≤ cutoffs.foldl min first ↔ time ≤ first ∧ ∀ cutoff ∈ cutoffs, time ≤ cutoff := by
  induction cutoffs generalizing first with
  | nil => simp
  | cons cutoff cutoffs ih =>
    rw [List.foldl_cons, ih, Std.le_min_iff, List.forall_mem_cons, and_assoc]

/-- The order and the repetition of cutoffs do not matter. -/
theorem earliest_eq_of_mem_iff {cutoffs others : List UInt64}
    (same : ∀ time, time ∈ others ↔ time ∈ cutoffs) : earliest others = earliest cutoffs := by
  have bound (time : UInt64) : time ≤ earliest others ↔ time ≤ earliest cutoffs := by
    simp only [earliest, le_foldl_min_iff, same]
  exact UInt64.le_antisymm ((bound _).1 (UInt64.le_refl _)) ((bound _).2 (UInt64.le_refl _))

theorem Rating.isBefore_iff {rating : Rating} (h : rating.timestamp.isSome = true) (time : UInt64) :
    rating.isBefore time = true ↔ rating.timestamp.getD 0 < time := by
  obtain ⟨stamp, present⟩ := Option.isSome_iff_exists.1 h
  simp [Rating.isBefore, present]

namespace Archive

/-- Archives that a packer has made, or that have passed verification. -/
inductive Genuine (archive : Archive) : Prop where
  | packed {ratings : List Rating} {format : Format} {file : File} {verified : Bool}
      (packed : pack ratings format = .ok file.content)
      (opened : ofFile file verified = .ok archive)
  | verified {file : File} (opened : ofFile file true = .ok archive)

/-- A genuine archive shows the records of an image, all of them. -/
theorem Genuine.exists_whole {archive : Archive} (h : archive.Genuine) :
    ∃ format records file, Format.Holds format records ∧
      archive = whole (Image.ofRatings format records) file := by
  cases h with
  | verified opened =>
    obtain ⟨format, records, trailing, holds, -, rfl⟩ := ofFile_verified opened
    exact ⟨format, records, _, holds, rfl⟩
  | @packed ratings format file verified packed opened =>
    obtain ⟨small, admitted, whole⟩ := pack_eq_ok_iff.1 packed
    obtain ⟨image, parsed, -⟩ := ofFile_eq_ok_iff.1 opened
    obtain ⟨well, content⟩ := Image.parse_eq_ok_iff.1 parsed
    have known := well.header.known
    rw [Header.format_eq_of_append_eq (content.symm.trans whole)] at known
    have holds := Format.holds_arranged known small admitted
    have again := ofFile_bytes_append holds (whole.trans (List.append_nil _).symm) verified
    cases opened.symm.trans again
    exact ⟨format, _, file, holds, rfl⟩

/-! ## Cutting an archive -/

variable {archive : Archive} {records : List Rating}

/-- The records of an archive before a cutoff; all of them if there is no cutoff. -/
def visible (records : List Rating) (cutoff : UInt64) : List Rating :=
  if cutoff = noCutoff then records else records.filter (·.isBefore cutoff)

/-- The first records of an archive are read as before. -/
theorem Reads.restrict (h : archive.Reads records) {limit : UInt32}
    (inside : limit.toNat ≤ records.length) (cutoff : UInt64) :
    (archive.restrict limit cutoff).Reads (records.take limit.toNat) where
  small := Nat.le_trans (List.length_take_le' _ _) h.small
  stored rating mem := h.stored rating (List.mem_of_mem_take mem)
  region := by
    show archive.region.take _ = _
    rw [h.region, Format.take_region]
    rfl
  limit := by
    rw [List.length_take, Nat.min_eq_left inside]
    rfl

/-- The first records of an archive. -/
theorem Shows.restrict (h : archive.Shows records) {limit : UInt32}
    (inside : limit.toNat ≤ records.length) (cutoff : UInt64) :
    (archive.restrict limit cutoff).Shows (records.take limit.toNat) where
  toReads := h.toReads.restrict inside cutoff
  table side := by
    have cut : (IndexTable.ofRatings side records).below limit =
        IndexTable.ofRatings side (records.take limit.toNat) :=
      IndexTable.below_ofRatings (Nat.le_of_lt (lt_size_of_small h.small)) limit
    rw [← h.table side] at cut
    cases side <;> exact cut

/-- **The cutoff is found by halving**, since the records are in timestamp order. -/
theorem Shows.take_countBefore (h : archive.Shows records)
    (stamped : archive.format.hasTimestamps = true)
    (sorted : records.Pairwise fun a b => a.notLater b = true) (time : UInt64) :
    records.take (archive.countBefore time) = records.filter (·.isBefore time) := by
  have some (rating : Rating) (mem : rating ∈ records) : rating.timestamp.isSome = true :=
    (h.stored rating mem).trans stamped
  have count : archive.countBefore time =
      lowerBound records.length fun slot => compare time (archive.timestampAt slot) := by
    rw [countBefore, Archive.length, h.limit]
  rw [count]
  apply take_lowerBound
  · intro i
    rw [Std.compare_eq_gt, h.timestampAt i.isLt]
    exact (Rating.isBefore_iff (some _ (List.getElem_mem i.isLt)) time).symm
  · apply sorted.imp_of_mem
    intro a b ha hb le before
    rw [Rating.notLater_iff (some a ha) (some b hb)] at le
    rw [Rating.isBefore_iff (some a ha)]
    rw [Rating.isBefore_iff (some b hb)] at before
    exact UInt64.lt_of_le_of_lt le before

/-- The part of an archive before a cutoff, if these are its records. -/
def before (archive : Archive) (records : List Rating) (cutoff : UInt64) : Archive :=
  { archive with
    region := archive.format.region (visible records cutoff)
    users := IndexTable.ofRatings .user (visible records cutoff)
    items := IndexTable.ofRatings .item (visible records cutoff)
    limit := UInt32.ofNat (visible records cutoff).length
    cutoff }

theorem visible_sublist (records : List Rating) (cutoff : UInt64) :
    (visible records cutoff).Sublist records := by
  unfold visible
  split
  · exact List.Sublist.refl _
  · exact List.filter_sublist

theorem shows_before (h : archive.Shows records) (cutoff : UInt64) :
    (archive.before records cutoff).Shows (visible records cutoff) := by
  have small := Nat.le_trans (visible_sublist records cutoff).length_le h.small
  refine ⟨⟨small, ?_, rfl, ?_⟩, ?_⟩
  · intro rating mem
    exact h.stored rating ((visible_sublist records cutoff).subset mem)
  · exact UInt32.toNat_ofNat_of_lt' (lt_size_of_small small)
  · intro side
    cases side <;> rfl

/-- A window is the part of an archive that it shows. -/
theorem Shows.eq_before {view : Archive} {cutoff : UInt64}
    (shows : view.Shows (visible records cutoff)) (path : view.path = archive.path)
    (modified : view.modified = archive.modified) (header : view.header = archive.header)
    (until_eq : view.cutoff = cutoff) : view = archive.before records cutoff := by
  have region : view.region = archive.format.region (visible records cutoff) := by
    rw [shows.region, Archive.format, header]
    rfl
  have users := shows.table .user
  have items := shows.table .item
  have limit : view.limit = UInt32.ofNat (visible records cutoff).length := by
    rw [← shows.limit, UInt32.ofNat_toNat]
  obtain ⟨viewPath, viewModified, viewHeader, viewRegion, viewUsers, viewItems, viewLimit,
    viewCutoff⟩ := view
  simp only [Archive.table] at users items
  simp only at path modified header until_eq region limit
  subst path modified header until_eq region users items limit
  rfl

/-- The whole archive is the part before no cutoff. -/
theorem Shows.before_noCutoff (h : archive.Shows records) (whole : archive.cutoff = noCutoff) :
    archive.before records noCutoff = archive := by
  have all : visible records noCutoff = records := if_pos rfl
  rw [← all] at h
  exact (h.eq_before rfl rfl rfl whole).symm

theorem ne_noCutoff_of_lt {time cutoff : UInt64} (earlier : time < cutoff) : time ≠ noCutoff := by
  rintro rfl
  have small := cutoff.toNat_lt
  rw [UInt64.lt_iff_toNat_lt] at earlier
  have largest : noCutoff.toNat = 2 ^ 64 - 1 := rfl
  omega

/-- Cutting twice leaves what is before the smaller cutoff. -/
theorem filter_visible {cutoff time : UInt64} (earlier : time < cutoff) (records : List Rating) :
    (visible records cutoff).filter (·.isBefore time) = visible records time := by
  have last : visible records time = records.filter (·.isBefore time) :=
    if_neg (ne_noCutoff_of_lt earlier)
  rw [last]
  unfold visible
  split
  · rfl
  · rw [List.filter_filter]
    apply List.filter_congr
    intro rating _
    unfold Rating.isBefore
    cases rating.timestamp with
    | none => rfl
    | some stamp =>
      simp only [Bool.and_eq_left_iff_imp, decide_eq_true_eq]
      intro before
      exact UInt64.lt_trans before earlier

/-- **One cut**: the cutoff of a window only moves down. -/
theorem window_before (h : archive.Shows records) (stamped : archive.format.hasTimestamps = true)
    (sorted : records.Pairwise fun a b => a.notLater b = true) (cutoff time : UInt64) :
    (archive.before records cutoff).window time =
      .ok (archive.before records (min cutoff time)) := by
  have shown := shows_before h cutoff
  have sorted := sorted.sublist (visible_sublist records cutoff)
  have stamped : (archive.before records cutoff).format.hasTimestamps = true := stamped
  have bound : (archive.before records cutoff).cutoff = cutoff := rfl
  unfold window
  rw [if_neg (by simpa using stamped), Std.min_eq_if, bound]
  by_cases later : cutoff ≤ time
  · rw [if_pos later, if_pos later]
  · rw [if_neg later, if_neg later]
    have earlier : time < cutoff := UInt64.not_le.1 later
    -- the search runs over the records that are left, and `filter_visible` takes it back to all
    have count : (archive.before records cutoff).countBefore time ≤
        (visible records cutoff).length := by
      rw [← shown.limit]
      exact lowerBound_le _ _
    have small : (archive.before records cutoff).countBefore time < UInt32.size :=
      lt_size_of_small (Nat.le_trans count shown.small)
    have limit := UInt32.toNat_ofNat_of_lt' small
    have cut := shown.restrict (by rwa [limit]) time
    rw [limit, shown.take_countBefore stamped sorted time, filter_visible earlier] at cut
    exact congrArg Except.ok (cut.eq_before rfl rfl rfl rfl)

/-- **Windows of windows** are the part of the archive before the smallest cutoff. -/
theorem foldlM_window (h : archive.Shows records) (stamped : archive.format.hasTimestamps = true)
    (sorted : records.Pairwise fun a b => a.notLater b = true) (cutoffs : List UInt64)
    (first : UInt64) : cutoffs.foldlM window (archive.before records first) =
      .ok (archive.before records (cutoffs.foldl min first)) := by
  induction cutoffs generalizing first with
  | nil => rfl
  | cons cutoff cutoffs ih =>
    rw [List.foldlM_cons, window_before h stamped sorted]
    exact ih (min first cutoff)

/-- The records before a cutoff can be the records of an archive. -/
theorem holds_visible {format : Format} (holds : format.Holds records) (cutoff : UInt64) :
    format.Holds (visible records cutoff) where
  known := holds.known
  small := Nat.le_trans (visible_sublist records cutoff).length_le holds.small
  stored rating mem := holds.stored rating ((visible_sublist records cutoff).subset mem)
  ordered stamped := (holds.ordered stamped).sublist (visible_sublist records cutoff)

/-- No cutoff is the largest word. -/
theorem min_noCutoff (time : UInt64) : min noCutoff time = time := by
  rw [Std.min_eq_if]
  split
  · next le =>
    by_contra differs
    exact ne_noCutoff_of_lt (UInt64.lt_of_le_of_ne le differs) rfl
  · rfl

/-- Records with timestamps can be packed, opened and cut down. -/
theorem exists_window (holds : Format.Holds .timestamped records) (time : UInt64) :
    ∃ archive view : Archive, archive.Genuine ∧ archive.window time = .ok view ∧
      archive.Shows records ∧ view.Shows (visible records time) := by
  have packed := holds.packable.pack_eq
  have opened := ofBytes_archiveOf holds.packable false
  rw [holds.arranged_eq] at opened
  have shown := shows_whole holds (.inMemory (archiveOf .timestamped records))
  have cut := window_before shown rfl (holds.ordered rfl) noCutoff time
  rw [shown.before_noCutoff rfl, min_noCutoff] at cut
  exact ⟨_, _, .packed packed opened, cut, shown, shows_before shown time⟩

/-- **Windows are archives of the earlier records.** However an archive is cut down, it ends as the
archive that was packed from its records before the smallest cutoff; without a cutoff, it stays as
it is. -/
theorem windows_like_packed (genuine : archive.Genuine)
    (stamped : archive.format.hasTimestamps = true) (cutoffs : List UInt64) :
    ∃ view, cutoffs.foldlM window archive = .ok view ∧
      (∀ others : List UInt64, (∀ time, time ∈ others ↔ time ∈ cutoffs) →
        others.foldlM window archive = .ok view) ∧
      (earliest cutoffs = noCutoff → view = archive ∧ view.limitTimestamp = none) ∧
      (earliest cutoffs ≠ noCutoff →
        view.limitTimestamp = some (earliest cutoffs) ∧
        view.ratings.toList = archive.ratings.toList.filter (·.isBefore (earliest cutoffs)) ∧
        view.ratings.toList <+: archive.ratings.toList ∧
        ∃ content, pack (archive.ratings.toList.filter (·.isBefore (earliest cutoffs)))
            archive.format = .ok content ∧
          ∀ verified, ∃ packed, ofBytes content verified = .ok packed ∧
            view.SameAnswers packed) := by
  obtain ⟨format, records, file, holds, rfl⟩ := genuine.exists_whole
  have shown := shows_whole holds file
  have sorted := holds.ordered stamped
  have start := shown.before_noCutoff rfl
  have chain (cutoffs : List UInt64) := foldlM_window shown stamped sorted cutoffs noCutoff
  rw [start] at chain
  refine ⟨_, chain cutoffs, ?_, ?_, ?_⟩
  · intro others same
    have equal : others.foldl min noCutoff = cutoffs.foldl min noCutoff :=
      earliest_eq_of_mem_iff same
    rw [chain others, equal]
  · intro never
    have never : cutoffs.foldl min noCutoff = noCutoff := never
    rw [never, start]
    exact ⟨rfl, if_pos rfl⟩
  · intro bounded
    have bounded : cutoffs.foldl min noCutoff ≠ noCutoff := bounded
    have view := shows_before shown (cutoffs.foldl min noCutoff)
    have early : visible records (cutoffs.foldl min noCutoff) =
        records.filter (·.isBefore (cutoffs.foldl min noCutoff)) := if_neg bounded
    rw [shown.toList_ratings, view.toList_ratings, earliest, ← early]
    refine ⟨if_neg bounded, rfl, ?_, ?_⟩
    · rw [early, ← shown.take_countBefore stamped sorted]
      exact List.take_prefix _ _
    · have held := holds_visible holds (cutoffs.foldl min noCutoff)
      refine ⟨_, held.packable.pack_eq, ?_⟩
      intro verified
      refine ⟨_, ofBytes_archiveOf held.packable verified, view.sameAnswers ?_ rfl⟩
      rw [held.arranged_eq]
      exact shows_whole held _

/-- Two cutoffs, the smaller one last. -/
theorem windows_like_packed_two :
    ∃ archive view : Archive, archive.Genuine ∧ [8, 5].foldlM window archive = .ok view ∧
      view.limitTimestamp = some 5 := by
  have packable : Packable .timestamped [⟨1, 7, ⟨0⟩, some 9⟩, ⟨2, 7, ⟨1⟩, some 4⟩] :=
    ⟨.inr rfl, by decide, by simp⟩
  have genuine := Genuine.packed packable.pack_eq (ofBytes_archiveOf packable false)
  obtain ⟨view, cut, -, -, bounded⟩ := windows_like_packed genuine rfl [8, 5]
  exact ⟨_, view, genuine, cut, (bounded (by decide)).1⟩

end Archive

end RatingArchive

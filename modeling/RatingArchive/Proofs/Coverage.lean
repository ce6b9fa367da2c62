import RatingArchive.Proofs.Truncation
/-!
# Indexes of windows

Opening and importing ask of each index that it covers the records: it lists as many slots as there
are, all of them slots of records. A window asks nothing. It keeps the slots below its limit
(`Archive.listed_of_views`), and these are as many as the limit says if no slot is listed twice, as
verification makes sure. An index that lists one slot under two keys, and another one under none,
covers the records all the same, but it need not cover those of a window (`Archive.doubled`).

A window can be exported in any case. Its export is imported unless one of its indexes does not
cover its records (`Archive.ofSource_wire_eq`).
-/

namespace RatingArchive

/-! ## The slots that are listed -/

namespace IndexTable

/-- The slots that a table lists, key by key. -/
def listed (table : IndexTable) : List UInt32 := table.entries.flatMap (·.slots)

theorem length_listed (table : IndexTable) : table.listed.length = table.slotCount := rfl

/-- A cut table lists the slots below the limit. -/
theorem listed_below {table : IndexTable} (h : Ordered table.entries) (limit : UInt32) :
    (table.below limit).listed = table.listed.filter (· < limit) := by
  have kept : ((table.below limit).entries.map (·.slots)) =
      ((table.entries.map fun entry => (entry.below limit).slots).filter (!·.isEmpty)) := by
    rw [below, List.filter_map, List.map_map, List.filter_map]
    rfl
  calc (table.below limit).listed
      = (table.entries.map fun entry => (entry.below limit).slots).flatten := by
        rw [listed, List.flatMap_def, kept, List.flatten_filter_not_isEmpty]
    _ = table.entries.flatMap fun entry => entry.slots.filter (· < limit) := by
        rw [← List.flatMap_def]
        exact List.flatMap_congr fun entry mem => below_slots (h.runs entry mem).ascending limit
    _ = table.listed.filter (· < limit) := List.filter_flatMap.symm

end IndexTable

/-- If slots are listed once, all below a limit and as many as it says, then those below a smaller
limit are as many as that one says. -/
theorem length_filter_lt {slots : List UInt32} {limit bound : UInt32} (nodup : slots.Nodup)
    (below : ∀ slot ∈ slots, slot < limit) (count : slots.length = limit.toNat)
    (le : bound ≤ limit) : (slots.filter (· < bound)).length = bound.toNat := by
  have inj : Function.Injective UInt32.toNat := fun _ _ => UInt32.toNat_inj.1
  have perm : ((slots.filter (· < bound)).map UInt32.toNat).Perm (List.range bound.toNat) := by
    apply (List.perm_ext_iff_of_nodup ((nodup.filter _).map inj) List.nodup_range).2
    intro place
    simp only [List.mem_map, List.mem_filter, decide_eq_true_eq, List.mem_range]
    constructor
    · rintro ⟨slot, ⟨-, lt⟩, rfl⟩
      exact UInt32.lt_iff_toNat_lt.1 lt
    · intro lt
      -- as many slots as the limit says are all there are, so each number is that of one
      have small : place < UInt32.size := Nat.lt_trans lt bound.toNat_lt
      have same : (UInt32.ofNat place).toNat = place := UInt32.toNat_ofNat_of_lt' small
      have inside := Nat.lt_of_lt_of_le lt (UInt32.le_iff_toNat_le.1 le)
      refine ⟨UInt32.ofNat place, ⟨?_, by rwa [UInt32.lt_iff_toNat_lt, same]⟩, same⟩
      apply mem_of_lt nodup (fun slot mem => UInt32.lt_iff_toNat_lt.1 (below slot mem)) count
      rwa [same]
  rw [← List.length_map (f := UInt32.toNat), perm.length_eq, List.length_range]

namespace Archive

variable {archive view start : Archive}

theorem WellFormed.lt_of_mem_listed (h : archive.WellFormed) (side : Side) {slot : UInt32}
    (mem : slot ∈ (archive.table side).listed) : slot < archive.limit := by
  obtain ⟨entry, mem, listed⟩ := List.mem_flatMap.1 mem
  exact h.slot_lt side mem listed

theorem WellFormed.filter_listed (h : archive.WellFormed) (side : Side) :
    (archive.table side).listed.filter (· < archive.limit) = (archive.table side).listed := by
  rw [List.filter_eq_self]
  intro slot mem
  simpa using h.lt_of_mem_listed side mem

/-! ## The check of an index -/

/-- The index of a well-formed archive covers its records if it lists as many slots. -/
theorem WellFormed.covers_iff (h : archive.WellFormed) (side : Side) :
    archive.Covers side ↔ (archive.table side).slotCount = archive.limit.toNat :=
  ⟨fun covers => covers.slotCount_eq, fun count => ⟨h.below side, count⟩⟩

theorem WellFormed.checkCoverage_eq_ok_iff (h : archive.WellFormed) (side : Side) :
    (archive.table side).checkCoverage side archive.limit = .ok () ↔ archive.Covers side := by
  rw [IndexTable.checkCoverage_eq_ok_iff (h.ordered side)]
  exact ⟨fun ⟨below, count⟩ => ⟨below, count⟩, fun ⟨below, count⟩ => ⟨below, count⟩⟩

theorem Arrives.covers (h : archive.Arrives) (side : Side) : archive.Covers side :=
  (h.covers_iff side).2 (h.slotCount_eq side)

/-- What is accepted has indexes that cover its records. -/
theorem Accepted.covers (h : archive.Accepted) (side : Side) : archive.Covers side := by
  cases h with
  | opened opened =>
    obtain ⟨image, -, -, covers, rfl⟩ := exists_image_of_ofFile opened
    exact covers side
  | received received => exact (arrives_of_ofSource received).covers side

/-- What passed verification lists no slot twice. -/
theorem nodup_listed_of_verified {file : File} (opened : ofFile file true = .ok archive)
    (side : Side) : (archive.table side).listed.Nodup := by
  obtain ⟨format, records, trailing, holds, -, rfl⟩ := ofFile_verified opened
  exact ((shows_whole holds file).listsOnce side).nodup

/-- Whether an index covers the records depends on the index and their number alone. -/
theorem SameParts.covers {other : Archive} (h : archive.SameParts other) {side : Side}
    (covers : other.Covers side) : archive.Covers side := by
  obtain ⟨below, count⟩ := covers
  rw [← h.table side, ← h.limit] at below count
  exact ⟨below, count⟩

/-! ## Windows of windows -/

/-- **One window** keeps the slots below its limit. -/
theorem listed_of_cuts (h : archive.WellFormed) (cut : archive.Cuts view) (side : Side) :
    (view.table side).listed = (archive.table side).listed.filter (· < view.limit) := by
  obtain ⟨time, cut⟩ := cut
  obtain ⟨-, ⟨-, rfl⟩ | ⟨-, rfl⟩⟩ := window_eq_ok_iff.1 cut
  · exact (h.filter_listed side).symm
  · rw [table_restrict]
    exact IndexTable.listed_below (h.ordered side) _

/-- **Windows of windows** keep the slots below the limit that is left. -/
theorem listed_of_views (well : start.WellFormed) (views : Relation.ReflTransGen Cuts start view) :
    view.limit ≤ start.limit ∧
      ∀ side, (view.table side).listed = (start.table side).listed.filter (· < view.limit) := by
  induction views with
  | refl => exact ⟨UInt32.le_refl _, fun side => (well.filter_listed side).symm⟩
  | @tail middle view views cut ih =>
    obtain ⟨le, listed⟩ := ih
    obtain ⟨well, -⟩ := views_inv well views
    have next := (well.begins_window cut).limit_le
    refine ⟨UInt32.le_trans next le, ?_⟩
    intro side
    -- the smaller limit decides, since limits only move down
    rw [listed_of_cuts well cut, listed side, List.filter_filter]
    apply List.filter_congr
    intro slot _
    simp only [Bool.and_eq_left_iff_imp, decide_eq_true_eq]
    exact fun lt => UInt32.lt_of_lt_of_le lt next

/-- The export of an archive is imported if its indexes cover its records. -/
theorem exists_deserialize_wire (h : archive.WellFormed) :
    (∃ copy, deserialize archive.wire = .ok copy) ↔ ∀ side, archive.Covers side := by
  have users := h.checkCoverage_eq_ok_iff .user
  have items := h.checkCoverage_eq_ok_iff .item
  simp only [table] at users items
  have answer : ∃ copy, (pure archive.detached : Except Error Archive) = .ok copy := ⟨_, rfl⟩
  rw [deserialize_wire_eq h, Side.forall_iff, ← users, ← items]
  simp only [check_bind_eq_ok_iff, exists_and_left, answer, and_true]

/-- **Which windows cover their records.** All slots of a window are slots of its records, whatever
was accepted. They are as many as its records if and only if what was accepted lists as many below
the limit of the window. So they are if it lists no slot twice, in particular if it was verified,
and as long as no record is cut off. A window can always be exported, and its export is imported if
and only if it covers its records. -/
theorem covers_of_views (accepted : start.Accepted)
    (views : Relation.ReflTransGen Cuts start view) :
    (∀ side key slot, Lists (view.table side).entries key slot → slot < view.limit) ∧
    (∀ side, (view.table side).checkCoverage side view.limit = .ok () ↔ view.Covers side) ∧
    (∀ side, view.Covers side ↔
      ((start.table side).listed.filter (· < view.limit)).length = view.limit.toNat) ∧
    (∀ side, (start.table side).listed.Nodup → view.Covers side) ∧
    (∀ file, ofFile file true = .ok start → ∀ side, view.Covers side) ∧
    (view.limit = start.limit → ∀ side, view.Covers side) ∧
    ∃ bytes, view.serialize = .ok bytes ∧
      ((∃ copy, deserialize bytes = .ok copy) ↔ ∀ side, view.Covers side) := by
  have sound := accepted.wellFormed
  obtain ⟨well, -⟩ := views_inv sound views
  obtain ⟨le, listed⟩ := listed_of_views sound views
  have count (side : Side) : view.Covers side ↔
      ((start.table side).listed.filter (· < view.limit)).length = view.limit.toNat := by
    rw [well.covers_iff side, ← IndexTable.length_listed, listed side]
  have once (side : Side) (nodup : (start.table side).listed.Nodup) : view.Covers side := by
    refine (count side).2 (length_filter_lt nodup ?_ (accepted.covers side).slotCount_eq le)
    exact fun slot mem => sound.lt_of_mem_listed side mem
  refine ⟨well.below, well.checkCoverage_eq_ok_iff, count, once, ?_, ?_, ?_⟩
  · intro file opened side
    exact once side (nodup_listed_of_verified opened side)
  · intro same side
    rw [count side, same, sound.filter_listed side]
    exact (accepted.covers side).slotCount_eq
  · exact ⟨view.wire, serialize_eq well, exists_deserialize_wire well⟩

/-- Two ratings that pass verification, of which the later one is cut off before the export. -/
theorem covers_of_views_two :
    ∃ (content : Bytes) (archive view : Archive), ofBytes content true = .ok archive ∧
      archive.window 5 = .ok view ∧
      ∃ bytes copy, view.serialize = .ok bytes ∧ deserialize bytes = .ok copy := by
  have opened := ofBytes_archiveOf Format.holds_two.packable true
  obtain ⟨view, cut⟩ := (wellFormed_of_ofFile opened).inBounds.window rfl 5
  obtain ⟨-, -, -, -, verified, -, bytes, sent, received⟩ :=
    covers_of_views (.opened opened) (.single ⟨5, cut⟩)
  obtain ⟨copy, received⟩ := received.2 (verified _ opened)
  exact ⟨_, _, view, opened, cut, bytes, copy, sent, received⟩

/-- Two records in order, with an index of users that lists the first one twice and the second one
never. -/
def doubled : Image where
  header := ⟨.timestamped, 2, 2, 1⟩
  records := Format.timestamped.region [⟨1, 7, ⟨0⟩, some 4⟩, ⟨2, 7, ⟨1⟩, some 9⟩]
  users := ⟨[⟨1, [0]⟩, ⟨2, [0]⟩]⟩
  items := ⟨[⟨7, [0, 1]⟩]⟩
  trailing := []

/-- **A window that does not cover its records**: it lists the record that is left twice, and its
export is refused for that. -/
theorem not_covers_doubled :
    ∃ start view : Archive, ofBytes doubled.bytes false = .ok start ∧
      start.window 5 = .ok view ∧ view.limit = 1 ∧ view.users.slotCount = 2 ∧
      ∃ bytes, view.serialize = .ok bytes ∧
        deserialize bytes = .error (.invalidData (.coverage .user 2 1)) := by
  have opened : ofBytes doubled.bytes false = .ok (whole doubled (.inMemory doubled.bytes)) := by
    decide +kernel
  have cut : (whole doubled (.inMemory doubled.bytes)).window 5 =
      .ok ((whole doubled (.inMemory doubled.bytes)).restrict 1 5) := by
    decide +kernel
  have well := (wellFormed_of_ofFile opened).window cut
  refine ⟨_, _, opened, cut, rfl, by decide +kernel, _, serialize_eq well, ?_⟩
  rw [deserialize_wire_eq well]
  decide +kernel

end Archive

end RatingArchive

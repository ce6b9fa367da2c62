import RatingArchive.Proofs.Opening
import RatingArchive.Proofs.Packing
/-!
# Packing and opening

What was packed opens, and gives back what was packed (`open_pack`). What opens and passes
verification was packed, with anything behind it (`verified_iff_packed`), so that the bytes of a
verified archive are determined by its records.
-/

namespace RatingArchive

/-- There are two formats: without timestamps, and with them. -/
theorem Format.isKnown_iff {format : Format} :
    format.isKnown = true ↔ format = .plain ∨ format = .timestamped := by
  obtain ⟨bits⟩ := format
  simp only [isKnown, decide_eq_true_eq, plain, timestamped, Format.mk.injEq]
  rw [UInt32.le_iff_toNat_le, ← UInt32.toNat_inj, ← UInt32.toNat_inj]
  simp only [UInt32.toNat_one, UInt32.toNat_zero]
  omega

/-- A list can be packed: it is not too long, and each rating can be stored. -/
structure Packable (format : Format) (ratings : List Rating) : Prop where
  known : format = .plain ∨ format = .timestamped
  small : ratings.length ≤ maxRatings
  stamped : format = .timestamped → ∀ rating ∈ ratings, rating.timestamp.isSome = true

namespace Packable

variable {format : Format} {ratings : List Rating}

theorem admits (h : Packable format ratings) : ∀ rating ∈ ratings, format.Admits rating := by
  intro rating mem stamped
  rcases h.known with rfl | rfl
  · cases stamped
  · exact h.stamped rfl rating mem

theorem pack_eq (h : Packable format ratings) :
    pack ratings format = .ok (archiveOf format ratings) :=
  pack_eq_ok_iff.2 ⟨h.small, h.admits, rfl⟩

theorem holds (h : Packable format ratings) : format.Holds (format.arranged ratings) :=
  Format.holds_arranged (Format.isKnown_iff.2 h.known) h.small h.admits

end Packable

/-- The records of an archive can be packed. -/
theorem Format.Holds.packable {format : Format} {records : List Rating} (h : format.Holds records) :
    Packable format records where
  known := Format.isKnown_iff.1 h.known
  small := h.small
  stamped := by
    rintro rfl rating mem
    exact h.stored rating mem

/-- An archive gives back the ratings that it was made from. -/
structure Archive.GivesBack (archive : Archive) (format : Format) (ratings : List Rating) :
    Prop where
  unlimited : archive.limitTimestamp = none
  format_eq : archive.header.format = format
  records : archive.header.records.toNat = ratings.length
  users : archive.header.users.toNat = (ratings.map Rating.user).toFinset.card
  items : archive.header.items.toNat = (ratings.map Rating.item).toFinset.card
  any : archive.stream .any = archive.ratings.toList
  timestamp : archive.stream .timestamp = archive.ratings.toList
  plain : format = .plain → archive.ratings.toList = ratings.map Rating.withoutTimestamp
  timestamped : format = .timestamped → SortedStably ratings archive.ratings.toList

namespace Archive

/-- The archive of ratings opens, verified or not. -/
theorem ofBytes_archiveOf {format : Format} {ratings : List Rating} (h : Packable format ratings)
    (verified : Bool) :
    ofBytes (archiveOf format ratings) verified =
      .ok (whole (Image.ofRatings format (format.arranged ratings))
        (.inMemory (archiveOf format ratings))) :=
  ofFile_bytes_append h.holds (List.append_nil _).symm verified

theorem arranged_map_key (format : Format) (ratings : List Rating) (side : Side) :
    ((format.arranged ratings).map (·.key side)).toFinset =
      (ratings.map (·.key side)).toFinset := by
  unfold Format.arranged
  split
  · exact List.toFinset_eq_of_perm _ _ ((List.mergeSort_perm _ _).map _)
  · rw [List.map_map]
    cases side <;> rfl

theorem givesBack_whole {format : Format} {ratings : List Rating} (h : Packable format ratings)
    (file : File) :
    (whole (Image.ofRatings format (format.arranged ratings)) file).GivesBack format ratings := by
  have shown := shows_whole h.holds file
  have keys (side : Side) :
      ((Image.ofRatings format (format.arranged ratings)).header.keys side).toNat =
        (ratings.map (·.key side)).toFinset.card := by
    rw [Image.toNat_keys_ofRatings format h.holds.small, IndexTable.length_ofRatings,
      arranged_map_key]
  refine ⟨rfl, rfl, ?_, keys .user, keys .item, rfl, rfl, ?_, ?_⟩
  · rw [← Format.length_arranged format ratings]
    exact shown.limit
  · rintro rfl
    exact shown.toList_ratings
  · rintro rfl
    rw [shown.toList_ratings]
    exact sortedStably_mergeSort ratings

end Archive

/-- **What was packed opens**, with or without verification, and gives back the ratings. -/
theorem open_pack {format : Format} {ratings : List Rating} (h : Packable format ratings) :
    ∃ content, pack ratings format = .ok content ∧ ∀ verified, ∃ archive,
      Archive.ofBytes content verified = .ok archive ∧ archive.GivesBack format ratings := by
  refine ⟨archiveOf format ratings, h.pack_eq, ?_⟩
  intro verified
  exact ⟨_, Archive.ofBytes_archiveOf h verified, Archive.givesBack_whole h _⟩

/-- Two ratings of one item, the later one first. -/
theorem open_pack_two :
    Packable .timestamped [⟨1, 7, ⟨0⟩, some 9⟩, ⟨2, 7, ⟨1⟩, some 4⟩] ∧
      ∃ content, pack [⟨1, 7, ⟨0⟩, some 9⟩, ⟨2, 7, ⟨1⟩, some 4⟩] .timestamped = .ok content ∧
        ∀ verified, ∃ archive, Archive.ofBytes content verified = .ok archive ∧
          archive.GivesBack .timestamped [⟨1, 7, ⟨0⟩, some 9⟩, ⟨2, 7, ⟨1⟩, some 4⟩] := by
  have packable : Packable .timestamped [⟨1, 7, ⟨0⟩, some 9⟩, ⟨2, 7, ⟨1⟩, some 4⟩] :=
    ⟨.inr rfl, by decide, by simp⟩
  exact ⟨packable, open_pack packable⟩

/-- **What passes verification was packed**, with anything behind it, and packing its records again
gives the bytes that were packed. -/
theorem verified_iff_packed (content : Bytes) :
    ((∃ archive, Archive.ofBytes content true = .ok archive) ↔
      ∃ format ratings image trailing, Packable format ratings ∧
        pack ratings format = .ok image ∧ content = image ++ trailing) ∧
    ∀ archive format ratings image trailing, Archive.ofBytes content true = .ok archive →
      Packable format ratings → pack ratings format = .ok image → content = image ++ trailing →
        pack (archive.stream .any) archive.header.format = .ok image := by
  refine ⟨⟨?_, ?_⟩, ?_⟩
  · rintro ⟨archive, opened⟩
    obtain ⟨format, records, trailing, holds, whole, -⟩ := Archive.ofFile_verified opened
    have packed : pack records format = .ok (Image.ofRatings format records).bytes := by
      rw [holds.packable.pack_eq, archiveOf, holds.arranged_eq]
    exact ⟨format, records, _, trailing, holds.packable, packed, whole⟩
  · rintro ⟨format, ratings, image, trailing, packable, packed, whole⟩
    obtain ⟨-, -, rfl⟩ := pack_eq_ok_iff.1 packed
    exact ⟨_, Archive.ofFile_bytes_append packable.holds whole true⟩
  · intro archive format ratings image trailing opened packable packed whole
    obtain ⟨-, -, rfl⟩ := pack_eq_ok_iff.1 packed
    have again : Archive.ofBytes content true = .ok (Archive.whole _ (.inMemory content)) :=
      Archive.ofFile_bytes_append packable.holds whole true
    cases opened.symm.trans again
    have records : Archive.stream _ .any = format.arranged ratings :=
      (Archive.shows_whole packable.holds (.inMemory content)).toList_ratings
    have repacked := packable.holds.packable.pack_eq
    rw [archiveOf, packable.holds.arranged_eq] at repacked
    rw [records]
    exact repacked

end RatingArchive

import RatingArchive.Archive
/-!
# Windows

A window of an archive sees only the records before a cutoff. The records of an archive with
timestamps are in timestamp order, so the cutoff is found by halving, and what is left is a prefix
of the records with the indexes cut down to it.

The cutoff of a window can only move down. A cutoff at or past the present one changes nothing, and
the largest word is no cutoff at all, so that records stamped with it stay visible.
-/

namespace RatingArchive.Archive

/-- The number of visible records before `time`, if they are in timestamp order. -/
def countBefore (archive : Archive) (time : UInt64) : Nat :=
  lowerBound archive.length fun slot => compare time (archive.timestampAt slot)

/-- The part of an archive in its first `limit` records. -/
def restrict (archive : Archive) (limit : UInt32) (cutoff : UInt64) : Archive :=
  { archive with
    region := archive.region.take (limit.toNat * archive.format.recordSize)
    users := archive.users.below limit
    items := archive.items.below limit
    limit := limit
    cutoff := cutoff }

/-- The part of an archive before `time`. Archives without timestamps have no such parts. -/
def window (archive : Archive) (time : UInt64) : Except Error Archive :=
  if !archive.format.hasTimestamps then .error (.illegalState .windowWithoutTimestamps)
  else if archive.cutoff ≤ time then .ok archive
  else .ok (archive.restrict (UInt32.ofNat (archive.countBefore time)) time)

/-- The part of an archive before `time`, and a report if that is another archive. -/
def windowLogged (archive : Archive) (time : UInt64) : Logged Archive :=
  match archive.window time with
  | .error error => ⟨.error error, []⟩
  | .ok part =>
    ⟨.ok part, if archive.cutoff ≤ time then [] else [.windowed time part.limit archive.limit]⟩

end RatingArchive.Archive

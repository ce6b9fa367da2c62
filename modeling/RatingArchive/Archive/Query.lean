import RatingArchive.Archive
import RatingArchive.KeySet
import RatingArchive.SortOrder
/-!
# Queries

The ratings of an archive, of a user and of an item, in the order of the records, and the
identifiers that go with them. Users and items are treated alike, as the two sides of a rating.
-/

namespace RatingArchive

/-- The ratings with one key on one side, in the order of the records. -/
structure Group where
  side : Side
  key : UInt64
  ratings : RatingList
  deriving Repr

namespace Group

/-- The number of ratings. -/
def length (group : Group) : Nat := group.ratings.length

/-- Whether there are no ratings. -/
def isEmpty (group : Group) : Bool := group.ratings.isEmpty

/-- The keys on the other side. -/
def counterparts (group : Group) : List UInt64 :=
  KeySet.ofList (group.ratings.toList.map (·.key group.side.other))

/-- The ratings that a test keeps, in order. The test may depend on the ratings it has seen. -/
def filterM {m : Type → Type} [Monad m] (group : Group) (test : Rating → m Bool) :
    m (List Rating) :=
  group.ratings.toList.filterM test

/-- The ratings with a property, in order. -/
def filter (group : Group) (test : Rating → Bool) : List Rating :=
  group.ratings.toList.filter test

/-- Whether two groups have the same key and the same ratings. -/
def same (group other : Group) : Bool :=
  group.key == other.key && group.ratings.same other.ratings

end Group

namespace Archive

/-- The keys on one side, ascending. -/
def keys (archive : Archive) (side : Side) : List UInt64 := (archive.table side).keys

/-- All ratings in the order of the records. -/
def ratings (archive : Archive) : RatingList :=
  ⟨archive.format, archive.region, .range 0 archive.limit⟩

/-- The ratings of an entry of an index. -/
def groupOf (archive : Archive) (side : Side) (entry : Entry) : Group :=
  ⟨side, entry.key, ⟨archive.format, archive.region, .run entry.slots⟩⟩

/-- The ratings with a key on one side. -/
def group? (archive : Archive) (side : Side) (key : UInt64) : Option Group :=
  ((archive.table side).slots? key).map fun slots => archive.groupOf side ⟨key, slots⟩

/-- The keys on the other side of the records with a key on one side. Only those keys are read. -/
def counterparts? (archive : Archive) (side : Side) (key : UInt64) : Option (List UInt64) :=
  ((archive.table side).slots? key).map fun slots =>
    KeySet.ofList (slots.filterMap fun slot =>
      archive.format.key? archive.region slot.toNat side.other)

/-- The groups of one side, keys ascending. -/
def groups (archive : Archive) (side : Side) : List Group :=
  (archive.table side).entries.map (archive.groupOf side)

/-- All ratings in the order asked for. Groups are in ascending order of their keys, and each is in
the order of the records. -/
def stream (archive : Archive) : SortOrder → List Rating
  | .any | .timestamp => archive.ratings.toList
  | .user => (archive.groups .user).flatMap (·.ratings.toList)
  | .item => (archive.groups .item).flatMap (·.ratings.toList)

/-! ## Walking through the groups -/

/-- A place between the groups of one side. -/
structure GroupCursor where
  archive : Archive
  side : Side
  entries : IndexTable.Cursor

/-- The place in front of the first group. -/
def startGroups (archive : Archive) (side : Side) : GroupCursor :=
  ⟨archive, side, (archive.table side).start⟩

/-- The number of groups still to come. -/
def GroupCursor.remaining (cursor : GroupCursor) : Nat := cursor.entries.remaining

/-- The next group, and the place behind it. -/
def GroupCursor.next (cursor : GroupCursor) : Option Group × GroupCursor :=
  let (entry, entries) := cursor.entries.next
  (entry.map (cursor.archive.groupOf cursor.side), { cursor with entries })

/-- Up to `count` groups, each with the number of groups behind it. -/
def GroupCursor.take : (count : Nat) → GroupCursor → List (Group × Nat)
  | 0, _ => []
  | count + 1, cursor =>
    match cursor.next with
    | (some group, cursor) => (group, cursor.remaining) :: take count cursor
    | (none, _) => []

end Archive

end RatingArchive

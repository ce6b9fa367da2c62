import RatingArchive.Archive.Query
/-!
# Sources of ratings

What algorithms ask of a collection of ratings, whatever holds it. The users who rated an item can
always be read off its ratings; a source may know a shorter way.
-/

namespace RatingArchive

/-- Collections that stream all their ratings. -/
class RatingSource (σ : Type) where
  /-- All ratings in the order asked for. -/
  stream : σ → SortOrder → List Rating

/-- Collections that know the ratings of a user. -/
class UserSource (σ : Type) where
  /-- The users, ascending. -/
  users : σ → List UInt64
  /-- The ratings of a user, unless the user is unknown. -/
  ratingsOfUser : σ → UInt64 → Option (List Rating)

/-- The users in the ratings of an item, unless the item is unknown. -/
def raters (ratingsOfItem : UInt64 → Option (List Rating)) (item : UInt64) : Option (List UInt64) :=
  (ratingsOfItem item).map fun ratings => KeySet.ofList (ratings.map Rating.user)

/-- Collections that know the ratings of an item. -/
class ItemSource (σ : Type) where
  /-- The items, ascending. -/
  items : σ → List UInt64
  /-- The ratings of an item, unless the item is unknown. -/
  ratingsOfItem : σ → UInt64 → Option (List Rating)
  /-- The users who rated an item, unless the item is unknown. -/
  usersOfItem : σ → UInt64 → Option (List UInt64) := fun source => raters (ratingsOfItem source)

instance : RatingSource Archive where
  stream := Archive.stream

instance : UserSource Archive where
  users archive := archive.keys .user
  ratingsOfUser archive user := (archive.group? .user user).map (·.ratings.toList)

instance : ItemSource Archive where
  items archive := archive.keys .item
  ratingsOfItem archive item := (archive.group? .item item).map (·.ratings.toList)
  usersOfItem archive item := archive.counterparts? .item item

end RatingArchive

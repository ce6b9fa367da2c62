/-!
# Orders of a stream of ratings

An archive can be read in the order of its records, which is timestamp order if it carries
timestamps, or grouped by the users or the items of its indexes.
-/

namespace RatingArchive

/-- The order in which ratings are asked for. -/
inductive SortOrder where
  /-- Any order that suits the archive. -/
  | any
  /-- Ascending timestamps. -/
  | timestamp
  /-- Grouped by user, users ascending. -/
  | user
  /-- Grouped by item, items ascending. -/
  | item
  deriving DecidableEq, Inhabited, Repr

namespace SortOrder

/-- The name of an order. -/
def name : SortOrder → String
  | any => "any"
  | timestamp => "timestamp"
  | user => "user"
  | item => "item"

/-- The order with the given name. Letters may be in either case, in ASCII only. -/
def ofName? (text : String) : Option SortOrder :=
  match text.map Char.toLower with
  | "any" => some any
  | "timestamp" => some timestamp
  | "user" => some user
  | "item" => some item
  | _ => none

/-- The message for a text that names no order. -/
def unknownMessage (text : String) : String := "unsupported sort order: " ++ text

end SortOrder

end RatingArchive

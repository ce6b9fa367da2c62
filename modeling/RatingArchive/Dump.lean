import RatingArchive.Archive.Query
import RatingArchive.Text.Quoted
/-!
# Dumps

Values as they are shown to those who look for errors: records as a name with their fields in
braces, lists in brackets, tables as keys with their slots.
-/

namespace RatingArchive.Dump

/-- Texts in a row. -/
def commas (texts : List String) : String := String.intercalate ", " texts

/-- A list in brackets. -/
def list (texts : List String) : String := "[" ++ commas texts ++ "]"

/-- A name with fields in braces. -/
def record (name : String) (fields : List (String × String)) : String :=
  name ++ " \x7b " ++ commas (fields.map fun (field, value) => field ++ ": " ++ value) ++ " \x7d"

/-- An optional value. -/
def optional (text? : Option String) : String :=
  match text? with
  | none => "None"
  | some text => "Some(" ++ text ++ ")"

/-- The slots of a key. -/
def slots (slots : List UInt32) : String := list (slots.map toString)

/-- The keys of a table with their slots. -/
def table (table : IndexTable) : String :=
  let texts := table.entries.map fun entry => toString entry.key ++ ": " ++ slots entry.slots
  "\x7b" ++ commas texts ++ "\x7d"

/-- A rating. -/
def rating (rating : Rating) : String :=
  record "Rating"
    [("user", toString rating.user), ("item", toString rating.item),
     ("value", rating.value.render .exact),
     ("timestamp", optional (rating.timestamp.map toString))]

/-- The ratings of a list. -/
def ratings (ratings : RatingList) : String := list (ratings.toList.map rating)

/-- The ratings of a user or an item. -/
def group (group : Group) : String :=
  match group.side with
  | .user => record "UserHistory" [("user", toString group.key), ("ratings", ratings group.ratings)]
  | .item => record "ItemEvents" [("item", toString group.key), ("ratings", ratings group.ratings)]

/-- The flags of a format: the name of the one that has a meaning, and the others as a number. -/
def format (format : Format) : String :=
  let rest := format.bits.toNat / 2 * 2
  let names :=
    (if format.hasTimestamps then ["TIMESTAMPS"] else []) ++
      (if rest = 0 then [] else [Text.hex 1 rest])
  "FormatFlags(" ++ (if names.isEmpty then Text.hex 1 0 else String.intercalate " | " names) ++ ")"

/-- A header. -/
def header (header : Header) : String :=
  record "Header"
    [("flags", format header.format), ("record_count", toString header.records),
     ("user_count", toString header.users), ("item_count", toString header.items)]

/-- An archive. -/
def archive (archive : Archive) : String :=
  record "PackedRatingStore"
    [("path", optional (archive.path.map Text.quote)), ("header", header archive.header),
     ("limit_index", toString archive.limit),
     ("limit_timestamp", optional (archive.limitTimestamp.map toString))]

end RatingArchive.Dump

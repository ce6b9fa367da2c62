import RatingArchive.Header
import RatingArchive.Index.Reading
/-!
# Images of archives

The image of an archive is its content in parts: a header, the record region, the user index, the
item index, and bytes behind them that mean nothing. `parse` takes a content apart as its header
says, and `encode` puts the parts together again.
-/

namespace RatingArchive

/-- The parts of an archive. -/
structure Image where
  header : Header
  /-- The record region. -/
  records : Bytes
  users : IndexTable
  items : IndexTable
  /-- The bytes behind the item index. -/
  trailing : Bytes
  deriving DecidableEq, Repr

namespace Image

/-- The index of one side. -/
def table (image : Image) : Side → IndexTable
  | .user => image.users
  | .item => image.items

/-- Takes the content of a file apart. -/
def parse (content : Bytes) : Except Error Image := do
  let header ← Header.ofContent content
  let body := content.drop headerSize
  let records := body.take header.recordsSize
  match (IndexTable.read header.users).run (body.drop header.recordsSize) with
  | .error error _ => throw error
  | .ok users rest =>
    match (IndexTable.read header.items).run rest with
    | .error error _ => throw error
    | .ok items trailing => return { header, records, users, items, trailing }

/-- The content of a file with the given parts. -/
def encode (image : Image) : Except Error Bytes := do
  let users ← image.users.encode
  let items ← image.items.encode
  return image.header.render ++ image.records ++ users ++ items ++ image.trailing

/-- Checks that both indexes can be those of the records that the header declares. -/
def checkCoverage (image : Image) : Except Error Unit := do
  image.users.checkCoverage .user image.header.records
  image.items.checkCoverage .item image.header.records

end Image

end RatingArchive

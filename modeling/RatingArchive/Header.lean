import RatingArchive.Format
/-!
# Headers

A header is the first 24 bytes of an archive: six words, which are a magic number, the version of
the format, the flags, and the numbers of records, users and items. A header is accepted if a file
could hold what it declares: every user and every item has a record of its own.
-/

namespace RatingArchive

/-- The first word of every archive. -/
def magicNumber : UInt32 := 0x52504B31

/-- What an archive declares about itself. -/
structure Header where
  format : Format
  records : UInt32
  users : UInt32
  items : UInt32
  deriving DecidableEq, Inhabited, Repr

namespace Header

/-- The header of an archive without records. -/
def empty (format : Format) : Header := ⟨format, 0, 0, 0⟩

/-- The number of keys on one side. -/
def keys (header : Header) : Side → UInt32
  | .user => header.users
  | .item => header.items

/-- The size in bytes of all records. -/
def recordsSize (header : Header) : Nat := header.records.toNat * header.format.recordSize

/-- The size in bytes of the smallest file with this header: each key has at least one slot. -/
def minFileSize (header : Header) : Nat :=
  headerSize + header.recordsSize + 2 * 4 + (header.users.toNat + header.items.toNat) * (8 + 4 + 4)

/-- The header in one line. -/
def text (header : Header) : String :=
  "flags=" ++ header.format.name ++ " records=" ++ toString header.records ++ " users=" ++
    toString header.users ++ " items=" ++ toString header.items

/-- The bytes of a header. -/
def render (header : Header) : Bytes :=
  word32 magicNumber ++ word32 formatVersion ++ word32 header.format.bits ++
    word32 header.records ++ word32 header.users ++ word32 header.items

/-- The word at the given place among the words of a header. -/
def wordAt (bytes : Bytes) (place : Nat) : UInt32 := ofWord32 ((bytes.drop (4 * place)).take 4)

/-- Whether a file can hold the records, users and items that a header declares. -/
def checkCounts (header : Header) : Except Error Unit :=
  if 0 < header.records ∧ (header.users = 0 ∨ header.items = 0) then
    .error (.malformedHeader (.recordsWithoutKeys header.records))
  else if header.records < header.users ∨ header.records < header.items then
    .error (.malformedHeader (.moreKeysThanRecords header.users header.items header.records))
  else .ok ()

/-- Reads the header at the front of `bytes`. -/
def parse (bytes : Bytes) : Except Error Header :=
  if bytes.length < headerSize then .error (.truncated headerSize bytes.length)
  else if wordAt bytes 0 ≠ magicNumber then .error (.malformedHeader (.magic (wordAt bytes 0)))
  else if wordAt bytes 1 ≠ formatVersion then .error (.malformedHeader (.version (wordAt bytes 1)))
  else
    let header : Header := ⟨⟨wordAt bytes 2⟩, wordAt bytes 3, wordAt bytes 4, wordAt bytes 5⟩
    if !header.format.isKnown then .error (.malformedHeader (.unknownFlags header.format.bits))
    else do
      header.checkCounts
      return header

/-- Reads the header of a file with the given content, which has to be large enough for what the
header declares. -/
def ofContent (content : Bytes) : Except Error Header := do
  let header ← parse content
  if content.length < header.minFileSize then
    throw (.truncated header.minFileSize content.length)
  return header

@[simp] theorem length_render (header : Header) : header.render.length = headerSize := by
  simp [render, headerSize]

end Header

end RatingArchive

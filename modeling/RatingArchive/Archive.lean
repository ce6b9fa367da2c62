import RatingArchive.Event
import RatingArchive.File
import RatingArchive.Image
import RatingArchive.RatingList
/-!
# Opened archives

An archive that was opened answers queries from its record region and its two indexes. It sees the
records before its limit: all of them, or those before a cutoff.

Opening checks the header, the form of the indexes, and that each index lists as many slots as there
are records, all of them slots of records. Verification also looks at the records: timestamps must
not descend, and each index must list every slot once, under the key of its record.
-/

namespace RatingArchive

/-- An archive, or the part of it before a cutoff. -/
structure Archive where
  /-- Where the archive is, if it is on disk. -/
  path : Option String
  modified : Option Moment
  /-- The header of the whole archive. -/
  header : Header
  /-- The records that are visible. -/
  region : Bytes
  users : IndexTable
  items : IndexTable
  /-- The number of records that are visible. -/
  limit : UInt32
  /-- The timestamp before which records are visible; the largest word stands for no cutoff. -/
  cutoff : UInt64
  deriving DecidableEq, Repr

namespace Archive

/-- The cutoff that leaves every record visible. -/
def noCutoff : UInt64 := 0xFFFFFFFFFFFFFFFF

/-- The format of the records. -/
def format (archive : Archive) : Format := archive.header.format

/-- The index of one side. -/
def table (archive : Archive) : Side → IndexTable
  | .user => archive.users
  | .item => archive.items

/-- The number of visible records. -/
def length (archive : Archive) : Nat := archive.limit.toNat

/-- Whether no record is visible. -/
def isEmpty (archive : Archive) : Bool := archive.limit == 0

/-- The cutoff, unless every record is visible. -/
def limitTimestamp (archive : Archive) : Option UInt64 :=
  if archive.cutoff = noCutoff then none else some archive.cutoff

/-- The timestamp of the record at a slot; zero if there is none. -/
def timestampAt (archive : Archive) (slot : Nat) : UInt64 :=
  ((archive.format.timestamp? archive.region slot).getD none).getD 0

/-- The key on one side of the record at a slot; zero if there is none. -/
def keyAt (archive : Archive) (side : Side) (slot : UInt32) : UInt64 :=
  (archive.format.key? archive.region slot.toNat side).getD 0

/-! ## Verification -/

/-- Checks that timestamps do not descend. `slot` is the slot of the first one, and `last` the
timestamp before it. -/
def checkTimestamps (slot : Nat) (last : UInt64) : List UInt64 → Except Error Unit
  | [] => .ok ()
  | timestamp :: rest =>
    if timestamp < last then .error (.invalidData (.timestampOrder slot timestamp last))
    else checkTimestamps (slot + 1) timestamp rest

/-- Checks that no slot is listed twice, and each under the key of its record. `seen` are the slots
that were listed before. -/
def checkListing (archive : Archive) (side : Side) (seen : List UInt32) :
    List (UInt64 × UInt32) → Except Error Unit
  | [] => .ok ()
  | (key, slot) :: rest =>
    if seen.contains slot then .error (.invalidData (.slotTwice side slot))
    else
      let actual := archive.keyAt side slot
      if actual ≠ key then .error (.invalidData (.foreignSlot side slot key actual))
      else archive.checkListing side (slot :: seen) rest

/-- The slots that an index lists, each with its key. -/
def listing (archive : Archive) (side : Side) : List (UInt64 × UInt32) :=
  (archive.table side).entries.flatMap fun entry => entry.slots.map fun slot => (entry.key, slot)

/-- Checks the order of the records, and that the indexes are those of the records. -/
def verify (archive : Archive) : Except Error Unit := do
  if archive.format.hasTimestamps then
    checkTimestamps 0 0 ((List.range archive.length).map archive.timestampAt)
  archive.checkListing .user [] (archive.listing .user)
  archive.checkListing .item [] (archive.listing .item)

/-! ## Opening -/

/-- Opens the archive with the given image. -/
def ofImage (image : Image) (file : File) (verified : Bool) : Except Error Archive := do
  image.checkCoverage
  let archive : Archive :=
    { path := file.path
      modified := file.modified
      header := image.header
      region := image.records
      users := image.users
      items := image.items
      limit := image.header.records
      cutoff := noCutoff }
  if verified then archive.verify
  return archive

/-- Opens the archive in a file. -/
def ofFile (file : File) (verified : Bool) : Except Error Archive := do
  let image ← Image.parse file.content
  ofImage image file verified

/-- Opens an archive in memory. -/
def ofBytes (content : Bytes) (verified : Bool) : Except Error Archive :=
  ofFile (.inMemory content) verified

/-- Opens the archive in a file, and reports it. Bytes behind the indexes are reported as soon as
they are seen, whether the archive opens or not. -/
def ofFileLogged (file : File) (verified : Bool) : Logged Archive :=
  let warnings := match Image.parse file.content with
    | .ok image => if image.trailing.isEmpty then [] else [.trailingBytes image.trailing.length]
    | .error _ => []
  match ofFile file verified with
  | .ok archive => ⟨.ok archive, warnings ++ [.opened archive.path archive.header]⟩
  | .error error => ⟨.error error, warnings⟩

end Archive

end RatingArchive

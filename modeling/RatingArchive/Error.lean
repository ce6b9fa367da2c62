import RatingArchive.IoError
import RatingArchive.Rating
import RatingArchive.Text.Hex
/-!
# Failures of packing, opening and transport

An `Error` is one of five kinds, each with its causes: the header is unusable, the file is too
short for what it declares, the operation is not allowed now, the data contradict themselves, or
the medium failed. The message of an error is the wording of its kind followed by that of its
cause.
-/

namespace RatingArchive

/-- What is wrong with a header. -/
inductive HeaderFault where
  | magic (found : UInt32)
  | version (found : UInt32)
  | unknownFlags (bits : UInt32)
  /-- Records are declared, but no users or no items. -/
  | recordsWithoutKeys (records : UInt32)
  /-- More users or items are declared than records. -/
  | moreKeysThanRecords (users items records : UInt32)
  deriving DecidableEq, Repr

/-- Why an operation is not allowed in the state the object is in. -/
inductive StateFault where
  /-- A cutoff was asked of an archive without timestamps. -/
  | windowWithoutTimestamps
  /-- An index table already has all its entries. -/
  | tableFull (expected : UInt32)
  /-- A key does not follow the one before it. -/
  | keyOrder (key last : UInt64)
  /-- A key was given without slots. -/
  | emptyRun (key : UInt64)
  /-- A key was given more slots than can be counted. -/
  | longRun (key : UInt64)
  /-- An index table lacks some of its entries. -/
  | unfinishedTable (written : Nat) (expected : UInt32)
  | packerClosed
  | packerFull
  /-- The output of a packer was not empty. -/
  | outputInUse (size : Nat)
  deriving DecidableEq, Repr

/-- How data contradict themselves or the format. -/
inductive DataFault where
  /-- A rating without timestamp was given to a format that stores timestamps. -/
  | missingTimestamp (item user : UInt64)
  /-- An index table has another number of entries than the header declares. -/
  | entryCount (found expected : UInt32)
  | keyOrder (key last : UInt64)
  | emptyRun (key : UInt64)
  /-- The slots of a key do not ascend. -/
  | slotOrder (key : UInt64) (slot last : UInt32)
  /-- A key refers to a slot that holds no record. -/
  | slotBeyond (key : UInt64) (slot limit : UInt32)
  /-- The runs of an index have another total length than there are records. -/
  | coverage (side : Side) (covered : Nat) (records : UInt32)
  /-- A stream ended inside an index table. -/
  | endInTable
  /-- A stream ended inside the slots of a key. -/
  | endInRun (key : UInt64)
  /-- A stream ended outside its index tables. -/
  | endInTransport
  | headerSize (found : UInt32)
  /-- A stream limits its records to more than the header declares. -/
  | limitBeyond (limit records : UInt32)
  /-- A stream announces another amount of record data than its records need. -/
  | dataSize (found : UInt64) (expected : Nat) (records : UInt32)
  /-- The timestamps of the records do not ascend. -/
  | timestampOrder (slot : Nat) (timestamp last : UInt64)
  /-- An index lists a slot twice. -/
  | slotTwice (side : Side) (slot : UInt32)
  /-- An index lists a slot under a key that is not the record's. -/
  | foreignSlot (side : Side) (slot : UInt32) (key actual : UInt64)
  deriving DecidableEq, Repr

/-- Why packing, opening or transport failed. -/
inductive Error where
  | malformedHeader (fault : HeaderFault)
  /-- At least `expected` bytes are needed, and `actual` are there. -/
  | truncated (expected actual : Nat)
  | illegalState (fault : StateFault)
  | invalidData (fault : DataFault)
  | io (failure : IoError)
  deriving DecidableEq, Repr

/-- The version of the format. -/
def formatVersion : UInt32 := 1

/-- The size of a header in bytes. -/
def headerSize : Nat := 24

/-- The largest number of ratings in an archive. -/
def maxRatings : Nat := UInt32.size - 1

/-- The wording of a fault. -/
def HeaderFault.message : HeaderFault → String
  | magic found => "invalid magic number " ++ Text.hex 8 found.toNat
  | version found =>
    "file is version " ++ toString found ++ ", expected " ++ toString formatVersion
  | unknownFlags bits => "unknown format flags " ++ Text.hex 1 bits.toNat
  | recordsWithoutKeys records => toString records ++ " records declared without users or items"
  | moreKeysThanRecords users items records =>
    "more keys (" ++ toString users ++ " users, " ++ toString items ++ " items) than records (" ++
      toString records ++ ")"

/-- The wording of a fault. -/
def StateFault.message : StateFault → String
  | windowWithoutTimestamps => "cannot window a rating file packed without timestamps"
  | tableFull expected => "index table is full: " ++ toString expected ++ " entries expected"
  | keyOrder key last =>
    "keys must be written in ascending order: " ++ toString key ++ " after " ++ toString last
  | emptyRun key => "key " ++ toString key ++ " has no positions"
  | longRun key => "key " ++ toString key ++ " owns too many positions"
  | unfinishedTable written expected =>
    "index table has " ++ toString written ++ " entries, " ++ toString expected ++ " expected"
  | packerClosed => "packer is closed"
  | packerFull => "packer is full: at most " ++ toString maxRatings ++ " ratings per file"
  | outputInUse size => "packer output already holds " ++ toString size ++ " bytes"

/-- The wording of a fault. -/
def DataFault.message : DataFault → String
  | missingTimestamp item user =>
    "rating of item " ++ toString item ++ " by user " ++ toString user ++ " has no timestamp"
  | entryCount found expected =>
    "index table holds " ++ toString found ++ " entries, " ++ toString expected ++ " expected"
  | keyOrder key last =>
    "index keys out of order: " ++ toString key ++ " after " ++ toString last
  | emptyRun key => "key " ++ toString key ++ " has an empty run"
  | slotOrder key slot last =>
    "positions of key " ++ toString key ++ " out of order: " ++ toString slot ++ " after " ++
      toString last
  | slotBeyond key slot limit =>
    "key " ++ toString key ++ " refers to slot " ++ toString slot ++ " beyond " ++ toString limit ++
      " records"
  | coverage side covered records =>
    side.name ++ " index covers " ++ toString covered ++ " slots, file holds " ++
      toString records ++ " records"
  | endInTable => "unexpected end of stream reading index table"
  | endInRun key => "unexpected end of stream reading positions of key " ++ toString key
  | endInTransport => "unexpected end of stream reading rating store"
  | headerSize found =>
    "header size " ++ toString found ++ " does not match expected " ++
      toString RatingArchive.headerSize
  | limitBeyond limit records =>
    "limit " ++ toString limit ++ " exceeds the " ++ toString records ++ " records of the file"
  | dataSize found expected records =>
    "record data is " ++ toString found ++ " bytes, " ++ toString expected ++ " expected for " ++
      toString records ++ " records"
  | timestampOrder slot timestamp last =>
    "record " ++ toString slot ++ " has timestamp " ++ toString timestamp ++ " after " ++
      toString last
  | slotTwice side slot =>
    "slot " ++ toString slot ++ " appears twice in the " ++ side.name ++ " index"
  | foreignSlot side slot key actual =>
    side.name ++ " index lists slot " ++ toString slot ++ " under " ++ toString key ++
      ", record belongs to " ++ toString actual

/-- The wording of an error. -/
def Error.message : Error → String
  | malformedHeader fault => "malformed header: " ++ fault.message
  | truncated expected actual =>
    "truncated file: expected at least " ++ toString expected ++ " bytes, found " ++ toString actual
  | illegalState fault => "illegal state: " ++ fault.message
  | invalidData fault => "invalid data: " ++ fault.message
  | io failure => "io error: " ++ failure.message

/-- The error for a failed read of a piece of fixed length. A stream that ends there holds invalid
data; every other failure is passed on. -/
def Error.ofRead (atEnd : DataFault) (failure : IoError) : Error :=
  if failure.kind = .unexpectedEnd then .invalidData atEnd else .io failure

end RatingArchive

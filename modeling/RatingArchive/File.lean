import RatingArchive.Bytes
import RatingArchive.Calendar
import RatingArchive.IoError
/-!
# Readable files

A file whose content is at hand: on disk, with a path and a modification time, or in memory.
-/

namespace RatingArchive

/-- An immutable, fully addressable string of bytes. -/
structure File where
  content : Bytes
  /-- Where the file is, if it is on disk. -/
  path : Option String
  modified : Option Moment
  deriving DecidableEq, Repr

namespace File

/-- A file in memory. -/
def inMemory (content : Bytes) : File := ⟨content, none, none⟩

/-- The number of bytes of a file. -/
def size (file : File) : Nat := file.content.length

/-- The `length` bytes from `offset` on. Nothing can be read anywhere; the end of a range is at most
the largest word in messages. -/
def read (file : File) (offset : UInt64) (length : Nat) : Except IoError Bytes :=
  if length = 0 then .ok []
  else
    let stop := min (offset.toNat + length) (UInt64.size - 1)
    if file.size < stop then .error (.readPastEnd offset.toNat stop file.size)
    else .ok ((file.content.drop offset.toNat).take length)

end File

end RatingArchive

import RatingArchive.Archive
/-!
# Descriptions

What identifies the data behind an archive in logs and tools: the file, its modification time, and
the header.
-/

namespace RatingArchive

/-- Where an archive comes from. -/
structure Description where
  /-- The file, unless the archive came from memory or a stream. -/
  file : Option String
  /-- The modification time of the file in milliseconds since the start of 1970; zero if it is
  not known. -/
  lastModified : Int
  header : Header
  deriving DecidableEq, Repr

namespace Description

/-- The description of a file with the given header. -/
def new (file : Option String) (modified : Option Moment) (header : Header) : Description :=
  ⟨file, (modified.map Moment.millis).getD 0, header⟩

/-- The description in one line. -/
def text (description : Description) : String :=
  "file=" ++ description.file.getD "/dev/null" ++ " mtime=" ++
    Calendar.timeText description.lastModified ++ " header=" ++ description.header.text

end Description

/-- The description of an archive. -/
def Archive.describe (archive : Archive) : Description :=
  .new archive.path archive.modified archive.header

end RatingArchive

import RatingArchive.Bytes
/-!
# Lines of text

A file is cut into lines at its line feeds. A carriage return in front of a line feed belongs to the
line's end. What follows the last line feed is a line too, unless there is nothing.
-/

namespace RatingArchive.Text

/-- The bytes cut at their line feeds: the lines that end in one, and what follows the last. -/
def cutLines (bytes : Bytes) : List Bytes × Bytes :=
  bytes.foldr (fun byte (lines, last) =>
    if byte = 10 then ([] :: lines, last)
    else
      match lines with
      | [] => ([], byte :: last)
      | line :: lines => ((byte :: line) :: lines, last)) ([], [])

/-- A line without the carriage return at its end. -/
def dropReturn (line : Bytes) : Bytes :=
  if line.getLast? = some 13 then line.dropLast else line

/-- The lines of a file. -/
def lines (bytes : Bytes) : List Bytes :=
  let (ended, last) := cutLines bytes
  ended.map dropReturn ++ if last.isEmpty then [] else [last]

/-- The text of a line, if it is valid UTF-8. -/
def ofUtf8? (bytes : Bytes) : Option String := String.fromUTF8? (ByteArray.mk bytes.toArray)

/-- The bytes of a text. -/
def toUtf8 (text : String) : Bytes := text.toUTF8.toList

end RatingArchive.Text

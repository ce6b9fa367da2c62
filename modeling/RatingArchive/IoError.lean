/-!
# Failures of files, sinks and streams

A failure has a kind, which callers act on, and a message. The failures that this library raises
itself are listed by their cause; what a device reports is taken over as it is.
-/

namespace RatingArchive

/-- The kinds of failures that callers tell apart. -/
inductive IoKind where
  /-- There is no such file. -/
  | notFound
  /-- A file or stream ended too early. -/
  | unexpectedEnd
  /-- An argument of the operation makes no sense. -/
  | invalidInput
  /-- The bytes do not have the form asked for. -/
  | invalidData
  /-- There is no room for what is written. -/
  | noRoom
  /-- Any other failure. -/
  | other
  /-- The operation left the bounds of a buffer, so that the program cannot go on. -/
  | fatal
  deriving DecidableEq, Repr

/-- Why an operation on a file, a sink or a stream failed. -/
inductive IoError where
  /-- There is no file at the path, or no folder for it. -/
  | notFound
  /-- The bytes from `start` to `stop` were asked of a file of `size` bytes. -/
  | readPastEnd (start stop size : Nat)
  /-- A stream ended inside a piece of fixed length. -/
  | streamEnded
  /-- The bytes from `start` to `stop` of a buffer of `size` bytes were to be patched. -/
  | patchPastEnd (start stop size : Nat)
  /-- The bytes to be patched end before they start, because the end is past the last address. -/
  | patchReversed (start stop : Nat)
  /-- A file was to be patched past the data written to it. -/
  | patchUnwritten
  /-- A file was to be patched at a position that files do not have. -/
  | badPosition
  /-- The bytes written do not fit into the room there is. -/
  | bufferFull
  /-- A line is not valid UTF-8. -/
  | notText
  /-- A device reported a failure. -/
  | device (kind : IoKind) (report : String)
  deriving DecidableEq, Repr

namespace IoError

/-- The kind of a failure. -/
def kind : IoError → IoKind
  | notFound => .notFound
  | readPastEnd .. => .unexpectedEnd
  | streamEnded => .unexpectedEnd
  | patchPastEnd .. => .invalidInput
  | patchReversed .. => .fatal
  | patchUnwritten => .invalidInput
  | badPosition => .invalidInput
  | bufferFull => .noRoom
  | notText => .invalidData
  | device kind _ => kind

/-- The wording of a failure. -/
def message : IoError → String
  | notFound => "No such file or directory (os error 2)"
  | readPastEnd start stop size =>
    "read " ++ toString start ++ ".." ++ toString stop ++ " past end of " ++ toString size ++
      " bytes"
  | streamEnded => "failed to fill whole buffer"
  | patchPastEnd start stop size =>
    "write " ++ toString start ++ ".." ++ toString stop ++ " past end of " ++ toString size ++
      " bytes"
  | patchReversed start stop =>
    "slice index starts at " ++ toString start ++ " but ends at " ++ toString stop
  | patchUnwritten => "write_at past the end of the written data"
  | badPosition => "Invalid argument (os error 22)"
  | bufferFull => "failed to write whole buffer"
  | notText => "stream did not contain valid UTF-8"
  | device _ report => report

end IoError

end RatingArchive

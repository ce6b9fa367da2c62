import RatingArchive.Header
/-!
# Events

What packing, opening and transport report while they work. An event has a level and a message; a
`Logged` result carries the events up to it, also when it is an error.
-/

namespace RatingArchive

/-- How much attention an event deserves. -/
inductive Level where
  | debug
  | info
  | warn
  deriving DecidableEq, Repr

/-- The word for a level. -/
def Level.name : Level → String
  | debug => "DEBUG"
  | info => "INFO"
  | warn => "WARN"

/-- What happened. -/
inductive Event where
  /-- Bytes behind the second index of a file are not looked at. -/
  | trailingBytes (count : Nat)
  | opened (path : Option String) (header : Header)
  /-- A cutoff left `kept` of `limit` records. -/
  | windowed (cutoff : UInt64) (kept limit : UInt32)
  | exported (records : UInt32) (size : Nat)
  | imported (records : UInt32) (header : Header)
  /-- A rating had a timestamp that the format does not store. -/
  | timestampsDropped
  | packed (header : Header) (size userIndexSize itemIndexSize : Nat)
  /-- A packer could not be closed when it was dropped. -/
  | closeFailed (error : Error)
  deriving DecidableEq, Repr

namespace Event

/-- The level of an event. -/
def level : Event → Level
  | trailingBytes _ => .warn
  | opened .. => .info
  | windowed .. => .debug
  | exported .. => .debug
  | imported .. => .debug
  | timestampsDropped => .warn
  | packed .. => .info
  | closeFailed _ => .warn

/-- The wording of an event. -/
def message : Event → String
  | trailingBytes count => "ignoring " ++ toString count ++ " trailing bytes after the item index"
  | opened path header =>
    "opened rating store " ++ path.getD "<memory>" ++ " (" ++ header.text ++ ")"
  | windowed cutoff kept limit =>
    "windowing at timestamp " ++ toString cutoff ++ ": " ++ toString kept ++ " of " ++
      toString limit ++ " records"
  | exported records size =>
    "exported " ++ toString records ++ " records in " ++ toString size ++ " bytes"
  | imported records header => "imported " ++ toString records ++ " records (" ++ header.text ++ ")"
  | timestampsDropped => "file is packed without timestamps, dropping rating timestamps"
  | packed header size userIndexSize itemIndexSize =>
    "packed " ++ header.text ++ " (" ++ toString size ++ " bytes, user index " ++
      toString userIndexSize ++ " bytes, item index " ++ toString itemIndexSize ++ " bytes)"
  | closeFailed error => "failed to close rating packer: " ++ error.message

/-- The event in one line. -/
def text (event : Event) : String := event.level.name ++ " " ++ event.message

end Event

/-- A result with the events that led to it, oldest first. -/
structure Logged (α : Type) where
  result : Except Error α
  events : List Event

/-- Goes on with the value of a result, and after an error not at all. -/
def Logged.andThen {α β : Type} (first : Logged α) (next : α → Logged β) : Logged β :=
  match first.result with
  | .ok value =>
    let second := next value
    ⟨second.result, first.events ++ second.events⟩
  | .error error => ⟨.error error, first.events⟩

end RatingArchive

import RatingArchive.Event
import RatingArchive.Index.Builder
import RatingArchive.Index.Collation
import RatingArchive.Sink.Memory
/-!
# Packing ratings

A packer writes an archive to a sink. It begins with 24 zero bytes in place of the header, so that
an archive that was never closed has no magic number and does not open. Without timestamps each
rating is written as it arrives. With timestamps the ratings wait until the packer is closed, and
are then written in timestamp order, ratings of one timestamp in the order they arrived. Closing
writes the two indexes, patches the header and syncs the sink.

Closing is attempted once, by `close`, `finish` or `drop`; after it, failed or not, the packer
accepts no ratings and leaves its sink alone. What a packer reports is kept in its journal.

In which order the keys of the indexes are handed out before they are sorted is left open by
`closeBy`, `finishBy` and `dropBy`. The three operations above take them as they were met.

* `pack`: the archive of a list of ratings.
-/

namespace RatingArchive

/-- An archive in the making. -/
structure Packer (σ : Type) where
  sink : σ
  format : Format
  /-- The number of records written. -/
  count : Nat
  /-- The slots of each user, users in the order they were first met. -/
  users : List Entry
  /-- The slots of each item, items in the order they were first met. -/
  items : List Entry
  /-- Ratings that wait to be sorted, in the order they arrived. -/
  pending : List Rating
  /-- Whether the loss of timestamps was reported. -/
  timestampsDropped : Bool
  closed : Bool
  /-- What was reported so far, oldest first. -/
  journal : List Event

/-- Records that `key` has a record at `slot`, among the slots of the keys met so far. -/
def noteSlot (key : UInt64) (slot : UInt32) : List Entry → List Entry
  | [] => [⟨key, [slot]⟩]
  | entry :: entries =>
    if entry.key = key then ⟨key, entry.slots ++ [slot]⟩ :: entries
    else entry :: noteSlot key slot entries

/-- Zeros in place of a header. -/
def blankHeader : Bytes := List.replicate headerSize 0

namespace Packer

variable {σ : Type}

/-- An operation on a packer. What it has done stays done when it fails. -/
abbrev Action (σ α : Type) := EStateM Error (Packer σ) α

/-- Runs an operation of the sink. -/
def onSink {α : Type} (operation : EStateM IoError σ α) : Action σ α := fun packer =>
  match operation packer.sink with
  | .ok value sink => .ok value { packer with sink }
  | .error failure sink => .error (.io failure) { packer with sink }

/-- Takes a value, or fails with its error. -/
def require {α : Type} : Except Error α → Action σ α
  | .ok value => pure value
  | .error error => throw error

/-- Adds an event to the journal. -/
def report (event : Event) : Action σ Unit :=
  modify fun packer => { packer with journal := packer.journal ++ [event] }

/-- The number of ratings accepted so far. -/
def ratingCount (packer : Packer σ) : Nat := packer.count + packer.pending.length

/-- The header of an archive of what was written so far. -/
def header (packer : Packer σ) : Header where
  format := packer.format
  records := UInt32.ofNat packer.count
  users := UInt32.ofNat packer.users.length
  items := UInt32.ofNat packer.items.length

variable [Sink σ]

/-- Starts an archive on an empty sink. A sink that is refused is handed back. -/
def new (sink : σ) (format : Format) : Except (Error × σ) (Packer σ) :=
  if Sink.size sink ≠ 0 then .error (.illegalState (.outputInUse (Sink.size sink)), sink)
  else
    match Sink.append blankHeader sink with
    | .ok _ sink => .ok
        { sink, format, count := 0, users := [], items := [], pending := []
          timestampsDropped := false, closed := false, journal := [] }
    | .error failure sink => .error (.io failure, sink)

/-- Writes the record of a rating. -/
def appendRecord (rating : Rating) : Action σ Unit := do
  let record ← require ((← get).format.encode rating)
  let _ ← onSink (Sink.append record)
  modify fun packer =>
    let slot := UInt32.ofNat packer.count
    { packer with
      users := noteSlot rating.user slot packer.users
      items := noteSlot rating.item slot packer.items
      count := packer.count + 1 }

/-- Adds a rating to the archive. -/
def write (rating : Rating) : Action σ Unit := do
  let packer ← get
  if packer.closed then
    throw (.illegalState .packerClosed)
  else if maxRatings ≤ packer.ratingCount then
    throw (.illegalState .packerFull)
  else if packer.format.hasTimestamps then
    if rating.timestamp.isNone then
      throw (.invalidData (.missingTimestamp rating.item rating.user))
    else
      set { packer with pending := packer.pending ++ [rating] }
  else
    if rating.timestamp.isSome && !packer.timestampsDropped then
      report .timestampsDropped
      modify ({ · with timestampsDropped := true })
    appendRecord rating

/-- Adds ratings in order, up to the first that is refused. -/
def writeAll (ratings : List Rating) : Action σ Unit := ratings.forM write

/-- Writes an index with entries that are in the order of their keys, and answers its size. -/
def writeIndex (entries : List Entry) : Action σ Nat := do
  let index ← require (encodeEntries entries)
  let _ ← onSink (Sink.append index)
  return index.length

/-! ## Closing -/

section

variable (collation : Collation)

/-- Writes the two indexes behind the records, and then the header. -/
def finalizeBy : Action σ Unit := do
  let packer ← get
  let userIndexSize ← writeIndex (collation.collate .user packer.users)
  let itemIndexSize ← writeIndex (collation.collate .item packer.items)
  onSink (Sink.patch 0 packer.header.render)
  onSink Sink.sync
  report (.packed packer.header (Sink.size (← get).sink) userIndexSize itemIndexSize)

/-- Writes the records of the ratings that wait, and what belongs behind the records. -/
def completeBy (pending : List Rating) : Action σ Unit := do
  (pending.mergeSort Rating.notLater).forM appendRecord
  finalizeBy collation

/-- Completes the archive by a collation, unless that was attempted before. -/
def closeBy : Action σ Unit := do
  let packer ← get
  if packer.closed then return
  set { packer with closed := true, pending := [] }
  completeBy collation packer.pending

/-- Completes the archive by a collation and hands out the sink, which a closed packer no longer
has. -/
def finishBy : Action σ σ := do
  if (← get).closed then throw (.illegalState .packerClosed)
  closeBy collation
  return (← get).sink

/-- Gives up the packer. An archive that was not closed is completed by a collation, if that is
possible. -/
def dropBy : Action σ Unit := do
  if !(← get).closed then
    try closeBy collation catch error => report (.closeFailed error)

end

/-- Completes the archive, unless that was attempted before. -/
def close : Action σ Unit := closeBy .asMet

/-- Completes the archive and hands out the sink. -/
def finish : Action σ σ := finishBy .asMet

/-- Gives up the packer. -/
def drop : Action σ Unit := dropBy .asMet

end Packer

/-- The archive of a list of ratings, in memory. -/
def packLogged (ratings : List Rating) (format : Format) : Logged Bytes :=
  match Packer.new (⟨[]⟩ : MemorySink) format with
  | .error (error, _) => ⟨.error error, []⟩
  | .ok packer =>
    match (do Packer.writeAll ratings; Packer.finish).run packer with
    | .ok sink packer => ⟨.ok sink.content, packer.journal⟩
    | .error error packer =>
      match Packer.drop.run packer with
      | .ok _ packer => ⟨.error error, packer.journal⟩
      | .error _ packer => ⟨.error error, packer.journal⟩

/-- The archive of a list of ratings. -/
def pack (ratings : List Rating) (format : Format) : Except Error Bytes :=
  (packLogged ratings format).result

end RatingArchive

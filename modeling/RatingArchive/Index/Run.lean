import RatingArchive.Index.Reading
/-!
# Runs of slots

A reader of a table leaves the slots of a key as they are written, one word after the other, and
decodes a slot when it is asked for.
-/

namespace RatingArchive

/-- The slots of a key as they are written. -/
structure SlotRun where
  bytes : Bytes
  deriving DecidableEq, Repr

namespace SlotRun

/-- The number of slots. -/
def length (run : SlotRun) : Nat := run.bytes.length / 4

/-- Whether there are no slots. -/
def isEmpty (run : SlotRun) : Bool := run.bytes.isEmpty

/-- The slot at a place. Past the end there is none. -/
def get? (run : SlotRun) (i : Nat) : Option UInt32 := (slice? run.bytes (i * 4) 4).map ofWord32

/-- The first slot. -/
def first? (run : SlotRun) : Option UInt32 := if run.isEmpty then none else run.get? 0

/-- The last slot. -/
def last? (run : SlotRun) : Option UInt32 :=
  if run.isEmpty then none else run.get? (run.length - 1)

/-- All slots in order. -/
def toList (run : SlotRun) : List UInt32 := words32 run.bytes

end SlotRun

/-- The run of an entry. -/
def Entry.run (entry : Entry) : SlotRun := ⟨entry.slots.flatMap word32⟩

end RatingArchive

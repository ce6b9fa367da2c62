import RatingArchive.Error
import RatingArchive.Search
/-!
# Index tables

An index table lists the keys of one side of an archive in ascending order, each with the run of
slots whose records have it. Keys and slots are found by halving, which is right for tables whose
keys and runs ascend; the readers of tables admit no others.
-/

namespace RatingArchive

/-- A key with the slots of its records. -/
structure Entry where
  key : UInt64
  slots : List UInt32
  deriving DecidableEq, Inhabited, Repr

/-- The slots of every key. -/
structure IndexTable where
  entries : List Entry
  deriving DecidableEq, Inhabited, Repr

namespace Entry

/-- The entry with only its slots below `limit`. -/
def below (entry : Entry) (limit : UInt32) : Entry :=
  { entry with
    slots := entry.slots.take
      (lowerBound entry.slots.length fun i => compare limit entry.slots[i]) }

/-- The size of an entry in bytes: key, length of the run, and slots. -/
def size (entry : Entry) : Nat := 8 + 4 + 4 * entry.slots.length

end Entry

namespace IndexTable

/-- The table without keys. -/
def empty : IndexTable := ⟨[]⟩

/-- The keys of a table. -/
def keys (table : IndexTable) : List UInt64 := table.entries.map Entry.key

/-- The number of slots listed, over all keys. -/
def slotCount (table : IndexTable) : Nat := (table.entries.flatMap (·.slots)).length

/-- The result of the search for a key. -/
def find (table : IndexTable) (key : UInt64) : SearchResult :=
  search table.entries.length fun i => compare key table.entries[i].key

/-- The entry of a key. -/
def entry? (table : IndexTable) (key : UInt64) : Option Entry :=
  match table.find key with
  | .found i => table.entries[i]?
  | .missing _ => none

/-- The slots of a key. -/
def slots? (table : IndexTable) (key : UInt64) : Option (List UInt32) :=
  (table.entry? key).map Entry.slots

/-- Whether a key is listed. -/
def contains (table : IndexTable) (key : UInt64) : Bool := (table.find key).isFound

/-- The table of the slots below `limit`. Keys that are left without slots are dropped. -/
def below (table : IndexTable) (limit : UInt32) : IndexTable :=
  ⟨(table.entries.map (·.below limit)).filter (!·.slots.isEmpty)⟩

/-- Checks that no key refers to a slot at or past `limit`. Runs ascend, so the last slot of each
decides. -/
def checkSlots (table : IndexTable) (limit : UInt32) : Except Error Unit :=
  table.entries.forM fun entry =>
    match entry.slots.getLast? with
    | some slot =>
      if limit ≤ slot then .error (.invalidData (.slotBeyond entry.key slot limit)) else .ok ()
    | none => .ok ()

/-- Checks that the table can be the index of `records` records: its slots are those of records,
and as many. -/
def checkCoverage (table : IndexTable) (side : Side) (records : UInt32) : Except Error Unit := do
  table.checkSlots records
  if table.slotCount ≠ records.toNat then
    throw (.invalidData (.coverage side table.slotCount records))

/-! ## Walking through a table -/

/-- A place between the entries of a table. -/
structure Cursor where
  table : IndexTable
  /-- The number of entries passed. -/
  passed : Nat

/-- The place in front of the first entry. -/
def start (table : IndexTable) : Cursor := ⟨table, 0⟩

/-- The number of entries still to come. -/
def Cursor.remaining (cursor : Cursor) : Nat := cursor.table.entries.length - cursor.passed

/-- The next entry, and the place behind it. At the end there is none, and the place stays. -/
def Cursor.next (cursor : Cursor) : Option Entry × Cursor :=
  match cursor.table.entries[cursor.passed]? with
  | some entry => (some entry, { cursor with passed := cursor.passed + 1 })
  | none => (none, cursor)

end IndexTable

end RatingArchive

import RatingArchive.Format
/-!
# Lists of ratings

A list of ratings is a choice of slots of a record region: a range of them, or the run of a key.
Records are decoded when they are asked for. A list can be walked through from both ends at once; a
`Cursor` holds the places that still lie between the two ends. Whoever owns a list can also walk
through it from the front, from `Place` to `Place`.
-/

namespace RatingArchive

/-- The slots of a list. -/
inductive Slots where
  /-- The slots from `start` up to `stop`. -/
  | range (start stop : UInt32)
  /-- The slots of a key. -/
  | run (slots : List UInt32)
  deriving DecidableEq, Repr

namespace Slots

/-- The number of slots. -/
def length : Slots → Nat
  | range start stop => stop.toNat - start.toNat
  | run slots => slots.length

/-- The slot at a place of the list. -/
def get? : Slots → Nat → Option UInt32
  | range start stop, i =>
    if i < stop.toNat - start.toNat then some (start + UInt32.ofNat i) else none
  | run slots, i => slots[i]?

/-- All slots in order. -/
def toList (slots : Slots) : List UInt32 := (List.range slots.length).filterMap slots.get?

end Slots

/-- Ratings at some slots of a region. -/
structure RatingList where
  format : Format
  region : Bytes
  slots : Slots
  deriving Repr

namespace RatingList

/-- The number of ratings. -/
def length (list : RatingList) : Nat := list.slots.length

/-- Whether the list has no ratings. -/
def isEmpty (list : RatingList) : Bool := list.length == 0

/-- The slot of the rating at a place. -/
def slot? (list : RatingList) (i : Nat) : Option UInt32 := list.slots.get? i

/-- The rating at a place. A slot past the end of the region has none. -/
def get? (list : RatingList) (i : Nat) : Option Rating := do
  let slot ← list.slot? i
  list.format.record? list.region slot.toNat

/-- The first rating. -/
def first? (list : RatingList) : Option Rating := list.get? 0

/-- The last rating. -/
def last? (list : RatingList) : Option Rating :=
  if list.length = 0 then none else list.get? (list.length - 1)

/-- All ratings in order. -/
def toList (list : RatingList) : List Rating := (List.range list.length).filterMap list.get?

/-- Whether two lists have the same ratings, wherever they are stored. -/
def same (list other : RatingList) : Bool :=
  list.length == other.length && list.toList == other.toList

/-! ## Walking from both ends -/

/-- The places from `front` up to `back` of a list. -/
structure Cursor where
  list : RatingList
  front : Nat
  back : Nat

/-- All places of a list. -/
def cursor (list : RatingList) : Cursor := ⟨list, 0, list.length⟩

namespace Cursor

/-- The number of ratings between the ends. -/
def remaining (cursor : Cursor) : Nat := cursor.back - cursor.front

/-- The rating at the front, and what lies behind it. -/
def next (cursor : Cursor) : Option Rating × Cursor :=
  if cursor.front < cursor.back then
    (cursor.list.get? cursor.front, { cursor with front := cursor.front + 1 })
  else (none, cursor)

/-- The rating at the back, and what lies before it. -/
def nextBack (cursor : Cursor) : Option Rating × Cursor :=
  if cursor.front < cursor.back then
    (cursor.list.get? (cursor.back - 1), { cursor with back := cursor.back - 1 })
  else (none, cursor)

/-- Takes ratings from the front (`true`) or the back (`false`), as a list of moves says. Each step
yields a rating, if there is one, and the number of those left. -/
def walk : List Bool → Cursor → List (Option Rating × Nat)
  | [], _ => []
  | fromFront :: moves, cursor =>
    let (rating, cursor) := if fromFront then cursor.next else cursor.nextBack
    (rating, cursor.remaining) :: walk moves cursor

end Cursor

/-! ## Walking from the front -/

/-- A place between the ratings of a list. -/
structure Place where
  list : RatingList
  /-- The number of ratings passed. -/
  passed : Nat

/-- The place in front of the first rating. -/
def start (list : RatingList) : Place := ⟨list, 0⟩

namespace Place

/-- The number of ratings still to come. -/
def remaining (place : Place) : Nat := place.list.length - place.passed

/-- The next rating, and the place behind it. At the end there is none, and the place stays. -/
def next (place : Place) : Option Rating × Place :=
  if place.passed < place.list.length then
    (place.list.get? place.passed, { place with passed := place.passed + 1 })
  else (none, place)

end Place

end RatingList

end RatingArchive

import RatingArchive.Binary64.Text
/-!
# Ratings

A rating says that a user gave an item a value, possibly at a moment. A NaN value withdraws an
earlier rating of the item. Ratings are equal if all their parts are, values being compared as bit
patterns, so that withdrawals equal themselves.

Users and items play the same part in an archive, as the two `Side`s of a rating: each side has an
index, and everything that is done by user is done by item in the same way.
-/

namespace RatingArchive

/-- The two kinds of identifiers in a rating. -/
inductive Side where
  /-- Who rated. -/
  | user
  /-- What was rated. -/
  | item
  deriving DecidableEq, Repr

/-- The word for a side in messages. -/
def Side.name : Side → String
  | user => "user"
  | item => "item"

/-- The side opposite to a side. -/
def Side.other : Side → Side
  | user => item
  | item => user

theorem Side.forall_iff {p : Side → Prop} : (∀ side, p side) ↔ p .user ∧ p .item :=
  ⟨fun all => ⟨all .user, all .item⟩, fun both side => by cases side <;> simp [both]⟩

/-- One event: a user rated an item, or withdrew the rating. -/
structure Rating where
  user : UInt64
  item : UInt64
  value : Binary64
  timestamp : Option UInt64
  deriving DecidableEq, Inhabited, Repr

namespace Rating

/-- The identifier on one side of a rating. -/
def key (rating : Rating) : Side → UInt64
  | .user => rating.user
  | .item => rating.item

/-- The event by which a user withdraws a rating of an item. -/
def unrate (user item : UInt64) (timestamp : Option UInt64) : Rating :=
  ⟨user, item, .nan, timestamp⟩

/-- Whether the event gives a value, and does not withdraw one. -/
def hasValue (rating : Rating) : Bool := !rating.value.isNaN

/-- The rating with its timestamp forgotten. -/
def withoutTimestamp (rating : Rating) : Rating := { rating with timestamp := none }

/-- Whether the rating was made before `time`. A rating without a timestamp comes before all
times. -/
def isBefore (rating : Rating) (time : UInt64) : Bool :=
  match rating.timestamp with
  | none => true
  | some timestamp => timestamp < time

/-- Whether `first` may stand before `second` in timestamp order. Ratings without timestamps come
first. -/
def notLater (first second : Rating) : Bool :=
  match first.timestamp, second.timestamp with
  | none, _ => true
  | some _, none => false
  | some t, some u => t ≤ u

theorem notLater_total (first second : Rating) :
    first.notLater second || second.notLater first := by
  unfold notLater
  cases first.timestamp <;> cases second.timestamp <;> simp [UInt64.le_total]

theorem notLater_trans {first second third : Rating} (h : first.notLater second)
    (h' : second.notLater third) : first.notLater third := by
  obtain ⟨_, _, _, t⟩ := first
  obtain ⟨_, _, _, u⟩ := second
  obtain ⟨_, _, _, v⟩ := third
  cases t <;> cases u <;> cases v <;> simp_all [notLater]
  exact UInt64.le_trans h h'

/-- The rating in one line. -/
def text (rating : Rating) : String :=
  "user=" ++ toString rating.user ++ " item=" ++ toString rating.item ++
    " value=" ++ rating.value.render .plain ++
    match rating.timestamp with
    | none => ""
    | some timestamp => " ts=" ++ toString timestamp

end Rating

end RatingArchive

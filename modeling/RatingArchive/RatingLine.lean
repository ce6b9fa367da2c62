import RatingArchive.Binary64.Reading
import RatingArchive.Rating
import RatingArchive.Text.Blank
import RatingArchive.Text.Split
/-!
# Ratings as lines of text

A line holds a user, an item, a value and possibly a timestamp, between delimiters and with blanks
around them that do not count. Further fields are not looked at. A timestamp that is there has to be
one, even where timestamps are not asked for.
-/

namespace RatingArchive

/-- Why a line is not a rating. -/
inductive LineFault where
  | tooFewFields (found : Nat)
  | user (fault : Text.NumberFault)
  | item (fault : Text.NumberFault)
  | value (fault : Binary64.ReadFault)
  | timestamp (fault : Text.NumberFault)
  /-- There is no timestamp, and one was asked for. -/
  | missingTimestamp
  deriving DecidableEq, Repr

/-- The wording of a fault, and of what it is due to. -/
def LineFault.messages : LineFault → List String
  | tooFewFields found => ["expected at least 3 fields, found " ++ toString found]
  | user fault => ["invalid user id", fault.message]
  | item fault => ["invalid item id", fault.message]
  | value fault => ["invalid value", fault.message]
  | timestamp fault => ["invalid timestamp", fault.message]
  | missingTimestamp => ["missing timestamp"]

/-- Names the part of a line that a fault is in. -/
def inField {ε α : Type} (fault : ε → LineFault) : Except ε α → Except LineFault α
  | .ok value => .ok value
  | .error cause => .error (fault cause)

/-- Reads the timestamp among the fields of a line, if there is one. -/
def readTimestamp (needed : Bool) (field : Option (List Char)) :
    Except LineFault (Option UInt64) :=
  match field with
  | none | some [] => if needed then .error .missingTimestamp else .ok none
  | some text => do return some (← inField .timestamp (Text.readNatural text))

/-- Reads the rating in the fields of a line. -/
def readFields (timestamps : Bool) : List (List Char) → Except LineFault Rating
  | userField :: itemField :: valueField :: more => do
    let user ← inField .user (Text.readNatural userField)
    let item ← inField .item (Text.readNatural itemField)
    let value ← inField .value (Binary64.read valueField)
    let timestamp ← readTimestamp timestamps more.head?
    return { user, item, value, timestamp }
  | fields => .error (.tooFewFields fields.length)

/-- Reads the rating in a line. -/
def readLine (delimiter : List Char) (timestamps : Bool) (line : List Char) :
    Except LineFault Rating :=
  readFields timestamps ((Text.splitOn delimiter line).map Text.trim)

end RatingArchive

/-!
# Unsigned 64-bit numbers in decimal

A number is an optional plus sign and ASCII digits. The digits are read from left to right and the
first fault decides what is wrong: a character that is no digit, or a digit that takes the number
past 64 bits.
-/

namespace RatingArchive.Text

/-- Why a text is not an unsigned 64-bit number. -/
inductive NumberFault where
  /-- There is nothing to read. -/
  | empty
  /-- A character is not a digit, or a sign stands alone. -/
  | invalidDigit
  /-- The digits denote a number of more than 64 bits. -/
  | tooLarge
  deriving DecidableEq, Repr

/-- The wording of a fault. -/
def NumberFault.message : NumberFault → String
  | empty => "cannot parse integer from empty string"
  | invalidDigit => "invalid digit found in string"
  | tooLarge => "number too large to fit in target type"

/-- The number that an ASCII digit denotes. -/
def digitValue? (c : Char) : Option Nat :=
  if c.isDigit then some (c.toNat - '0'.toNat) else none

/-- Reads the remaining digits of a number whose first digits denote `acc`. -/
def readDigits (acc : Nat) : List Char → Except NumberFault Nat
  | [] => .ok acc
  | c :: rest =>
    match digitValue? c with
    | none => .error .invalidDigit
    | some d =>
      if 10 * acc + d < UInt64.size then readDigits (10 * acc + d) rest else .error .tooLarge

/-- Reads an unsigned 64-bit number. -/
def readNatural : List Char → Except NumberFault UInt64
  | [] => .error .empty
  | ['+'] => .error .invalidDigit
  | '+' :: digits => return UInt64.ofNat (← readDigits 0 digits)
  | digits => return UInt64.ofNat (← readDigits 0 digits)

end RatingArchive.Text

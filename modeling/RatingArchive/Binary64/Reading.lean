import RatingArchive.Binary64
import RatingArchive.Text.Natural
/-!
# Reading a number

A number is an optional sign followed by `inf`, `infinity` or `nan` in any case, or by decimal
digits with an optional point and an optional exponent. The decimal is rounded once, to the nearest
binary number, a tie going to the number with the even significand.
-/

namespace RatingArchive.Binary64

/-! ## Rounding a quotient -/

/-- `num / den` rounded to the nearest whole number, ties to even. -/
def roundQuotient (num den : Nat) : Nat :=
  let whole := num / den
  match compare (2 * (num % den)) den with
  | .lt => whole
  | .gt => whole + 1
  | .eq => whole + whole % 2

/-- The magnitude bits of the number nearest to `num / den`. Past the largest finite number it is
infinity. -/
def roundRatio (num den : Nat) : Nat :=
  if num = 0 then 0
  else
    -- the quotient lies between `2 ^ (size - 1)` and `2 ^ (size + 1)`
    let size : Int := (Nat.log2 num : Int) - (Nat.log2 den : Int)
    let fits (q : Int) : Bool := num * power 2 (-q) < 2 * leadingBit * (den * power 2 q)
    let fine : Int := max (size - 53) (-1074)
    let q := if fits fine then fine else fine + 1
    let m := roundQuotient (num * power 2 (-q)) (den * power 2 q)
    -- a significand that rounds up to `2 ^ 53` carries into the exponent
    let magnitude := if m < leadingBit then m else (q + 1074).toNat * leadingBit + m
    min magnitude infinityBits

/-- The magnitude bits of the number nearest to `digits * 10 ^ exponent`. Decimals far outside the
range of the format are decided by their size alone. -/
def roundDecimal (digits : Nat) (exponent : Int) : Nat :=
  if digits = 0 then 0
  else
    let size : Int := (Nat.toDigits 10 digits).length + exponent
    if size < -330 then 0
    else if 310 < size then infinityBits
    else roundRatio (digits * power 10 exponent) (power 10 (-exponent))

/-! ## The grammar -/

/-- Why a text is not a number. -/
inductive ReadFault where
  /-- There is nothing to read. -/
  | empty
  /-- The text has another form. -/
  | invalid
  deriving DecidableEq, Repr

/-- The wording of a fault. -/
def ReadFault.message : ReadFault → String
  | empty => "cannot parse float from empty string"
  | invalid => "invalid float literal"

/-- The number that decimal digits denote. -/
def ofDigits (digits : List Char) : Nat :=
  digits.foldl (fun n c => 10 * n + (c.toNat - '0'.toNat)) 0

/-- Reads the exponent behind the digits of a decimal; nothing is the exponent zero. -/
def readExponent? : List Char → Option Int
  | [] => some 0
  | e :: text =>
    if e = 'e' ∨ e = 'E' then
      let (negative, digits) :=
        match text with
        | '-' :: digits => (true, digits)
        | '+' :: digits => (false, digits)
        | digits => (false, digits)
      if digits.isEmpty || !digits.all Char.isDigit then none
      else some (if negative then -(ofDigits digits : Int) else ofDigits digits)
    else none

/-- Reads a decimal without sign as magnitude bits. -/
def readDecimal? (text : List Char) : Option Nat :=
  let whole := text.takeWhile Char.isDigit
  let (fraction, rest) :=
    match text.dropWhile Char.isDigit with
    | '.' :: rest => (rest.takeWhile Char.isDigit, rest.dropWhile Char.isDigit)
    | rest => ([], rest)
  if whole.isEmpty && fraction.isEmpty then none
  else
    (readExponent? rest).map fun exponent =>
      roundDecimal (ofDigits (whole ++ fraction)) (exponent - fraction.length)

/-- Reads a number without sign as magnitude bits. -/
def readUnsigned? (text : List Char) : Option Nat :=
  match String.ofList (text.map Char.toLower) with
  | "inf" | "infinity" => some infinityBits
  | "nan" => some nanBits
  | _ => readDecimal? text

/-- Reads a number. -/
def read (text : List Char) : Except ReadFault Binary64 :=
  let (negative, rest) :=
    match text with
    | '-' :: rest => (true, rest)
    | '+' :: rest => (false, rest)
    | rest => (false, rest)
  if text.isEmpty then .error .empty
  else
    match readUnsigned? rest with
    | some magnitude => .ok (ofMagnitude negative magnitude)
    | none => .error .invalid

end RatingArchive.Binary64

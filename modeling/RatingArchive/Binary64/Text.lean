import RatingArchive.Binary64.Shortest
/-!
# The texts of a number

A number is shown by its shortest digits in one of two styles. The plain style never uses an
exponent. The exact style tells whole numbers from integers by a final `.0`, and writes very small
and very large numbers with an exponent.
-/

namespace RatingArchive.Binary64

/-- What is free in showing a number by its shortest digits. -/
structure Style where
  /-- What follows the digits of a whole number. -/
  wholeMark : String
  /-- Whether a number other than zero of this magnitude is written with an exponent. -/
  usesExponent : Nat → Bool

/-- Digits with a point where one is needed, and no exponent. -/
def Style.plain : Style where
  wholeMark := ""
  usesExponent _ := false

/-- The bits of the number nearest to one in ten thousand. -/
def tenThousandthBits : Nat := 0x3F1A36E2EB1C432D

/-- The bits of ten to the sixteenth. -/
def tenPow16Bits : Nat := 0x4341C37937E08000

/-- Whole numbers end in `.0`; below `0.0001` and from `10 ^ 16` on there is an exponent. -/
def Style.exact : Style where
  wholeMark := ".0"
  usesExponent magnitude := magnitude < tenThousandthBits || tenPow16Bits ≤ magnitude

/-- The decimal digits of a whole number. -/
def digitText (n : Nat) : List Char := Nat.toDigits 10 n

/-- A decimal in positional form. -/
def Decimal.positional (d : Decimal) (wholeMark : String) : String :=
  let digits := digitText d.digits
  if 0 ≤ d.exponent then
    String.ofList (digits ++ List.replicate d.exponent.toNat '0') ++ wholeMark
  else
    let places := (-d.exponent).toNat
    if places < digits.length then
      let whole := digits.length - places
      String.ofList (digits.take whole ++ '.' :: digits.drop whole)
    else
      String.ofList ('0' :: '.' :: List.replicate (places - digits.length) '0' ++ digits)

/-- A decimal with one digit before the point, and an exponent. -/
def Decimal.scientific (d : Decimal) : String :=
  let digits := digitText d.digits
  let exponent := d.exponent + (digits.length : Int) - 1
  match digits with
  | [digit] => String.ofList [digit] ++ "e" ++ toString exponent
  | digit :: rest => String.ofList (digit :: '.' :: rest) ++ "e" ++ toString exponent
  | [] => ""

/-- A number in the given style. NaN is shown without sign and payload. -/
def render (style : Style) (x : Binary64) : String :=
  if x.isNaN then "NaN"
  else
    let sign := if x.isNegative then "-" else ""
    if x.isInfinite then sign ++ "inf"
    else if x.isZero then sign ++ "0" ++ style.wholeMark
    else
      let (m, q) := x.decompose
      let decimal := shortest m q
      if style.usesExponent x.magnitude then sign ++ decimal.scientific
      else sign ++ decimal.positional style.wholeMark

end RatingArchive.Binary64

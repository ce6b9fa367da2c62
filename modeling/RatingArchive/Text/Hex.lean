/-!
# Hexadecimal numbers

Numbers that name bit patterns are written in base sixteen, with lower-case digits after `0x`.
-/

namespace RatingArchive.Text

/-- The base-sixteen digits of `n`, at least `width` of them. -/
def hexDigits (width n : Nat) : String :=
  let digits := Nat.toDigits 16 n
  String.ofList (List.replicate (width - digits.length) '0' ++ digits)

/-- `n` in base sixteen with its mark, and at least `width` digits. -/
def hex (width n : Nat) : String := "0x" ++ hexDigits width n

end RatingArchive.Text

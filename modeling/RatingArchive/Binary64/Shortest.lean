import RatingArchive.Binary64
/-!
# The shortest decimal that reads back

A finite number other than zero is written with the fewest decimal digits that still denote it
alone: the decimal lies in the interval of reals that round to the number. Of two decimals of that
length the nearer one is taken, and the larger one if both are equally near.

The interval ends half way to the two neighbours, and contains its ends exactly if the number's
significand is even, because reading rounds ties to the even neighbour.
-/

namespace RatingArchive.Binary64

/-- `digits * 10 ^ exponent`. -/
structure Decimal where
  digits : Nat
  exponent : Int
  deriving DecidableEq, Repr

/-- Compares `a * 10 ^ k` with `b * 2 ^ e`, by moving negative powers to the other side. -/
def compareScaled (a : Nat) (k : Int) (b : Nat) (e : Int) : Ordering :=
  compare (a * power 10 k * power 2 (-e)) (b * power 2 e * power 10 (-k))

/-- The reals that round to a number, in units of `2 ^ unit`, around the number itself. -/
structure Neighbourhood where
  low : Nat
  value : Nat
  high : Nat
  unit : Int
  closed : Bool
  deriving Repr

/-- The neighbourhood of the number `m * 2 ^ q`. Below a power of two the next number is only half
as far away as above it. -/
def neighbourhood (m : Nat) (q : Int) : Neighbourhood where
  low := if m = leadingBit then 4 * m - 1 else 4 * m - 2
  value := 4 * m
  high := 4 * m + 2
  unit := q - 2
  closed := m % 2 == 0

/-- Whether the decimal `a * 10 ^ k` rounds to the number in the middle. -/
def Neighbourhood.contains (n : Neighbourhood) (a : Nat) (k : Int) : Bool :=
  match compareScaled a k n.low n.unit, compareScaled a k n.high n.unit with
  | .gt, .lt => true
  | .eq, _ => n.closed
  | _, .eq => n.closed
  | _, _ => false

/-- The largest `a` with `a * 10 ^ k` at most the number in the middle. -/
def Neighbourhood.gridBelow (n : Neighbourhood) (k : Int) : Nat :=
  n.value * power 2 n.unit * power 10 (-k) / (power 10 k * power 2 (-n.unit))

/-- The decimal on the grid of multiples of `10 ^ k` that stands for the number, if there is one. -/
def Neighbourhood.onGrid? (n : Neighbourhood) (k : Int) : Option Decimal :=
  let below := n.gridBelow k
  match n.contains below k, n.contains (below + 1) k with
  | true, true =>
    -- the number is nearer to `below` exactly if it lies below the middle of the two
    match compareScaled (2 * below + 1) k (2 * n.value) n.unit with
    | .gt => some ⟨below, k⟩
    | _ => some ⟨below + 1, k⟩
  | true, false => some ⟨below, k⟩
  | false, true => some ⟨below + 1, k⟩
  | false, false => none

/-- The number of decimal digits of a whole number; zero has one. -/
def digitCount (n : Nat) : Nat := (Nat.toDigits 10 n).length

/-- The `p` with `10 ^ (p - 1) ≤ v < 10 ^ p`, for the number `v` in the middle. -/
def Neighbourhood.decimalPoint (n : Neighbourhood) : Int :=
  let num := n.value * power 2 n.unit
  let den := power 2 (-n.unit)
  if den ≤ num then
    digitCount (num / den)
  else
    let zeros : Int := digitCount (den / num)
    if den ≤ num * power 10 (zeros - 1) then 2 - zeros else 1 - zeros

/-- The decimal without zeros at the end of its digits. -/
def Decimal.normalize (d : Decimal) : Decimal :=
  let digits := (Nat.toDigits 10 d.digits).reverse
  let zeros := (digits.takeWhile (· == '0')).length
  if d.digits = 0 then d else ⟨d.digits / power 10 zeros, d.exponent + zeros⟩

/-- The shortest decimal that denotes the finite nonzero number `m * 2 ^ q` alone. Seventeen digits
always suffice. -/
def shortest (m : Nat) (q : Int) : Decimal :=
  let n := neighbourhood m q
  let point := n.decimalPoint
  let found := (List.range 17).findSome? fun i => n.onGrid? (point - (i + 1 : Nat))
  (found.getD ⟨n.gridBelow (point - 17), point - 17⟩).normalize

end RatingArchive.Binary64

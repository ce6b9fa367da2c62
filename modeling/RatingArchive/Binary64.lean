/-!
# Binary floating-point numbers by their bits

A value is a pattern of 64 bits in the IEEE 754 binary64 format. Values are stored, compared for
equality and copied as patterns, so a NaN keeps its payload; only the comparison of magnitudes and
the texts look at the number that a pattern denotes.
-/

namespace RatingArchive

/-- A binary64 number, given by its bits. -/
structure Binary64 where
  /-- Sign, eleven bits of exponent and 52 bits of fraction. -/
  bits : UInt64
  deriving DecidableEq, Inhabited, Repr

namespace Binary64

/-- The weight of the sign bit. -/
def signBit : Nat := 0x8000000000000000

/-- The weight of the implicit leading bit of a significand, the lowest of the exponent bits. -/
def leadingBit : Nat := 0x10000000000000

/-- The power `base ^ k`, or one for a negative `k`. A product with `base ^ k` is compared or
divided by moving the power of a negative `k` to the other side. -/
def power (base : Nat) (k : Int) : Nat := Nat.pow base k.toNat

/-- The bits of infinity. -/
def infinityBits : Nat := 0x7FF0000000000000

/-- The bits of the NaN that no computation has marked. -/
def nanBits : Nat := 0x7FF8000000000000

/-- The quiet NaN with sign and payload zero. -/
def nan : Binary64 := ⟨UInt64.ofNat nanBits⟩

/-- The pattern with the given sign and the remaining 63 bits. -/
def ofMagnitude (negative : Bool) (magnitude : Nat) : Binary64 :=
  ⟨UInt64.ofNat (magnitude + if negative then signBit else 0)⟩

/-- Whether the sign bit is set. -/
def isNegative (x : Binary64) : Bool := signBit ≤ x.bits.toNat

/-- The bits other than the sign. Ordered like the absolute values they denote. -/
def magnitude (x : Binary64) : Nat := x.bits.toNat % signBit

/-- Whether the pattern denotes no number. -/
def isNaN (x : Binary64) : Bool := infinityBits < x.magnitude

/-- Whether the pattern denotes one of the two infinities. -/
def isInfinite (x : Binary64) : Bool := x.magnitude == infinityBits

/-- Whether the pattern denotes one of the two zeros. -/
def isZero (x : Binary64) : Bool := x.magnitude == 0

/-- The whole number `m` and the exponent `q` with absolute value `m * 2 ^ q`, for a finite
pattern. Patterns whose exponent bits are zero lack the implicit leading bit. -/
def decompose (x : Binary64) : Nat × Int :=
  let exponent : Nat := x.magnitude / leadingBit
  let fraction : Nat := x.magnitude % leadingBit
  if exponent = 0 then (fraction, -1074) else (fraction + leadingBit, (exponent : Int) - 1075)

/-- An integer that orders the patterns other than NaN as the numbers they denote. Both zeros have
the key zero. -/
def orderKey (x : Binary64) : Int := if x.isNegative then -x.magnitude else x.magnitude

/-- Whether `x` denotes a larger number than `y`. No comparison with NaN holds. -/
def isAbove (x y : Binary64) : Bool := !x.isNaN && !y.isNaN && decide (y.orderKey < x.orderKey)

end Binary64

end RatingArchive

/-!
# Double-precision numbers

A double is kept as its 64 bits, so that two of them are equal exactly when their bits are. The
magnitude of a finite double is a whole number of units of `2 ^ -1074`, the smallest double there
is; `units` gives that number. `ofRatio` rounds a ratio of natural numbers to the nearest double, a
tie going to the even one, and multiplication and division round the exact result in the same way.
-/

namespace DocWire

/-- A double-precision number, as its bits. -/
structure Binary64 where
  bits : UInt64
  deriving DecidableEq, Repr, Inhabited

namespace Binary64

/-- The bit that holds the sign. -/
def signBit : Nat := 0x8000000000000000

/-- The leading bit of a normal significand, which the format leaves out. -/
def hiddenBit : Nat := 0x10000000000000

/-- The double with the given bits; what exceeds 64 bits is dropped. -/
def ofBits (n : Nat) : Binary64 := ⟨UInt64.ofNat n⟩

/-- Whether the sign bit is set. -/
def negative (x : Binary64) : Bool := signBit ≤ x.bits.toNat

/-- The bits without the sign. -/
def magnitude (x : Binary64) : Nat := x.bits.toNat % signBit

/-- The eleven bits that hold the exponent. -/
def exponentField (x : Binary64) : Nat := x.magnitude / hiddenBit

/-- The bits of positive infinity. -/
def infinityBits : Nat := 2047 * hiddenBit

/-- Whether the double is a number: neither infinite nor undefined. -/
def isFinite (x : Binary64) : Bool := x.magnitude < infinityBits

/-- The significand of a finite double, with the leading bit that the format leaves out. -/
def significand (x : Binary64) : Nat :=
  if x.exponentField = 0 then x.magnitude else x.magnitude % hiddenBit + hiddenBit

/-- The weight of the significand: it counts in units of `2 ^ (shift - 1074)`. -/
def shift (x : Binary64) : Nat := x.exponentField - 1

/-- The magnitude of a finite double in units of `2 ^ -1074`. -/
def units (x : Binary64) : Nat := x.significand * Nat.pow 2 x.shift

/-- The number of units in one. -/
def unitsPerOne : Nat := Nat.pow 2 1074

/-- The same magnitude with the given sign. -/
def withSign (negative : Bool) (x : Binary64) : Binary64 :=
  ofBits (x.magnitude + if negative then signBit else 0)

/-- The natural number nearest to `n / d`, a tie going to the even one. -/
def roundDiv (n d : Nat) : Nat :=
  let q := n / d
  let r := n % d
  if 2 * r < d then q
  else if d < 2 * r then q + 1
  else q + q % 2

/-- The double nearest to `num / den`. Its significand keeps 53 bits, or as many as there are above
the last place of the smallest doubles; the sum below lets a significand that rounds up to the next
power of two move into the exponent. -/
def ofRatio (num den : Nat) : Binary64 :=
  let n := num * unitsPerOne
  let q := n / den
  let shift := if q < 2 * hiddenBit then 0 else q.log2 - 52
  ofBits (min (shift * hiddenBit + roundDiv n (den * Nat.pow 2 shift)) infinityBits)

/-- The double nearest to a natural number. -/
def ofNat (n : Nat) : Binary64 := ofRatio n 1

/-- The product of two magnitudes, rounded. -/
def mul (x y : Binary64) : Binary64 :=
  ofRatio (x.units * y.units) (unitsPerOne * unitsPerOne)

/-- The quotient of two magnitudes, rounded. -/
def div (x y : Binary64) : Binary64 := ofRatio x.units y.units

/-- The double that has the value of a single-precision number, given by its 32 bits. -/
def ofSingle (single : Nat) : Binary64 :=
  let negative := decide (0x80000000 ≤ single)
  let field := single / 0x800000 % 0x100
  let fraction := single % 0x800000
  let magnitude :=
    if field = 255 then ofBits (infinityBits + fraction * 0x20000000)
    else if field = 0 then ofRatio fraction (Nat.pow 2 149)
    else ofRatio ((fraction + 0x800000) * Nat.pow 2 (field - 1)) (Nat.pow 2 149)
  magnitude.withSign negative

end Binary64

end DocWire

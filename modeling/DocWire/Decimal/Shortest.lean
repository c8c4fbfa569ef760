import DocWire.Binary64

/-!
# Shortest decimals

A double stands for all the reals that round to it. Its shortest decimal is the one of fewest digits
among these reals, and of several with as few digits the nearest to the double; a tie goes to the
even digit. The search tries one digit, two digits and so on: on the grid of decimals with that many
digits only the two neighbours of the double have to be looked at, and seventeen digits are always
enough. All arithmetic is exact, in natural numbers.
-/

namespace DocWire.Decimal

/-- A decimal number `0.d₁d₂… × 10 ^ (exponent + 1)`, so that the first digit has the weight
`10 ^ exponent`. -/
structure Scientific where
  digits : List Nat
  exponent : Int
  deriving DecidableEq, Repr, Inhabited

/-- The reals that round to a positive double, in quarters of its units: the double itself, the two
ends, and whether the ends belong to them. -/
structure Interval where
  low : Nat
  value : Nat
  high : Nat
  closed : Bool
  deriving DecidableEq, Repr, Inhabited

/-- The reals that round to a double. Below a power of two the neighbour is half as far away, and
ends round to the even significand. -/
def Interval.of (x : Binary64) : Interval :=
  let step := Nat.pow 2 x.shift
  let value := 4 * x.units
  let atPower := x.significand == Binary64.hiddenBit && 0 < x.shift
  { low := value - (if atPower then step else 2 * step)
    value := value
    high := value + 2 * step
    closed := x.significand % 2 == 0 }

/-- The number of quarters of a unit in one. -/
def quartersPerOne : Nat := 4 * Binary64.unitsPerOne

/-- The decimal digits of a natural number, most significant first. -/
def natDigits (n : Nat) : List Nat :=
  (Nat.toDigits 10 n).map fun c => c.toNat - '0'.toNat

/-- The number of places by which a positive `n / d` below one has to be moved to reach one, if at
most `fuel` places do. -/
def placesBelowOne (n d : Nat) : Nat → Nat
  | 0 => 0
  | fuel + 1 => if d ≤ n then 0 else placesBelowOne (n * 10) d fuel + 1

/-- The exponent of the leading digit of a positive number given in quarters of a unit. -/
def leadingExponent (value : Nat) : Int :=
  if quartersPerOne ≤ value then ((natDigits (value / quartersPerOne)).length : Int) - 1
  else -(placesBelowOne value quartersPerOne 400 : Int)

/-- Whether `n / d` lies in an interval. -/
def Interval.holds (i : Interval) (n d : Nat) : Bool :=
  if i.closed then i.low * d ≤ n && n ≤ i.high * d
  else i.low * d < n && n < i.high * d

/-- The neighbour of the double on the grid of multiples of `10 ^ place` that lies in the interval;
of two the nearer, in a tie the even one. -/
def Interval.gridPoint? (i : Interval) (place : Int) : Option Nat :=
  -- `k` steps of the grid are `k * num / den` quarters of a unit
  let num := quartersPerOne * Nat.pow 10 place.toNat
  let den := Nat.pow 10 (-place).toNat
  let below := i.value * den / num
  let above := below + 1
  let hasBelow := i.holds (below * num) den
  let hasAbove := i.holds (above * num) den
  let toBelow := i.value * den - below * num
  let toAbove := above * num - i.value * den
  if hasBelow && (!hasAbove || toBelow < toAbove || (toBelow == toAbove && below % 2 == 0)) then
    some below
  else if hasAbove then some above
  else none

/-- A list of digits without the zeros at its end. -/
def dropTrailingZeros (ds : List Nat) : List Nat :=
  (ds.reverse.dropWhile (· == 0)).reverse

/-- The first grid with a point in the interval, from `count` digits on. -/
def Interval.search (i : Interval) (exponent : Int) : (count fuel : Nat) → Scientific
  | _, 0 => ⟨[0], 0⟩
  | count, fuel + 1 =>
    let place := exponent - ((count : Int) - 1)
    match i.gridPoint? place with
    | some point =>
      let ds := natDigits point
      ⟨dropTrailingZeros ds, place + ((ds.length : Int) - 1)⟩
    | none => i.search exponent (count + 1) fuel

/-- The shortest decimal of the magnitude of a finite double other than zero. -/
def shortest (x : Binary64) : Scientific :=
  let i := Interval.of x
  i.search (leadingExponent i.value) 1 17

end DocWire.Decimal

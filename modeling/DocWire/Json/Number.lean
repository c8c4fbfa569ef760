import DocWire.Decimal.Shortest
import DocWire.Node

/-!
# Numbers in JSON

A numeral without fraction and exponent is an integer if it lies between `-2^63` and `2^64 - 1`;
every other numeral is a double, `-0` among them. The double is computed in two roundings: first the
significand, which is as many of the leading digits as fit 64 bits, then one product or quotient
with a power of ten. A numeral beyond the doubles has no value.

Doubles are written with the shortest digits that read back: positional between `1e-5` and `1e16`,
otherwise with an exponent that always has a sign.
-/

namespace DocWire.Json

/-- A numeral as it is spelled: digits before and behind the point, and an exponent. -/
structure Numeral where
  negative : Bool
  whole : List Nat
  fraction : Option (List Nat)
  exponent : Option Int
  deriving DecidableEq, Repr, Inhabited

namespace Numeral

/-- A significand with the power of ten that belongs to it; `full` once a digit did not fit. -/
structure Accumulated where
  significand : Nat
  exponent : Int
  full : Bool
  deriving DecidableEq, Repr, Inhabited

/-- Takes one more digit if the significand stays within 64 bits. -/
def Accumulated.takeDigit? (a : Accumulated) (digit : Nat) : Option Nat :=
  let next := a.significand * 10 + digit
  if !a.full && next < 0x10000000000000000 then some next else none

/-- One more digit before the point; one that is dropped raises the exponent. -/
def Accumulated.addWhole (a : Accumulated) (digit : Nat) : Accumulated :=
  match a.takeDigit? digit with
  | some next => { a with significand := next }
  | none => { a with exponent := a.exponent + 1, full := true }

/-- One more digit behind the point; one that is dropped is lost. -/
def Accumulated.addFraction (a : Accumulated) (digit : Nat) : Accumulated :=
  match a.takeDigit? digit with
  | some next => { a with significand := next, exponent := a.exponent - 1 }
  | none => { a with full := true }

/-- The significand and exponent of a numeral. A digit behind the point may fit although one before
it did not. -/
def accumulate (x : Numeral) : Accumulated :=
  let whole := x.whole.foldl Accumulated.addWhole ⟨0, 0, false⟩
  let both := (x.fraction.getD []).foldl Accumulated.addFraction { whole with full := false }
  { both with exponent := both.exponent + x.exponent.getD 0 }

/-- The double nearest to a power of ten. -/
def powerOfTen (n : Nat) : Binary64 := Binary64.ofNat (Nat.pow 10 n)

/-- Divides by `10 ^ n`, by at most `10 ^ 308` at a time. -/
def divideByPower (x : Binary64) (n : Nat) : Binary64 :=
  if n ≤ 308 then x.div (powerOfTen n)
  else if x.units = 0 then x
  else divideByPower (x.div (powerOfTen 308)) (n - 308)
termination_by n

/-- The double `significand * 10 ^ exponent`, if it is finite. -/
def scale? (significand : Nat) (exponent : Int) : Option Binary64 :=
  let x := Binary64.ofNat significand
  if exponent < 0 then some (divideByPower x (-exponent).toNat)
  else if significand = 0 then some x
  else if exponent ≤ 308 then
    let y := x.mul (powerOfTen exponent.toNat)
    if y.isFinite then some y else none
  else none

/-- The integer that a list of digits spells. -/
def digitsValue (digits : List Nat) : Nat := digits.foldl (fun n d => n * 10 + d) 0

/-- The value of a numeral as an integer, if it has one. -/
def int? (x : Numeral) : Option Int :=
  if x.fraction.isSome || x.exponent.isSome then none
  else
    let n := digitsValue x.whole
    if x.negative then if 0 < n ∧ n ≤ 0x8000000000000000 then some (-(n : Int)) else none
    else if n < 0x10000000000000000 then some n else none

/-- The value of a numeral. -/
def toNode (x : Numeral) : Node :=
  match x.int? with
  | some n => .ofInt n
  | none =>
    let a := x.accumulate
    match scale? a.significand a.exponent with
    | some d => .double (d.withSign x.negative)
    | none => .unreadable

end Numeral

/-- A digit as a character. -/
def digitChar (d : Nat) : Char := Nat.digitChar d

/-- The exponents of the leading digit with which a double is written positionally. -/
def positionalExponents : Int × Int := (-5, 15)

/-- A decimal in positional notation, with at least one digit behind the point. -/
def positional (digits : List Nat) (exponent : Int) : List Char :=
  let cs := digits.map digitChar
  if exponent < 0 then ['0', '.'] ++ List.replicate ((-exponent).toNat - 1) '0' ++ cs
  else
    let whole := exponent.toNat + 1
    let fraction := cs.drop whole
    cs.take whole ++ List.replicate (whole - cs.length) '0' ++ ['.'] ++
      (if fraction.isEmpty then ['0'] else fraction)

/-- A decimal with one digit before the point and an exponent. -/
def exponential (digits : List Nat) (exponent : Int) : List Char :=
  let cs := digits.map digitChar
  let fraction := cs.drop 1
  cs.take 1 ++ (if fraction.isEmpty then [] else '.' :: fraction) ++
    ['e', if exponent < 0 then '-' else '+'] ++ (toString exponent.natAbs).toList

/-- The text of a finite double. -/
def doubleText (x : Binary64) : List Char :=
  let magnitude :=
    if x.magnitude = 0 then ['0', '.', '0']
    else
      let s := Decimal.shortest x
      if positionalExponents.1 ≤ s.exponent ∧ s.exponent ≤ positionalExponents.2 then
        positional s.digits s.exponent
      else exponential s.digits s.exponent
  if x.negative then '-' :: magnitude else magnitude

end DocWire.Json

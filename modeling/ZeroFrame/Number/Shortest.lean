/-
This file writes a floating-point number with as few digits as will do.

The real numbers that round to a given double form an interval. Of all decimals in that
interval the writer takes one with the fewest significant digits, and among those the one
nearest to the number itself. The digits are then set out by place value alone, without an
exponent, so that a whole number reads as a whole number.
-/

import ZeroFrame.Number.Binary64

namespace ZeroFrame.Number.Shortest

/-- A positive decimal: `digits` times ten to the power `exponent`. -/
structure Decimal where
  digits : Nat
  exponent : Int
  deriving DecidableEq, Repr

/-- The bounds of the reals that round to a finite double, as numerators over one denominator. -/
structure Interval where
  low : Nat
  value : Nat
  high : Nat
  denominator : Nat
  /-- Whether the bounds themselves round to the double. -/
  closed : Bool
  deriving Repr

/-- The interval of a positive number: up to half a step on either side, and half as much below
a power of two. -/
def interval (significand : Nat) (exponent : Int) : Interval :=
  let (up, down) := Binary64.scale exponent
  let below := if significand = 0x10000000000000 ∧ Binary64.lowestExponent < exponent then 1 else 2
  ⟨(4 * significand - below) * up, 4 * significand * up, (4 * significand + 2) * up, 4 * down,
    significand % 2 = 0⟩

/-- Whether a decimal lies in the interval. -/
def Interval.contains (interval : Interval) (decimal : Decimal) : Bool :=
  let up := Nat.pow 10 decimal.exponent.toNat
  let down := Nat.pow 10 (-decimal.exponent).toNat
  let place := decimal.digits * up * interval.denominator
  if interval.closed then interval.low * down ≤ place ∧ place ≤ interval.high * down
  else interval.low * down < place ∧ place < interval.high * down

/-- The decimal with the given exponent that lies nearest to the value among those in the
interval; of two equally near the upper one. -/
def Interval.nearest? (interval : Interval) (exponent : Int) : Option Decimal :=
  let up := Nat.pow 10 exponent.toNat
  let down := Nat.pow 10 (-exponent).toNat
  let below := interval.value * down / (interval.denominator * up)
  let rest := 2 * (interval.value * down % (interval.denominator * up))
  let lower : Decimal := ⟨below, exponent⟩
  let upper : Decimal := ⟨below + 1, exponent⟩
  let first := if rest < interval.denominator * up then lower else upper
  let second := if rest < interval.denominator * up then upper else lower
  if first.digits ≠ 0 ∧ interval.contains first then some first
  else if second.digits ≠ 0 ∧ interval.contains second then some second
  else none

/-- Tries the exponents downward from `exponent`, `steps` of them after the first. -/
def search (interval : Interval) (exponent : Int) : Nat → Decimal
  | 0 => (interval.nearest? exponent).getD ⟨0, 0⟩
  | steps + 1 =>
    match interval.nearest? exponent with
    | some decimal => decimal
    | none => search interval (exponent - 1) steps

/-- The decimal of a positive number, from the largest power of ten that it may reach. -/
def shortest (significand : Nat) (exponent : Int) : Decimal :=
  let highest : Int := ((significand.log2 + 1 : Nat) + exponent) * 30103 / 100000 + 1
  search (interval significand exponent) highest 20

/-! ### Place value -/

/-- The digits of a decimal set out by place value, with a point if there are places after it. -/
def Decimal.positional (decimal : Decimal) : String :=
  if 0 ≤ decimal.exponent then toString (decimal.digits * Nat.pow 10 decimal.exponent.toNat)
  else
    let places := (-decimal.exponent).toNat
    let fraction := (toString (decimal.digits % Nat.pow 10 places)).toList
    toString (decimal.digits / Nat.pow 10 places) ++ "." ++
      String.ofList (List.replicate (places - fraction.length) '0' ++ fraction)

def text (number : Binary64) : String :=
  match number.meaning with
  | .nan => "NaN"
  | .infinite negative => if negative then "-inf" else "inf"
  | .finite negative significand exponent =>
    let magnitude := if significand = 0 then "0" else (shortest significand exponent).positional
    if negative then "-" ++ magnitude else magnitude

end ZeroFrame.Number.Shortest

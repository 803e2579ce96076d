/-
This file describes binary floating-point numbers by their bits.

A number is kept as the bits of its double-precision form, so that every value that can be
stored or read keeps its identity. What the bits mean is a separate matter: a NaN, an
infinity, or an integer times a power of two. Rounding into the format is exact arithmetic
on natural numbers: the nearest value is taken, and of two equally near ones the one with
the even significand.
-/

namespace ZeroFrame.Number

/-! ### Formats -/

/-- The widths of the two fields of a binary interchange format, beside the sign bit. -/
structure Precision where
  exponentBits : Nat
  fractionBits : Nat
  deriving DecidableEq, Repr

namespace Precision

def half : Precision := ⟨5, 10⟩

def single : Precision := ⟨8, 23⟩

def double : Precision := ⟨11, 52⟩

/-- The number of bytes of the format. -/
def size (precision : Precision) : Nat :=
  (1 + precision.exponentBits + precision.fractionBits) / 8

end Precision

/-! ### Meaning -/

/-- What the bits of a number stand for. -/
inductive Meaning where
  | nan
  | infinite (negative : Bool)
  /-- The integer `significand` times two to the power `exponent`, with a sign of its own. -/
  | finite (negative : Bool) (significand : Nat) (exponent : Int)
  deriving DecidableEq, Repr

/-- The meaning of the bits of a number in the given format. -/
def Precision.meaning (precision : Precision) (bits : Nat) : Meaning :=
  let fraction := bits % Nat.pow 2 precision.fractionBits
  let exponent := bits / Nat.pow 2 precision.fractionBits % Nat.pow 2 precision.exponentBits
  let negative :=
    (bits / Nat.pow 2 precision.fractionBits / Nat.pow 2 precision.exponentBits) % 2 = 1
  let lowest : Int := 2 - Nat.pow 2 (precision.exponentBits - 1) - precision.fractionBits
  if exponent = Nat.pow 2 precision.exponentBits - 1 then
    if fraction = 0 then .infinite negative else .nan
  else if exponent = 0 then .finite negative fraction lowest
  else
    .finite negative (Nat.pow 2 precision.fractionBits + fraction) (lowest + (exponent - 1 : Nat))

/-- A double-precision number, given by its bits. -/
structure Binary64 where
  bits : UInt64
  deriving DecidableEq, Repr

namespace Binary64

def meaning (number : Binary64) : Meaning := Precision.double.meaning number.bits.toNat

/-! ### Rounding -/

/-- The whole number nearest to a quotient, the even one of two equally near. -/
def roundQuotient (numerator denominator : Nat) : Nat :=
  let floor := numerator / denominator
  let rest := 2 * (numerator % denominator)
  if rest < denominator ∨ (rest = denominator ∧ floor % 2 = 0) then floor else floor + 1

/-- The exponent of the lowest bit of a subnormal number. -/
def lowestExponent : Int := -1074

/-- Two to the power of an exponent, as a numerator and a denominator. -/
def scale (exponent : Int) : Nat × Nat := (Nat.pow 2 exponent.toNat, Nat.pow 2 (-exponent).toNat)

def infinityBits : Nat := 0x7ff0000000000000

/-- The bits of the NaN that stands for all of them. -/
def nanBits : Nat := 0x7ff8000000000000

/-- The bits of the number nearest to a positive quotient. -/
def magnitudeBits (numerator denominator : Nat) : Nat :=
  let guess : Int := numerator.log2 - denominator.log2
  let (up, down) := scale guess
  let leading := if up * denominator ≤ numerator * down then guess else guess - 1
  let exponent := max (leading - 52) lowestExponent
  let (up, down) := scale exponent
  let significand := roundQuotient (numerator * down) (denominator * up)
  min (significand + (exponent - lowestExponent).toNat * 0x10000000000000) infinityBits

/-- A number of the given sign and magnitude. -/
def ofMagnitude (negative : Bool) (bits : Nat) : Binary64 :=
  ⟨UInt64.ofNat (bits + if negative then 0x8000000000000000 else 0)⟩

/-- The number nearest to a quotient of the given sign. -/
def ofQuotient (negative : Bool) (numerator denominator : Nat) : Binary64 :=
  ofMagnitude negative (if numerator = 0 then 0 else magnitudeBits numerator denominator)

/-- The number that a meaning describes, or the one nearest to it. -/
def ofMeaning : Meaning → Binary64
  | .nan => ofMagnitude false nanBits
  | .infinite negative => ofMagnitude negative infinityBits
  | .finite negative significand exponent =>
    let (up, down) := scale exponent
    ofQuotient negative (significand * up) down

/-- The number that stands for the same as the bits of another format. -/
def ofBits (precision : Precision) (bits : Nat) : Binary64 :=
  if precision = .double then ⟨UInt64.ofNat bits⟩ else ofMeaning (precision.meaning bits)

/-- The number nearest to a whole number. -/
def ofInt (value : Int) : Binary64 := ofQuotient (value < 0) value.natAbs 1

/-- Powers of ten beyond this one are out of range, and so are their inverses. -/
def decimalLimit : Int := 400

/-- The number nearest to `mantissa` times ten to the power `exponent`. Powers that are out of range
are not computed. -/
def ofScientific (negative : Bool) (mantissa : Nat) (exponent : Int) : Binary64 :=
  if mantissa = 0 ∨ exponent + mantissa.log2 < -decimalLimit then ofMagnitude negative 0
  else if decimalLimit < exponent then ofMagnitude negative infinityBits
  else
    ofQuotient negative (mantissa * Nat.pow 10 exponent.toNat) (Nat.pow 10 (-exponent).toNat)

/-! ### Exact values -/

/-- All bits of the finite numbers stand below this place, counted from the lowest bit of the least
positive one. -/
def rankBits : Nat := 2098

/-- The place of the infinities among the ranks, beyond that of every finite number. -/
def rankLimit : Int := Nat.pow 2 rankBits

/-- The value of a finite number as a multiple of the least positive one. An infinity is put
beyond every finite number, and a NaN has no place among the others. -/
def rank? (number : Binary64) : Option Int :=
  match number.meaning with
  | .nan => none
  | .infinite negative => some (if negative then -rankLimit else rankLimit)
  | .finite negative significand exponent =>
    let magnitude : Int := significand * Nat.pow 2 (exponent - lowestExponent).toNat
    some (if negative then -magnitude else magnitude)

/-- Whether the first number is below the second; a NaN is below nothing and above nothing. -/
def lt (first second : Binary64) : Bool :=
  match first.rank?, second.rank? with
  | some first, some second => first < second
  | _, _ => false

/-- Whether the first number is below the second or equal to it. -/
def le (first second : Binary64) : Bool :=
  match first.rank?, second.rank? with
  | some first, some second => first ≤ second
  | _, _ => false

/-- How a number relates to the whole numbers. -/
inductive Wholeness where
  /-- The number is a NaN or infinite. -/
  | unbounded
  /-- The number has a fractional part. -/
  | fractional
  | whole (value : Int)
  deriving DecidableEq, Repr

/-- The whole number that a finite number is equal to, if there is one. -/
def wholeness (number : Binary64) : Wholeness :=
  match number.meaning with
  | .nan => .unbounded
  | .infinite _ => .unbounded
  | .finite negative significand exponent =>
    let (up, down) := scale exponent
    if significand * up % down = 0 then
      let magnitude : Int := significand * up / down
      .whole (if negative then -magnitude else magnitude)
    else .fractional

def isNaN (number : Binary64) : Bool := number.meaning = .nan

end Binary64

end ZeroFrame.Number

/-
This file shows that quotients are rounded to the nearest floating-point number.

The magnitude of a number is a multiple of the least positive one, called its measure, and it grows
with the bits; an infinity measures what the first number beyond the range would. The quotient is
rounded to a multiple of the lowest bit that the result can have. Numbers that are not multiples of
this bit are too small to be near, so no number at all is nearer than the result, and only a result
with even bits leaves another as near. There is only one such number.
-/

import ZeroFrame.Proofs.Number.Exact

namespace ZeroFrame.Number

/-! ### Nearest places -/

/-- The chosen place is as near to the target as the other; if both are equally near, they are the
same or the choice is even. -/
structure Closest (target : ℚ) (even : Prop) (chosen other : ℚ) : Prop where
  le : |chosen - target| ≤ |other - target|
  tie : |chosen - target| = |other - target| → other = chosen ∨ even

namespace Closest

variable {target chosen other factor : ℚ} {even : Prop}

theorem of_lt (nearer : |chosen - target| < |other - target|) :
    Closest target even chosen other :=
  ⟨nearer.le, fun same => absurd same nearer.ne⟩

theorem of_le_of_le (lower : other ≤ chosen) (upper : chosen ≤ target) :
    Closest target even chosen other := by
  have near : |chosen - target| = target - chosen := by
    rw [abs_sub_comm, abs_of_nonneg (sub_nonneg.mpr upper)]
  have far : |other - target| = target - other := by
    rw [abs_sub_comm, abs_of_nonneg (sub_nonneg.mpr (lower.trans upper))]
  constructor
  · rw [near, far]
    exact sub_le_sub_left lower target
  · rw [near, far]
    exact fun same => Or.inl (sub_right_injective same).symm

/-- A whole number at a distance of at most a half is nearest, if it is even in the worst case. -/
theorem of_half {chosen other : Nat} (near : |chosen - target| ≤ 1 / 2)
    (worst : |chosen - target| = 1 / 2 → even) : Closest target even chosen other := by
  by_cases same : other = chosen
  · subst same
    exact ⟨le_rfl, fun _ => Or.inl rfl⟩
  · have apart : (1 : ℚ) ≤ |(other : ℚ) - chosen| := by
      have distinct : (other : Int) - chosen ≠ 0 :=
        sub_ne_zero.mpr fun equal => same (Int.natCast_inj.mp equal)
      exact_mod_cast Int.one_le_abs distinct
    have detour : |(other : ℚ) - chosen| ≤ |other - target| + |chosen - target| := by
      rw [abs_sub_comm (chosen : ℚ)]
      exact abs_sub_le ..
    constructor
    · linarith
    · intro equal
      exact Or.inr (worst (by linarith))

theorem scale (positive : 0 < factor) (closest : Closest target even chosen other) :
    Closest (target * factor) even (chosen * factor) (other * factor) := by
  have scaled (place : ℚ) : |place * factor - target * factor| = |place - target| * factor := by
    rw [← sub_mul, abs_mul, abs_of_pos positive]
  constructor
  · rw [scaled, scaled]
    exact mul_le_mul_of_nonneg_right closest.le positive.le
  · rw [scaled, scaled]
    intro same
    rcases closest.tie (mul_right_cancel₀ positive.ne' same) with equal | even
    · exact Or.inl (congrArg (· * factor) equal)
    · exact Or.inr even

theorem neg (closest : Closest target even chosen other) :
    Closest (-target) even (-chosen) (-other) := by
  have mirrored (place : ℚ) : |-place - -target| = |place - target| := by
    rw [neg_sub_neg, abs_sub_comm]
  constructor
  · rw [mirrored, mirrored]
    exact closest.le
  · rw [mirrored, mirrored]
    intro same
    rcases closest.tie same with equal | even
    · exact Or.inl (congrArg _ equal)
    · exact Or.inr even

/-- On the other side of zero, places are not nearer. -/
theorem across (positive : 0 < target) (natural : 0 ≤ other)
    (closest : Closest target even chosen other) : Closest target even chosen (-other) := by
  have far : |-other - target| = other + target := by
    rw [← neg_add', abs_neg, abs_of_nonneg (add_nonneg natural positive.le)]
  have shorter : |other - target| ≤ other + target :=
    abs_le.mpr ⟨by linarith, by linarith⟩
  constructor
  · rw [far]
    exact closest.le.trans shorter
  · rw [far]
    intro same
    have equal : |other - target| = other + target :=
      le_antisymm shorter (same ▸ closest.le)
    have zero : other = 0 := by
      rcases abs_cases (other - target) with ⟨value, _⟩ | ⟨value, _⟩
      · linarith
      · linarith
    rw [zero, neg_zero, ← zero]
    exact closest.tie (same.trans equal.symm)

theorem signed (positive : 0 < target) (natural : 0 ≤ other)
    (closest : Closest target even chosen other) (negative otherNegative : Bool) :
    Closest ((if negative then -1 else 1) * target) even ((if negative then -1 else 1) * chosen)
      ((if otherNegative then -1 else 1) * other) := by
  have opposite := closest.across positive natural
  cases negative with
  | false =>
    cases otherNegative with
    | false => simpa using closest
    | true => simpa using opposite
  | true =>
    cases otherNegative with
    | false => simpa using opposite.neg
    | true => simpa using closest.neg

/-- What stands between two places that are equally near is nearer. -/
theorem nearer_of_between {lower between upper : ℚ} (first : lower < between)
    (second : between < upper) (same : |lower - target| = |upper - target|) :
    |between - target| < |lower - target| := by
  rcases abs_eq_abs.mp same with equal | mirrored
  · linarith
  · rw [abs_of_neg (a := lower - target) (by linarith)]
    exact abs_lt.mpr ⟨by linarith, by linarith⟩

end Closest

/-- Where a number stands on the line. An infinity stands where the first number beyond the range
would, and a NaN nowhere. -/
def Meaning.place? : Meaning → Option ℚ
  | .nan => none
  | .infinite negative => some ((if negative then -1 else 1) * 2 ^ 1024)
  | .finite negative significand exponent =>
    some ((if negative then -1 else 1) * (significand * 2 ^ exponent))

namespace Binary64

def place? (number : Binary64) : Option ℚ := number.meaning.place?

/-- Whether the sign of a number is set. -/
def isNegative (number : Binary64) : Bool := 2 ^ 63 ≤ number.bits.toNat

/-- The number has the given sign, and no number is nearer to the target. If another is as near and
stands elsewhere, the bits of the number are even. -/
structure Nearest (number : Binary64) (target : ℚ) (negative : Bool) : Prop where
  sign : number.isNegative = negative
  closest : ∃ place, number.place? = some place ∧
    ∀ (other : Binary64) otherPlace, other.place? = some otherPlace →
      Closest target (number.bits.toNat % 2 = 0) place otherPlace

/-! ### Rounding to whole numbers -/

variable {numerator denominator : Nat}

/-- A rounded quotient is off by at most a half, and by a half only if it is even. -/
theorem roundQuotient_error (numerator : Nat) (positive : 0 < denominator) :
    2 * |(roundQuotient numerator denominator * denominator : Int) - numerator| ≤ denominator ∧
      (2 * |(roundQuotient numerator denominator * denominator : Int) - numerator| = denominator →
        roundQuotient numerator denominator % 2 = 0) := by
  have split := Nat.div_add_mod numerator denominator
  have small := Nat.mod_lt numerator positive
  unfold roundQuotient
  dsimp only
  generalize numerator / denominator = floor at split ⊢
  generalize numerator % denominator = rest at split small ⊢
  have whole : (denominator * floor + rest : Int) = numerator := by exact_mod_cast split
  split
  case isTrue down =>
    have error : (floor * denominator : Int) - numerator = -rest := by linarith
    rw [error, abs_neg, Nat.abs_cast]
    omega
  case isFalse up =>
    have error : ((floor + 1 : Nat) * denominator : Int) - numerator =
        (denominator - rest : Nat) := by
      rw [Nat.cast_sub small.le, Nat.cast_succ]
      linarith
    rw [error, Nat.abs_cast]
    omega

/-- A quotient is rounded to a whole number as near as any other. -/
theorem roundQuotient_closest (numerator : Nat) (positive : 0 < denominator) (other : Nat) :
    Closest ((numerator : ℚ) / denominator) (roundQuotient numerator denominator % 2 = 0)
      (roundQuotient numerator denominator) other := by
  obtain ⟨near, worst⟩ := roundQuotient_error numerator positive
  have divisor : (0 : ℚ) < denominator := Nat.cast_pos.mpr positive
  have distance :
      |(roundQuotient numerator denominator : ℚ) - numerator / denominator| =
        |(roundQuotient numerator denominator * denominator : Int) - numerator| / denominator := by
    rw [Int.cast_abs, ← abs_of_pos divisor, ← abs_div, abs_of_pos divisor]
    push_cast
    rw [sub_div, mul_div_cancel_right₀ _ divisor.ne']
  refine .of_half ?_ ?_
  · rw [distance, div_le_div_iff₀ divisor two_pos, mul_comm, one_mul]
    exact_mod_cast near
  · rw [distance, div_eq_div_iff divisor.ne' two_ne_zero, mul_comm, one_mul]
    intro half
    exact worst (by exact_mod_cast half)

/-! ### The lowest bit of the result -/

/-- The exponent of the leading bit of a quotient. -/
def leading (numerator denominator : Nat) : Int :=
  let guess : Int := numerator.log2 - denominator.log2
  if (scale guess).1 * denominator ≤ numerator * (scale guess).2 then guess else guess - 1

/-- The exponent of the lowest bit that is kept of a quotient. -/
def lowestBit (numerator denominator : Nat) : Int :=
  max (leading numerator denominator - 52) lowestExponent

/-- The multiple of the lowest bit to which a quotient is rounded. -/
def significand (numerator denominator : Nat) : Nat :=
  roundQuotient (numerator * (scale (lowestBit numerator denominator)).2)
    (denominator * (scale (lowestBit numerator denominator)).1)

theorem magnitudeBits_eq (numerator denominator : Nat) :
    magnitudeBits numerator denominator =
      min (significand numerator denominator +
        (lowestBit numerator denominator - lowestExponent).toNat * 0x10000000000000)
        infinityBits := rfl

theorem scale_le_iff (exponent : Int) (positive : 0 < denominator) :
    (scale exponent).1 * denominator ≤ numerator * (scale exponent).2 ↔
      (2 : ℚ) ^ exponent ≤ numerator / denominator := by
  have divisor : (0 : ℚ) < denominator := Nat.cast_pos.mpr positive
  have down : (0 : ℚ) < (scale exponent).2 := Nat.cast_pos.mpr (scale_pos exponent)
  rw [← scale_div, div_le_div_iff₀ down divisor]
  exact_mod_cast Iff.rfl

/-- The leading bit of a quotient is where it is looked for. -/
theorem leading_bounds (natural : 0 < numerator) (positive : 0 < denominator) :
    (2 : ℚ) ^ leading numerator denominator ≤ numerator / denominator ∧
      (numerator : ℚ) / denominator < 2 ^ (leading numerator denominator + 1) := by
  have divisor : (0 : ℚ) < denominator := Nat.cast_pos.mpr positive
  have least : ((2 : ℚ) ^ (numerator.log2 : Int)) ≤ numerator := by
    exact_mod_cast Nat.log2_self_le natural.ne'
  have most : (numerator : ℚ) < 2 ^ ((numerator.log2 : Int) + 1) := by
    exact_mod_cast Nat.lt_log2_self (n := numerator)
  have divisorLeast : ((2 : ℚ) ^ (denominator.log2 : Int)) ≤ denominator := by
    exact_mod_cast Nat.log2_self_le positive.ne'
  have divisorMost : (denominator : ℚ) < 2 ^ ((denominator.log2 : Int) + 1) := by
    exact_mod_cast Nat.lt_log2_self (n := denominator)
  have lower : (2 : ℚ) ^ ((numerator.log2 : Int) - denominator.log2 - 1) ≤
      numerator / denominator := by
    rw [le_div_iff₀ divisor]
    calc (2 : ℚ) ^ ((numerator.log2 : Int) - denominator.log2 - 1) * denominator
        ≤ 2 ^ ((numerator.log2 : Int) - denominator.log2 - 1) *
            2 ^ ((denominator.log2 : Int) + 1) :=
          mul_le_mul_of_nonneg_left divisorMost.le (by positivity)
      _ = 2 ^ (numerator.log2 : Int) := by
          rw [← zpow_add₀ two_ne_zero]
          congr 1
          ring
      _ ≤ numerator := least
  have upper : (numerator : ℚ) / denominator <
      2 ^ ((numerator.log2 : Int) - denominator.log2 + 1) := by
    rw [div_lt_iff₀ divisor]
    calc (numerator : ℚ) < 2 ^ ((numerator.log2 : Int) + 1) := most
      _ = 2 ^ ((numerator.log2 : Int) - denominator.log2 + 1) * 2 ^ (denominator.log2 : Int) := by
          rw [← zpow_add₀ two_ne_zero]
          congr 1
          ring
      _ ≤ 2 ^ ((numerator.log2 : Int) - denominator.log2 + 1) * denominator :=
          mul_le_mul_of_nonneg_left divisorLeast (by positivity)
  unfold leading
  dsimp only
  split
  case isTrue reached => exact ⟨(scale_le_iff _ positive).mp reached, upper⟩
  case isFalse missed =>
    rw [scale_le_iff _ positive, not_le] at missed
    rw [sub_add_cancel]
    exact ⟨lower, missed⟩

/-- The number of places by which the lowest bit is above that of the least positive number. -/
def shift (numerator denominator : Nat) : Nat :=
  (lowestBit numerator denominator - lowestExponent).toNat

theorem lowestBit_eq (numerator denominator : Nat) :
    lowestBit numerator denominator = lowestExponent + shift numerator denominator := by
  have least : lowestExponent ≤ lowestBit numerator denominator := le_max_right ..
  unfold shift
  omega

theorem two_pow_shift (numerator denominator : Nat) :
    2 ^ shift numerator denominator * grain = (2 : ℚ) ^ lowestBit numerator denominator := by
  rw [grain, lowestBit_eq, zpow_add₀ two_ne_zero, zpow_natCast, mul_comm]

/-- A quotient counted in its lowest bits has at most 53 bits, and as many unless the lowest bit is
that of the least positive number. -/
theorem quotient_bounds (natural : 0 < numerator) (positive : 0 < denominator) :
    (numerator : ℚ) / denominator / grain < 2 ^ 53 * 2 ^ shift numerator denominator ∧
      (shift numerator denominator ≠ 0 →
        2 ^ 52 * 2 ^ shift numerator denominator ≤ (numerator : ℚ) / denominator / grain) := by
  obtain ⟨least, most⟩ := leading_bounds natural positive
  have above : leading numerator denominator - 52 ≤ lowestBit numerator denominator :=
    le_max_left ..
  have power (places : Nat) : (2 : ℚ) ^ places * 2 ^ shift numerator denominator * grain =
      2 ^ (lowestBit numerator denominator + places) := by
    rw [mul_assoc, two_pow_shift, zpow_add₀ two_ne_zero, zpow_natCast, mul_comm]
  constructor
  · rw [div_lt_iff₀ grain_pos, power]
    exact most.trans_le (zpow_le_zpow_right₀ one_le_two (by omega))
  · intro shifted
    have same : leading numerator denominator - 52 = lowestBit numerator denominator := by
      unfold shift at shifted
      unfold lowestBit at above shifted ⊢
      omega
    rw [le_div_iff₀ grain_pos, power]
    exact (zpow_le_zpow_right₀ one_le_two (by omega)).trans least

/-- A quotient is rounded to a multiple of its lowest bit as near as any other. -/
theorem significand_closest (numerator : Nat) (positive : 0 < denominator) (other : Nat) :
    Closest ((numerator : ℚ) / denominator / grain) (significand numerator denominator % 2 = 0)
      (significand numerator denominator * 2 ^ shift numerator denominator)
      (other * 2 ^ shift numerator denominator) := by
  have up : 0 < (scale (lowestBit numerator denominator)).1 := Nat.two_pow_pos _
  have nearest := roundQuotient_closest (numerator * (scale (lowestBit numerator denominator)).2)
    (Nat.mul_pos positive up) other
  have parts : ((numerator * (scale (lowestBit numerator denominator)).2 : Nat) : ℚ) /
      (denominator * (scale (lowestBit numerator denominator)).1 : Nat) =
        numerator / denominator / 2 ^ lowestBit numerator denominator := by
    rw [← scale_div, Nat.cast_mul, Nat.cast_mul, mul_div_mul_comm, div_div_eq_mul_div,
      mul_div_assoc]
  have scaled := nearest.scale (pow_pos two_pos (shift numerator denominator))
  rw [parts, ← two_pow_shift, div_mul_eq_div_div_swap, div_mul_cancel₀ _ (by positivity)] at scaled
  exact scaled

/-! ### Measures -/

/-- How many times the least positive number is contained in a number with these bits. -/
def measure (bits : Nat) : Nat :=
  if bits / 2 ^ 52 = 0 then bits else (2 ^ 52 + bits % 2 ^ 52) * 2 ^ (bits / 2 ^ 52 - 1)

theorem measure_lt_succ (bits : Nat) : measure bits < measure (bits + 1) := by
  unfold measure
  have split := Nat.div_add_mod bits (2 ^ 52)
  by_cases carry : (bits + 1) % 2 ^ 52 = 0
  · have quotient : (bits + 1) / 2 ^ 52 = bits / 2 ^ 52 + 1 := by omega
    have full : bits % 2 ^ 52 = 2 ^ 52 - 1 := by omega
    rw [quotient, carry, full, if_neg (Nat.succ_ne_zero _), Nat.add_sub_cancel, Nat.add_zero]
    split
    case isTrue subnormal =>
      rw [subnormal, Nat.pow_zero]
      omega
    case isFalse normal =>
      obtain ⟨places, same⟩ := Nat.exists_eq_add_one_of_ne_zero normal
      have double : 2 ^ (places + 1) = 2 * 2 ^ places := Nat.pow_succ'
      rw [same, Nat.add_sub_cancel, double, ← Nat.mul_assoc]
      exact Nat.mul_lt_mul_of_pos_right (by norm_num) (Nat.two_pow_pos places)
  · have quotient : (bits + 1) / 2 ^ 52 = bits / 2 ^ 52 := by omega
    have rest : (bits + 1) % 2 ^ 52 = bits % 2 ^ 52 + 1 := by omega
    rw [quotient, rest]
    split
    case isTrue => exact Nat.lt_succ_self bits
    case isFalse => exact Nat.mul_lt_mul_of_pos_right (Nat.lt_succ_self _) (Nat.two_pow_pos _)

theorem measure_strictMono : StrictMono measure := strictMono_nat_of_lt_succ measure_lt_succ

/-- A significand and a shift, put together as bits. The significand may also be the one after the
last, which has one bit more. -/
theorem measure_pack {significand shift : Nat} (most : significand ≤ 2 ^ 53)
    (least : shift ≠ 0 → 2 ^ 52 ≤ significand) :
    measure (significand + shift * 0x10000000000000) = significand * 2 ^ shift := by
  unfold measure
  by_cases subnormal : significand < 2 ^ 52
  · have lowest : shift = 0 := by
      by_contra shifted
      exact absurd (least shifted) (Nat.not_le.mpr subnormal)
    subst lowest
    rw [Nat.zero_mul, Nat.add_zero, if_pos (Nat.div_eq_of_lt subnormal), Nat.pow_zero, Nat.mul_one]
  · by_cases last : significand = 2 ^ 53
    · have quotient : (significand + shift * 0x10000000000000) / 2 ^ 52 = shift + 2 := by omega
      have rest : (significand + shift * 0x10000000000000) % 2 ^ 52 = 0 := by omega
      rw [quotient, rest, if_neg (Nat.succ_ne_zero _), Nat.add_zero, last]
      have places : shift + 2 - 1 = shift + 1 := rfl
      have double : 2 ^ (shift + 1) = 2 * 2 ^ shift := Nat.pow_succ'
      rw [places, double, ← Nat.mul_assoc]
      rfl
    · have quotient : (significand + shift * 0x10000000000000) / 2 ^ 52 = shift + 1 := by omega
      have rest : 2 ^ 52 + (significand + shift * 0x10000000000000) % 2 ^ 52 = significand := by
        omega
      rw [quotient, rest, if_neg (Nat.succ_ne_zero _), Nat.add_sub_cancel]

/-- A measure is a multiple of a lowest bit, unless it is too small to have 53 bits from there. -/
theorem measure_cases (bits shift : Nat) :
    (∃ multiple, measure bits = multiple * 2 ^ shift) ∨
      shift ≠ 0 ∧ measure bits < 2 ^ 52 * 2 ^ shift := by
  by_cases lowest : shift = 0
  · subst lowest
    exact Or.inl ⟨measure bits, by rw [Nat.pow_zero, Nat.mul_one]⟩
  · unfold measure
    split
    case isTrue subnormal =>
      refine Or.inr ⟨lowest, ?_⟩
      have small : bits < 2 ^ 52 := by omega
      exact small.trans_le (Nat.le_mul_of_pos_right _ (Nat.two_pow_pos shift))
    case isFalse normal =>
      by_cases reaches : shift ≤ bits / 2 ^ 52 - 1
      · refine Or.inl ⟨(2 ^ 52 + bits % 2 ^ 52) * 2 ^ (bits / 2 ^ 52 - 1 - shift), ?_⟩
        rw [Nat.mul_assoc, ← Nat.pow_add, Nat.sub_add_cancel reaches]
      · refine Or.inr ⟨lowest, ?_⟩
        have significand : 2 ^ 52 + bits % 2 ^ 52 < 2 ^ 52 * 2 := by omega
        calc (2 ^ 52 + bits % 2 ^ 52) * 2 ^ (bits / 2 ^ 52 - 1)
            < 2 ^ 52 * 2 * 2 ^ (bits / 2 ^ 52 - 1) :=
              Nat.mul_lt_mul_of_pos_right significand (Nat.two_pow_pos _)
          _ = 2 ^ 52 * 2 ^ (1 + (bits / 2 ^ 52 - 1)) := by
              rw [Nat.mul_assoc, Nat.pow_add, Nat.pow_one]
          _ ≤ 2 ^ 52 * 2 ^ shift :=
              Nat.mul_le_mul_left _ (Nat.pow_le_pow_right Nat.two_pos (by omega))

/-- An infinity measures one with 2046 zeros more than the least number with 53 bits. -/
theorem measure_infinityBits : measure infinityBits = 2 ^ 52 * 2 ^ 2046 := by
  have bits : infinityBits = 2 ^ 52 + 2046 * 0x10000000000000 := rfl
  rw [bits, measure_pack (by norm_num) fun _ => le_rfl]

/-! ### The nearest measure -/

theorem significand_le (natural : 0 < numerator) (positive : 0 < denominator) :
    significand numerator denominator ≤ 2 ^ 53 := by
  have below := (quotient_bounds natural positive).1
  have nearest := (significand_closest numerator positive (2 ^ 53)).le
  by_contra beyond
  have larger : ((2 : ℚ) ^ 53) < significand numerator denominator := by
    exact_mod_cast Nat.not_le.mp beyond
  have step : (0 : ℚ) < 2 ^ shift numerator denominator := by positivity
  have farther := mul_lt_mul_of_pos_right larger step
  rw [abs_of_pos (by linarith), abs_of_pos (by push_cast; linarith)] at nearest
  push_cast at nearest
  linarith

theorem le_significand (natural : 0 < numerator) (positive : 0 < denominator)
    (shifted : shift numerator denominator ≠ 0) : 2 ^ 52 ≤ significand numerator denominator := by
  have above := (quotient_bounds natural positive).2 shifted
  have nearest := (significand_closest numerator positive (2 ^ 52)).le
  by_contra short
  have smaller : (significand numerator denominator : ℚ) < 2 ^ 52 := by
    exact_mod_cast Nat.not_le.mp short
  have step : (0 : ℚ) < 2 ^ shift numerator denominator := by positivity
  have farther := mul_lt_mul_of_pos_right smaller step
  rw [abs_of_neg (by linarith), abs_of_nonpos (by push_cast; linarith)] at nearest
  push_cast at nearest
  linarith

/-- No magnitude is nearer to a quotient than the one that is found. -/
theorem magnitudeBits_closest (natural : 0 < numerator) (positive : 0 < denominator) {other : Nat}
    (inside : other ≤ infinityBits) :
    Closest ((numerator : ℚ) / denominator / grain) (magnitudeBits numerator denominator % 2 = 0)
      (measure (magnitudeBits numerator denominator)) (measure other) := by
  have most := significand_le natural positive
  have least := le_significand natural positive
  have enough := (quotient_bounds natural positive).2
  have packed := measure_pack most least
  rw [magnitudeBits_eq, ← shift]
  by_cases finite : significand numerator denominator +
      shift numerator denominator * 0x10000000000000 ≤ infinityBits
  · rw [Nat.min_eq_left finite, packed]
    have parity : (significand numerator denominator +
        shift numerator denominator * 0x10000000000000) % 2 =
          significand numerator denominator % 2 := by omega
    rw [parity, Nat.cast_mul, Nat.cast_pow, Nat.cast_ofNat]
    rcases measure_cases other (shift numerator denominator) with ⟨multiple, same⟩ | ⟨shifted, few⟩
    · rw [same, Nat.cast_mul, Nat.cast_pow, Nat.cast_ofNat]
      exact significand_closest numerator positive multiple
    · refine .of_lt ((significand_closest numerator positive (2 ^ 52)).le.trans_lt ?_)
      have reached := enough shifted
      have below : (measure other : ℚ) < 2 ^ 52 * 2 ^ shift numerator denominator := by
        exact_mod_cast few
      rw [Nat.cast_pow, Nat.cast_ofNat, abs_of_nonpos (by linarith), abs_of_neg (by linarith)]
      linarith
  · have beyond := Nat.not_le.mp finite
    rw [Nat.min_eq_right beyond.le]
    have high : 2046 ≤ shift numerator denominator := by
      unfold infinityBits at beyond
      omega
    have reached : measure infinityBits ≤ 2 ^ 52 * 2 ^ shift numerator denominator := by
      rw [← measure_pack (by norm_num) fun _ => le_rfl]
      refine measure_strictMono.monotone ?_
      unfold infinityBits
      omega
    refine .of_le_of_le ?_ ?_
    · exact_mod_cast measure_strictMono.monotone inside
    · refine le_trans ?_ (enough (by omega))
      exact_mod_cast reached

/-! ### Numbers by sign and magnitude -/

variable {number other : Binary64} {negative : Bool} {bits : Nat} {place target : ℚ}

theorem toNat_ofMagnitude (inside : bits ≤ infinityBits) :
    (ofMagnitude negative bits).bits.toNat = bits + if negative then 2 ^ 63 else 0 := by
  unfold infinityBits at inside
  rw [ofMagnitude, UInt64.toNat_ofNat']
  cases negative with
  | true =>
    rw [if_pos rfl, if_pos rfl]
    omega
  | false =>
    rw [if_neg Bool.false_ne_true, if_neg Bool.false_ne_true]
    omega

theorem isNegative_ofMagnitude (inside : bits ≤ infinityBits) :
    (ofMagnitude negative bits).isNegative = negative := by
  rw [isNegative, toNat_ofMagnitude inside]
  unfold infinityBits at inside
  cases negative with
  | true =>
    rw [if_pos rfl]
    exact decide_eq_true (by omega)
  | false =>
    rw [if_neg Bool.false_ne_true]
    exact decide_eq_false (by omega)

/-- The meaning of a number, with its sign, its exponent and its fraction. -/
theorem meaning_eq (number : Binary64) :
    number.meaning =
      if number.bits.toNat / 2 ^ 52 % 2 ^ 11 = 2047 then
        if number.bits.toNat % 2 ^ 52 = 0 then .infinite number.isNegative else .nan
      else if number.bits.toNat / 2 ^ 52 % 2 ^ 11 = 0 then
        .finite number.isNegative (number.bits.toNat % 2 ^ 52) lowestExponent
      else
        .finite number.isNegative (2 ^ 52 + number.bits.toNat % 2 ^ 52)
          (lowestExponent + (number.bits.toNat / 2 ^ 52 % 2 ^ 11 - 1 : Nat)) := by
  have sign : decide (number.bits.toNat / 2 ^ 52 / 2 ^ 11 % 2 = 1) = number.isNegative := by
    have room : number.bits.toNat < 2 ^ 64 := number.bits.toNat_lt
    exact decide_eq_decide.mpr (by omega)
  rw [← sign]
  rfl

/-- An infinity stands at the first power of two beyond the range. -/
theorem measure_infinityBits_mul_grain : (measure infinityBits * grain : ℚ) = 2 ^ 1024 := by
  rw [measure_infinityBits, grain, lowestExponent, Nat.cast_mul, Nat.cast_pow, Nat.cast_pow,
    ← pow_add, Nat.cast_ofNat, ← zpow_natCast, ← zpow_natCast, ← zpow_add₀ two_ne_zero]
  rfl

theorem place?_ofMagnitude (inside : bits ≤ infinityBits) :
    (ofMagnitude negative bits).place? =
      some ((if negative then -1 else 1) * (measure bits * grain)) := by
  have fraction : (bits + if negative then 2 ^ 63 else 0) % 2 ^ 52 = bits % 2 ^ 52 := by
    split <;> omega
  have exponent : (bits + if negative then 2 ^ 63 else 0) / 2 ^ 52 % 2 ^ 11 = bits / 2 ^ 52 := by
    unfold infinityBits at inside
    split <;> omega
  rw [place?, meaning_eq, isNegative_ofMagnitude inside, toNat_ofMagnitude inside, fraction,
    exponent]
  by_cases infinite : bits / 2 ^ 52 = 2047
  · obtain rfl : bits = infinityBits := by
      unfold infinityBits at inside ⊢
      omega
    have fractionless : infinityBits % 2 ^ 52 = 0 := rfl
    rw [if_pos infinite, if_pos fractionless, Meaning.place?, measure_infinityBits_mul_grain]
  · rw [if_neg infinite]
    unfold measure
    by_cases subnormal : bits / 2 ^ 52 = 0
    · have small : bits % 2 ^ 52 = bits := Nat.mod_eq_of_lt (by omega)
      rw [if_pos subnormal, if_pos subnormal, small]
      rfl
    · rw [if_neg subnormal, if_neg subnormal, Meaning.place?, zpow_add₀ two_ne_zero, zpow_natCast,
        ← grain, mul_comm grain, ← mul_assoc ((2 ^ 52 + bits % 2 ^ 52 : Nat) : ℚ), Nat.cast_mul,
        Nat.cast_pow 2, Nat.cast_ofNat]

/-- A number whose bits are those of a magnitude but for the sign. -/
theorem eq_ofMagnitude (inside : number.bits.toNat % 2 ^ 63 ≤ infinityBits) :
    number = ofMagnitude number.isNegative (number.bits.toNat % 2 ^ 63) := by
  have room : number.bits.toNat < 2 ^ 64 := number.bits.toNat_lt
  have same : number.bits = (ofMagnitude number.isNegative (number.bits.toNat % 2 ^ 63)).bits := by
    rw [← UInt64.toNat_inj, toNat_ofMagnitude inside]
    cases sign : number.isNegative with
    | true =>
      have high := of_decide_eq_true sign
      rw [if_pos rfl]
      omega
    | false =>
      have low := of_decide_eq_false sign
      rw [if_neg Bool.false_ne_true]
      omega
  obtain ⟨own⟩ := number
  exact congrArg Binary64.mk same

/-- Every number but a NaN is a magnitude with a sign. -/
theorem exists_magnitude (placed : number.place? = some place) :
    ∃ bits ≤ infinityBits, number = ofMagnitude number.isNegative bits := by
  have inside : number.bits.toNat % 2 ^ 63 ≤ infinityBits := by
    by_contra beyond
    have exponent : number.bits.toNat / 2 ^ 52 % 2 ^ 11 = 2047 := by
      unfold infinityBits at beyond
      omega
    have fraction : number.bits.toNat % 2 ^ 52 ≠ 0 := by
      unfold infinityBits at beyond
      omega
    rw [place?, meaning_eq, if_pos exponent, if_neg fraction] at placed
    cases placed
  exact ⟨_, inside, eq_ofMagnitude inside⟩

/-- The bits of an infinity are those of its magnitude and its sign. -/
theorem infinity_eq_iff :
    ofMagnitude negative infinityBits = number ↔ number.meaning = .infinite negative := by
  constructor
  · rintro rfl
    cases negative <;> rfl
  · intro meant
    rw [meaning_eq] at meant
    split at meant
    case isFalse => split at meant <;> cases meant
    case isTrue exponent =>
      split at meant
      case isFalse => cases meant
      case isTrue fraction =>
        obtain rfl := Meaning.infinite.inj meant
        have bits : number.bits.toNat % 2 ^ 63 = infinityBits := by
          unfold infinityBits
          omega
        exact bits ▸ (eq_ofMagnitude bits.le).symm

/-! ### The nearest number -/

theorem parity_ofMagnitude (negative : Bool) (inside : bits ≤ infinityBits) :
    (ofMagnitude negative bits).bits.toNat % 2 = bits % 2 := by
  rw [toNat_ofMagnitude inside]
  split <;> omega

/-- A magnitude that is closest to a positive target is so on either side of zero. -/
theorem nearest_ofMagnitude (inside : bits ≤ infinityBits) (positive : 0 < target)
    (closest : ∀ other ≤ infinityBits,
      Closest target (bits % 2 = 0) (measure bits * grain) (measure other * grain))
    (negative : Bool) :
    (ofMagnitude negative bits).Nearest ((if negative then -1 else 1) * target) negative := by
  refine ⟨isNegative_ofMagnitude inside, _, place?_ofMagnitude inside, ?_⟩
  intro other place placed
  obtain ⟨otherBits, otherInside, same⟩ := exists_magnitude placed
  rw [same, place?_ofMagnitude otherInside] at placed
  obtain rfl := Option.some.inj placed
  rw [parity_ofMagnitude negative inside]
  have natural : (0 : ℚ) ≤ measure otherBits * grain :=
    mul_nonneg (Nat.cast_nonneg _) grain_pos.le
  exact (closest otherBits otherInside).signed positive natural negative _

/-- Nothing is nearer to zero than the zeros. -/
theorem zero_nearest (negative : Bool) : (ofMagnitude negative 0).Nearest 0 negative := by
  have inside : 0 ≤ infinityBits := Nat.zero_le _
  refine ⟨isNegative_ofMagnitude inside, _, place?_ofMagnitude inside, ?_⟩
  intro other place _
  have nothing : measure 0 = 0 := rfl
  rw [parity_ofMagnitude negative inside, nothing, Nat.cast_zero, zero_mul, mul_zero]
  refine ⟨?_, fun _ => Or.inr rfl⟩
  rw [sub_self, abs_zero]
  exact abs_nonneg _

/-- A quotient is rounded to the nearest number. -/
theorem ofQuotient_nearest (negative : Bool) (numerator : Nat) (positive : 0 < denominator) :
    (ofQuotient negative numerator denominator).Nearest
      ((if negative then -1 else 1) * (numerator / denominator)) negative := by
  unfold ofQuotient
  split
  case isTrue zero =>
    rw [zero, Nat.cast_zero, zero_div, mul_zero]
    exact zero_nearest negative
  case isFalse nonzero =>
    have natural := Nat.pos_of_ne_zero nonzero
    have target : (0 : ℚ) < numerator / denominator :=
      div_pos (Nat.cast_pos.mpr natural) (Nat.cast_pos.mpr positive)
    refine nearest_ofMagnitude (Nat.min_le_right ..) target ?_ negative
    intro other inside
    have closest := (magnitudeBits_closest natural positive inside).scale grain_pos
    rwa [div_mul_cancel₀ _ grain_pos.ne'] at closest

/-- Two magnitudes are not both nearest: they would be equally near, so both would be even, and
what stands between them would be nearer. -/
theorem Nearest.not_nearest_of_lt {more : Nat} (less : bits < more) (inside : more ≤ infinityBits)
    (first : (ofMagnitude negative bits).Nearest target negative) :
    ¬(ofMagnitude negative more).Nearest target negative := by
  intro second
  have below {lower upper : Nat} (grows : lower < upper) :
      (measure lower * grain : ℚ) < measure upper * grain :=
    mul_lt_mul_of_pos_right (Nat.cast_lt.mpr (measure_strictMono grows)) grain_pos
  obtain ⟨_, placed, closest⟩ := first.closest
  obtain ⟨_, otherPlaced, otherClosest⟩ := second.closest
  obtain rfl := Option.some.inj ((place?_ofMagnitude (less.le.trans inside)).symm.trans placed)
  obtain rfl := Option.some.inj ((place?_ofMagnitude inside).symm.trans otherPlaced)
  have forward := closest _ _ otherPlaced
  have backward := otherClosest _ _ placed
  have same := le_antisymm forward.le backward.le
  have apart : (if negative then -1 else 1) * (measure bits * grain : ℚ) ≠
      (if negative then -1 else 1) * (measure more * grain) := by
    have sign : (if negative then -1 else 1 : ℚ) ≠ 0 := by split <;> norm_num
    exact fun equal => (below less).ne (mul_left_cancel₀ sign equal)
  have even : bits % 2 = 0 := by
    rw [← parity_ofMagnitude negative (less.le.trans inside)]
    exact (forward.tie same).resolve_left apart.symm
  have otherEven : more % 2 = 0 := by
    rw [← parity_ofMagnitude negative inside]
    exact (backward.tie same.symm).resolve_left apart
  have between : bits + 1 < more := by omega
  have middle := (closest (ofMagnitude negative (bits + 1)) _
    (place?_ofMagnitude (between.le.trans inside))).le
  have lower := below bits.lt_succ_self
  have upper := below between
  cases negative with
  | false =>
    simp only [Bool.false_eq_true, if_false, one_mul] at middle same
    exact absurd middle (Closest.nearer_of_between lower upper same).not_ge
  | true =>
    simp only [if_true, neg_one_mul] at middle same
    have nearer := Closest.nearer_of_between (neg_lt_neg upper) (neg_lt_neg lower) same.symm
    exact absurd middle (same ▸ nearer).not_ge

/-- Only one number of each sign is nearest. -/
theorem Nearest.unique (first : number.Nearest target negative)
    (second : other.Nearest target negative) : number = other := by
  obtain ⟨_, placed, _⟩ := first.closest
  obtain ⟨_, otherPlaced, _⟩ := second.closest
  obtain ⟨bits, inside, same⟩ := exists_magnitude placed
  obtain ⟨more, otherInside, otherSame⟩ := exists_magnitude otherPlaced
  rw [first.sign] at same
  rw [second.sign] at otherSame
  subst same otherSame
  rcases lt_trichotomy bits more with less | rfl | greater
  · exact (first.not_nearest_of_lt less otherInside second).elim
  · rfl
  · exact (second.not_nearest_of_lt greater inside first).elim

theorem ofInt_nearest (whole : Int) : (ofInt whole).Nearest whole (whole < 0) := by
  have nearest := ofQuotient_nearest (whole < 0) whole.natAbs Nat.one_pos
  have target : (if decide (whole < 0) then -1 else 1) * ((whole.natAbs : ℚ) / (1 : Nat)) =
      whole := by
    rw [Nat.cast_one, div_one, Nat.cast_natAbs]
    by_cases negative : whole < 0
    · rw [if_pos (decide_eq_true negative), abs_of_neg negative, Int.cast_neg, neg_one_mul, neg_neg]
    · rw [if_neg (by simpa using negative), abs_of_nonneg (not_lt.mp negative), one_mul]
  rw [target] at nearest
  exact nearest

/-- A whole number is rounded to the nearest number and no other. -/
theorem ofInt_eq_iff {whole : Int} :
    ofInt whole = number ↔ number.Nearest whole (whole < 0) := by
  constructor
  · rintro rfl
    exact ofInt_nearest whole
  · exact (ofInt_nearest whole).unique

/-- Half way between two numbers the one with even bits is taken. -/
example : ofInt (2 ^ 53 + 1) = ofInt (2 ^ 53) ∧ ofInt (2 ^ 53 + 3) = ofInt (2 ^ 53 + 4) := by
  decide +kernel

end Binary64

end ZeroFrame.Number

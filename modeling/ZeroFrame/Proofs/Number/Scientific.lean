/-
This file shows that decimals are rounded to the nearest floating-point number.

A decimal is a quotient, unless its power of ten is so far out of range that it is not computed.
Then the decimal is beyond the place of the infinities, or it is less than half of the least
positive number, and the infinity or the zero that is given in its place is the nearest number.
-/

import ZeroFrame.Proofs.Number.Rounding

namespace ZeroFrame.Number.Binary64

variable {number : Binary64} {negative : Bool} {mantissa : Nat} {exponent : Int} {target : ℚ}

/-! ### Targets out of range -/

theorem infinity_nearest (negative : Bool) (beyond : 2 ^ 1024 ≤ target) :
    (ofMagnitude negative infinityBits).Nearest ((if negative then -1 else 1) * target)
      negative := by
  have positive : 0 < target := lt_of_lt_of_le (pow_pos two_pos 1024) beyond
  refine nearest_ofMagnitude le_rfl positive ?_ negative
  intro other inside
  refine .of_le_of_le ?_ (measure_infinityBits_mul_grain ▸ beyond)
  exact mul_le_mul_of_nonneg_right (Nat.cast_le.mpr (measure_strictMono.monotone inside))
    grain_pos.le

theorem zero_nearest_of_lt (negative : Bool) (positive : 0 < target) (below : 2 * target < grain) :
    (ofMagnitude negative 0).Nearest ((if negative then -1 else 1) * target) negative := by
  refine nearest_ofMagnitude (Nat.zero_le _) positive ?_ negative
  intro other _
  have nothing : measure 0 = 0 := rfl
  rw [nothing, Nat.cast_zero, zero_mul]
  rcases Nat.eq_zero_or_pos other with rfl | some
  · rw [nothing, Nat.cast_zero, zero_mul]
    exact ⟨le_rfl, fun _ => Or.inl rfl⟩
  · have least : (1 : ℚ) ≤ measure other := by
      have grows : measure 0 < measure other := measure_strictMono some
      exact_mod_cast Nat.lt_of_le_of_lt (Nat.zero_le _) grows
    have far : grain ≤ measure other * grain := le_mul_of_one_le_left grain_pos.le least
    refine .of_lt ?_
    rw [abs_of_neg (by linarith), abs_of_pos (by linarith)]
    linarith

/-! ### Powers of ten -/

theorem two_pow_le_ten_pow : (2 : ℚ) ^ 1024 ≤ 10 ^ (decimalLimit + 1) :=
  calc (2 : ℚ) ^ 1024 ≤ 2 ^ (3 * 401) := pow_le_pow_right₀ one_le_two (by norm_num)
    _ = (2 ^ 3) ^ 401 := pow_mul ..
    _ ≤ 10 ^ 401 := pow_le_pow_left₀ (by norm_num) (by norm_num) 401
    _ = 10 ^ (decimalLimit + 1) := (zpow_natCast (10 : ℚ) 401).symm

theorem ten_pow_lt_grain : 2 * (10 : ℚ) ^ (-decimalLimit) < grain := by
  have power : (2 : ℚ) ^ (1200 : Int) ≤ 10 ^ decimalLimit :=
    calc (2 : ℚ) ^ (1200 : Int) = (2 ^ (3 : Int)) ^ (400 : Int) := by rw [← zpow_mul]; norm_num
      _ ≤ 10 ^ decimalLimit := zpow_le_zpow_left₀ (by decide) (by norm_num) (by norm_num)
  have inverse : (10 : ℚ) ^ (-decimalLimit) ≤ 2 ^ (-1200 : Int) := by
    rw [zpow_neg, zpow_neg]
    exact inv_anti₀ (by positivity) power
  calc 2 * (10 : ℚ) ^ (-decimalLimit) ≤ 2 * 2 ^ (-1200 : Int) :=
        mul_le_mul_of_nonneg_left inverse zero_le_two
    _ = 2 ^ (1 + -1200 : Int) := by rw [zpow_add₀ two_ne_zero, zpow_one]
    _ < grain := zpow_lt_zpow_right₀ one_lt_two (by decide)

theorem cast_lt_ten_pow (mantissa : Nat) : (mantissa : ℚ) < 10 ^ ((mantissa.log2 : Int) + 1) := by
  have most : (mantissa : ℚ) < 2 ^ (mantissa.log2 + 1) := by
    exact_mod_cast Nat.lt_log2_self (n := mantissa)
  rw [← Nat.cast_succ, zpow_natCast]
  exact most.trans_le (pow_le_pow_left₀ zero_le_two (by norm_num) _)

/-! ### Decimals -/

/-- A decimal is rounded to the nearest number, however large or small its power of ten is. -/
theorem ofScientific_nearest (negative : Bool) (mantissa : Nat) (exponent : Int) :
    (ofScientific negative mantissa exponent).Nearest
      ((if negative then -1 else 1) * (mantissa * 10 ^ exponent)) negative := by
  unfold ofScientific
  by_cases nothing : mantissa = 0
  · rw [if_pos (Or.inl nothing), nothing, Nat.cast_zero, zero_mul, mul_zero]
    exact zero_nearest negative
  · have natural : (1 : ℚ) ≤ mantissa := by exact_mod_cast Nat.pos_of_ne_zero nothing
    have power : (0 : ℚ) < 10 ^ exponent := by positivity
    split
    case isTrue small =>
      have below := small.resolve_left nothing
      refine zero_nearest_of_lt negative (by positivity) ?_
      have tiny : (mantissa : ℚ) * 10 ^ exponent ≤ 10 ^ (-decimalLimit) :=
        calc (mantissa : ℚ) * 10 ^ exponent
            ≤ 10 ^ ((mantissa.log2 : Int) + 1) * 10 ^ exponent :=
              mul_le_mul_of_nonneg_right (cast_lt_ten_pow mantissa).le power.le
          _ = 10 ^ ((mantissa.log2 : Int) + 1 + exponent) :=
              (zpow_add₀ (by norm_num) _ _).symm
          _ ≤ 10 ^ (-decimalLimit) := zpow_le_zpow_right₀ (by norm_num) (by omega)
      linarith [ten_pow_lt_grain]
    case isFalse =>
      split
      case isTrue large =>
        refine infinity_nearest negative (two_pow_le_ten_pow.trans ?_)
        calc (10 : ℚ) ^ (decimalLimit + 1) ≤ 10 ^ exponent :=
              zpow_le_zpow_right₀ (by norm_num) (by omega)
          _ ≤ mantissa * 10 ^ exponent := le_mul_of_one_le_left power.le natural
      case isFalse =>
        have quotient : (((mantissa * Nat.pow 10 exponent.toNat : Nat) : ℚ) /
            (Nat.pow 10 (-exponent).toNat : Nat)) = mantissa * 10 ^ exponent := by
          have power := toNat_pow_div (Nat.succ_pos 9) exponent
          rw [Nat.cast_mul, mul_div_assoc]
          exact congrArg _ power
        rw [← quotient]
        exact ofQuotient_nearest negative _ (Nat.pow_pos (by norm_num))

theorem ofScientific_eq_iff :
    ofScientific negative mantissa exponent = number ↔
      number.Nearest ((if negative then -1 else 1) * (mantissa * 10 ^ exponent)) negative := by
  constructor
  · rintro rfl
    exact ofScientific_nearest negative mantissa exponent
  · exact (ofScientific_nearest negative mantissa exponent).unique

end ZeroFrame.Number.Binary64

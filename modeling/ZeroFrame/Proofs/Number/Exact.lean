/-
This file says which number the bits of a floating-point number stand for.

A finite number stands for a rational number, an infinity for one of the two ends of the line,
and a NaN for nothing. The library compares numbers by integers instead, which are multiples of
the least positive number, and it finds whole numbers by division. Both are shown to be right for
the exact values: the integers keep the order, because no finite number reaches the place of the
infinities, and the whole number that is found is the value.
-/

import Mathlib
import ZeroFrame.Number.Binary64

namespace ZeroFrame.Number

/-! ### Exact values -/

/-- A rational number or one of the two ends of the line. -/
abbrev Extended := WithBot (WithTop ℚ)

namespace Extended

/-- A rational number on the extended line. -/
def finite (value : ℚ) : Extended := ((value : WithTop ℚ) : WithBot (WithTop ℚ))

variable {first second : ℚ}

theorem finite_inj : finite first = finite second ↔ first = second := by
  rw [finite, finite, WithBot.coe_inj, WithTop.coe_inj]

theorem finite_le_finite : finite first ≤ finite second ↔ first ≤ second := by
  rw [finite, finite, WithBot.coe_le_coe, WithTop.coe_le_coe]

theorem finite_lt_top (value : ℚ) : finite value < ⊤ :=
  WithBot.coe_lt_coe.mpr (WithTop.coe_lt_top value)

theorem bot_lt_finite (value : ℚ) : ⊥ < finite value := WithBot.bot_lt_coe _

end Extended

/-- What a meaning stands for on the extended line; a NaN stands for nothing. -/
def Meaning.value? : Meaning → Option Extended
  | .nan => none
  | .infinite negative => some (if negative then ⊥ else ⊤)
  | .finite negative significand exponent =>
    some (.finite ((if negative then -1 else 1) * (significand * 2 ^ exponent)))

namespace Binary64

variable {number first second : Binary64} {negative : Bool} {significand : Nat} {exponent : Int}

/-- What a number stands for on the extended line. -/
def value? (number : Binary64) : Option Extended := number.meaning.value?

/-- The first number is at most the second; neither is a NaN. -/
def AtMost (first second : Binary64) : Prop :=
  ∃ lower upper, first.value? = some lower ∧ second.value? = some upper ∧ lower ≤ upper

/-- The first number is below the second; neither is a NaN. -/
def Below (first second : Binary64) : Prop :=
  ∃ lower upper, first.value? = some lower ∧ second.value? = some upper ∧ lower < upper

theorem value?_eq_none_iff : number.value? = none ↔ number.isNaN = true := by
  unfold value? isNaN
  rw [decide_eq_true_iff]
  cases number.meaning with
  | nan => exact iff_of_true rfl rfl
  | infinite => exact iff_of_false nofun nofun
  | finite => exact iff_of_false nofun nofun

/-- The significand of a finite number has at most 53 bits, and its lowest bit is neither below the
least positive number nor above the lowest bit of the greatest one. -/
theorem bounds_of_meaning (meant : number.meaning = .finite negative significand exponent) :
    significand < 2 ^ 53 ∧ lowestExponent ≤ exponent ∧ exponent ≤ lowestExponent + 2045 := by
  unfold meaning Precision.meaning at meant
  simp only [Precision.double, lowestExponent] at meant ⊢
  norm_num at meant
  split at meant
  case isTrue => split at meant <;> cases meant
  case isFalse notAll =>
    split at meant
    case isTrue =>
      cases meant
      omega
    case isFalse =>
      cases meant
      omega

/-! ### Comparison -/

theorem rankLimit_pos : 0 < rankLimit := by
  unfold rankLimit
  generalize rankBits = places
  exact Int.natCast_pos.mpr (Nat.two_pow_pos places)

/-- The least positive number. -/
def grain : ℚ := 2 ^ lowestExponent

theorem grain_pos : 0 < grain := zpow_pos two_pos _

/-- An integer by which a number is compared, and what the number stands for. -/
inductive Ranks : Int → Extended → Prop
  | finite {rank : Int} {value : ℚ} (scaled : rank * grain = value)
      (above : -rankLimit < rank) (below : rank < rankLimit) : Ranks rank (.finite value)
  | top : Ranks rankLimit ⊤
  | bot : Ranks (-rankLimit) ⊥

theorem Ranks.le_iff {first second : Int} {lower upper : Extended} (left : Ranks first lower)
    (right : Ranks second upper) : first ≤ second ↔ lower ≤ upper := by
  have positive := rankLimit_pos
  cases left with
  | finite scaled above below =>
    cases right with
    | finite otherScaled =>
      rw [Extended.finite_le_finite, ← scaled, ← otherScaled, mul_le_mul_iff_left₀ grain_pos,
        Int.cast_le]
    | top => exact iff_of_true below.le le_top
    | bot => exact iff_of_false above.not_ge (Extended.bot_lt_finite _).not_ge
  | top =>
    cases right with
    | finite _ _ below => exact iff_of_false below.not_ge (Extended.finite_lt_top _).not_ge
    | top => exact iff_of_true le_rfl le_rfl
    | bot => exact iff_of_false (by linarith) bot_lt_top.not_ge
  | bot =>
    cases right with
    | finite _ above => exact iff_of_true above.le bot_le
    | top => exact iff_of_true (by linarith) bot_le
    | bot => exact iff_of_true le_rfl le_rfl

theorem Ranks.lt_iff {first second : Int} {lower upper : Extended} (left : Ranks first lower)
    (right : Ranks second upper) : first < second ↔ lower < upper := by
  rw [← not_le, ← not_le, right.le_iff left]

/-- The magnitude of a finite number, counted in least positive numbers, stays below the limit. -/
theorem ranks_finite (meant : number.meaning = .finite negative significand exponent) :
    Ranks
      (if negative then -((significand : Int) * Nat.pow 2 (exponent - lowestExponent).toNat)
        else (significand : Int) * Nat.pow 2 (exponent - lowestExponent).toNat)
      (.finite ((if negative then -1 else 1) * (significand * 2 ^ exponent))) := by
  obtain ⟨few, least, most⟩ := bounds_of_meaning meant
  obtain ⟨shift, shifted⟩ := Int.eq_ofNat_of_zero_le (Int.sub_nonneg_of_le least)
  have product {places : Nat} (room : 53 + shift ≤ places) :
      (significand : Int) * Nat.pow 2 shift < Nat.pow 2 places := by
    have inside : significand * 2 ^ shift < 2 ^ (53 + shift) := by
      rw [Nat.pow_add]
      exact Nat.mul_lt_mul_of_pos_right few (Nat.two_pow_pos shift)
    exact_mod_cast inside.trans_le (Nat.pow_le_pow_right Nat.two_pos room)
  have small : (significand : Int) * Nat.pow 2 shift < rankLimit := by
    have room : 53 + shift ≤ rankBits := by
      unfold rankBits
      omega
    exact product room
  have natural : 0 ≤ (significand : Int) * Nat.pow 2 shift := Int.natCast_nonneg _
  have scaled : (((significand : Int) * Nat.pow 2 shift : Int) : ℚ) * grain =
      significand * 2 ^ exponent := by
    have power : ((Nat.pow 2 shift : Nat) : ℚ) * grain = 2 ^ exponent := by
      have sum : exponent = shift + lowestExponent := by omega
      rw [sum, zpow_add₀ two_ne_zero, zpow_natCast]
      exact congrArg (· * grain) (Nat.cast_pow 2 shift)
    rw [Int.cast_mul, Int.cast_natCast, Int.cast_natCast, mul_assoc, power]
  rw [shifted, Int.toNat_natCast]
  cases negative with
  | true =>
    refine .finite ?_ ?_ ?_
    · rw [if_pos rfl, if_pos rfl, neg_one_mul, Int.cast_neg, neg_mul, scaled]
    · rw [if_pos rfl]
      linarith
    · rw [if_pos rfl]
      linarith
  | false =>
    refine .finite ?_ ?_ ?_
    · rw [if_neg Bool.false_ne_true, if_neg Bool.false_ne_true, one_mul, scaled]
    · rw [if_neg Bool.false_ne_true]
      linarith
    · rw [if_neg Bool.false_ne_true]
      linarith

/-- A number has a rank exactly if it stands for something. -/
theorem ranks_cases (number : Binary64) :
    (number.rank? = none ∧ number.value? = none) ∨
      ∃ rank value, number.rank? = some rank ∧ number.value? = some value ∧ Ranks rank value := by
  unfold rank? value?
  cases meant : number.meaning with
  | nan => exact Or.inl ⟨rfl, rfl⟩
  | infinite negative =>
    refine Or.inr ⟨_, _, rfl, rfl, ?_⟩
    cases negative with
    | true => exact .bot
    | false => exact .top
  | finite negative significand exponent =>
    exact Or.inr ⟨_, _, rfl, rfl, ranks_finite meant⟩

/-- A comparison of ranks is one of values, if it agrees with it wherever there are both. -/
theorem compare_eq_true_iff {holds : Int → Int → Bool} {relation : Extended → Extended → Prop}
    (agree : ∀ {rank other value bound}, Ranks rank value → Ranks other bound →
      (holds rank other = true ↔ relation value bound)) :
    (match first.rank?, second.rank? with
      | some rank, some other => holds rank other
      | _, _ => false) = true ↔
      ∃ value bound, first.value? = some value ∧ second.value? = some bound ∧
        relation value bound := by
  rcases ranks_cases first with ⟨noRank, noValue⟩ | ⟨rank, value, ranked, valued, left⟩
  · rw [noRank, noValue]
    exact iff_of_false nofun nofun
  · rcases ranks_cases second with ⟨noRank, noValue⟩ | ⟨other, bound, otherRanked, bounded, right⟩
    · rw [ranked, noRank, noValue]
      exact iff_of_false nofun nofun
    · rw [ranked, otherRanked, valued, bounded]
      constructor
      · intro compared
        exact ⟨value, bound, rfl, rfl, (agree left right).mp compared⟩
      · rintro ⟨_, _, ⟨⟩, ⟨⟩, related⟩
        exact (agree left right).mpr related

theorem le_eq_true_iff : first.le second = true ↔ first.AtMost second :=
  compare_eq_true_iff fun left right => decide_eq_true_iff.trans (left.le_iff right)

theorem lt_eq_true_iff : first.lt second = true ↔ first.Below second :=
  compare_eq_true_iff fun left right => decide_eq_true_iff.trans (left.lt_iff right)

/-! ### Whole numbers -/

/-- A power with its exponent split into what is above and what is below zero. -/
theorem toNat_pow_div {base : Nat} (positive : 0 < base) (exponent : Int) :
    ((base ^ exponent.toNat : Nat) : ℚ) / (base ^ (-exponent).toNat : Nat) = base ^ exponent := by
  have nonzero : (base : ℚ) ≠ 0 := Nat.cast_ne_zero.mpr positive.ne'
  have split : exponent = exponent.toNat - (-exponent).toNat := by omega
  rw [Nat.cast_pow, Nat.cast_pow, ← zpow_natCast, ← zpow_natCast, ← zpow_sub₀ nonzero, ← split]

/-- The parts of a scale are the power of two in lowest terms. -/
theorem scale_div (exponent : Int) :
    ((scale exponent).1 : ℚ) / (scale exponent).2 = 2 ^ exponent :=
  toNat_pow_div Nat.two_pos exponent

theorem scale_pos (exponent : Int) : 0 < (scale exponent).2 := Nat.two_pow_pos _

theorem cast_signed (negative : Bool) (magnitude : Nat) :
    ((if negative then -(magnitude : Int) else magnitude : Int) : ℚ) =
      (if negative then -1 else 1) * magnitude := by
  cases negative with
  | true => rw [if_pos rfl, if_pos rfl, Int.cast_neg, Int.cast_natCast, neg_one_mul]
  | false =>
    rw [if_neg Bool.false_ne_true, if_neg Bool.false_ne_true, Int.cast_natCast, one_mul]

/-- A quotient with a sign is a whole number exactly if nothing is left of the division and the
quotient that is found has this value. -/
theorem signed_quotient_eq_iff {dividend divisor : Nat} (positive : 0 < divisor) {whole : Int} :
    (if negative then -1 else 1) * ((dividend : ℚ) / divisor) = whole ↔
      dividend % divisor = 0 ∧
        (if negative then -((dividend / divisor : Nat) : Int) else (dividend / divisor : Nat)) =
          whole := by
  have nonzero : (divisor : ℚ) ≠ 0 := Nat.cast_ne_zero.mpr positive.ne'
  constructor
  · intro same
    have absolute : (dividend : ℚ) / divisor = whole.natAbs := by
      have natural : 0 ≤ (dividend : ℚ) / divisor := by positivity
      rw [Nat.cast_natAbs, Int.cast_abs, ← same, abs_mul, abs_of_nonneg natural]
      cases negative <;> simp
    have magnitude : dividend = whole.natAbs * divisor := by
      rw [div_eq_iff nonzero] at absolute
      exact_mod_cast absolute
    have quotient : dividend / divisor = whole.natAbs := by
      rw [magnitude, Nat.mul_div_cancel _ positive]
    refine ⟨by rw [magnitude, Nat.mul_mod_left], ?_⟩
    rw [← Int.cast_inj (α := ℚ), cast_signed, quotient, ← absolute, same]
  · rintro ⟨divides, same⟩
    have product : dividend = dividend / divisor * divisor :=
      (Nat.div_mul_cancel (Nat.dvd_of_mod_eq_zero divides)).symm
    have quotient : (dividend : ℚ) / divisor = (dividend / divisor : Nat) := by
      rw [div_eq_iff nonzero]
      exact_mod_cast product
    rw [quotient, ← cast_signed, same]

/-- The whole number that is found is the value of the number. -/
theorem wholeness_eq_whole_iff {whole : Int} :
    number.wholeness = .whole whole ↔ number.value? = some (.finite whole) := by
  unfold wholeness value?
  cases number.meaning with
  | nan => exact iff_of_false nofun nofun
  | infinite negative => cases negative <;> exact iff_of_false nofun nofun
  | finite negative significand exponent =>
    have exact : (significand : ℚ) * 2 ^ exponent =
        ((significand * (scale exponent).1 : Nat) : ℚ) / (scale exponent).2 := by
      rw [← scale_div, Nat.cast_mul, mul_div_assoc]
    rw [Meaning.value?, exact, Option.some.injEq, Extended.finite_inj,
      signed_quotient_eq_iff (scale_pos exponent)]
    dsimp only
    split
    case isTrue divides =>
      rw [Wholeness.whole.injEq]
      exact (and_iff_right divides).symm
    case isFalse rest => exact iff_of_false nofun fun both => rest both.1

end Binary64

end ZeroFrame.Number

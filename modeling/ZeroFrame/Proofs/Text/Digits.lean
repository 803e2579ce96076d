/-
This file says which texts write a number in digits.

A digit stands for its place in the row of digits, and a text of digits for the number that each
further digit makes ten times larger and adds to. This is a relation between texts and numbers, and
it knows nothing of how the library reads or writes. The reader of digits finds exactly the numbers
that are written, and the text of a number is the only one that writes it without a needless zero.
-/

import Mathlib
import ZeroFrame.Text.Numeral

namespace ZeroFrame.Text

/-- The decimal digits, each at the place of its value. -/
def decimals : List Char := ['0', '1', '2', '3', '4', '5', '6', '7', '8', '9']

/-- The text writes the number in decimal digits, the first digit first. -/
inductive Writes : List Char → Nat → Prop
  | digit {char : Char} {value : Nat} (known : decimals[value]? = some char) : Writes [char] value
  | next {text : List Char} {char : Char} {number value : Nat} (begun : Writes text number)
      (known : decimals[value]? = some char) : Writes (text ++ [char]) (10 * number + value)

/-- The text writes the number, with no zero in front unless it is the only digit. -/
structure Decimal (text : List Char) (number : Nat) : Prop where
  writes : Writes text number
  front : text.head? = some '0' → text = ['0']

variable {text : List Char} {char : Char} {number value : Nat}

/-! ### Single digits -/

theorem lt_of_decimals (known : decimals[value]? = some char) : value < 10 :=
  (List.getElem?_eq_some_iff.mp known).1

theorem decimals_eq_iff : decimals[value]? = some char ↔ value < 10 ∧ char = value.digitChar := by
  have row : ∀ value < 10, decimals[value]? = some value.digitChar := by decide
  constructor
  · intro known
    have small := lt_of_decimals known
    exact ⟨small, Option.some.inj (known.symm.trans (row value small))⟩
  · rintro ⟨small, rfl⟩
    exact row value small

theorem digitValue?_eq_some_iff :
    Numeral.digitValue? char = some value ↔ decimals[value]? = some char := by
  have row : ∀ value < 10, Numeral.digitValue? value.digitChar = some value := by decide
  have places : ∀ value < 10, Char.ofNat (value + 48) = value.digitChar := by decide
  constructor
  · intro read
    unfold Numeral.digitValue? at read
    split at read
    case isFalse => cases read
    case isTrue digit =>
      obtain ⟨least, most⟩ : 48 ≤ char.toNat ∧ char.toNat ≤ 57 := Char.isDigit_iff_toNat.mp digit
      obtain rfl : char.toNat - 48 = value := Option.some.inj read
      have small : char.toNat - 48 < 10 := by omega
      have same := places _ small
      rw [Nat.sub_add_cancel least, Char.ofNat_toNat] at same
      exact decimals_eq_iff.mpr ⟨small, same⟩
  · intro known
    obtain ⟨small, rfl⟩ := decimals_eq_iff.mp known
    exact row value small

theorem isDigit_of_decimals (known : decimals[value]? = some char) : char.isDigit = true := by
  obtain ⟨small, rfl⟩ := decimals_eq_iff.mp known
  exact Nat.isDigit_digitChar.trans (decide_eq_true small)

/-! ### Reading -/

namespace Writes

theorem ne_nil (writes : Writes text number) : text ≠ [] := by
  cases writes with
  | digit => exact List.cons_ne_nil _ _
  | next => exact List.append_ne_nil_of_right_ne_nil _ (List.cons_ne_nil _ _)

theorem isDigit (writes : Writes text number) : ∀ char ∈ text, char.isDigit = true := by
  induction writes with
  | digit known => exact List.forall_mem_singleton.mpr (isDigit_of_decimals known)
  | next _ known inductionHypothesis =>
    exact List.forall_mem_append.mpr
      ⟨inductionHypothesis, List.forall_mem_singleton.mpr (isDigit_of_decimals known)⟩

end Writes

/-- One more digit is one more value. -/
theorem mapM_concat (text : List Char) (char : Char) :
    (text ++ [char]).mapM Numeral.digitValue? =
      (text.mapM Numeral.digitValue?).bind fun values =>
        (Numeral.digitValue? char).map fun value => values ++ [value] := by
  rw [List.mapM_append]
  cases text.mapM Numeral.digitValue? with
  | none => rfl
  | some values =>
    cases found : Numeral.digitValue? char with
    | none => simp [found]
    | some value => simp [found]

theorem ofDigits_concat (values : List Nat) (value : Nat) :
    Integer.ofDigits (values ++ [value]) = 10 * Integer.ofDigits values + value :=
  List.foldl_append

theorem ofDigits_singleton (value : Nat) : Integer.ofDigits [value] = value := Nat.zero_add value

theorem exists_mapM_of_writes (writes : Writes text number) :
    ∃ values, text.mapM Numeral.digitValue? = some values ∧ Integer.ofDigits values = number := by
  induction writes with
  | @digit char value known =>
    refine ⟨[value], ?_, ofDigits_singleton value⟩
    rw [← List.nil_append [char], mapM_concat, digitValue?_eq_some_iff.mpr known]
    rfl
  | @next text char number value _ known inductionHypothesis =>
    obtain ⟨values, read, rfl⟩ := inductionHypothesis
    refine ⟨values ++ [value], ?_, ofDigits_concat values value⟩
    rw [mapM_concat, read, digitValue?_eq_some_iff.mpr known]
    rfl

theorem writes_of_mapM {values : List Nat} (filled : text ≠ [])
    (read : text.mapM Numeral.digitValue? = some values) :
    Writes text (Integer.ofDigits values) := by
  induction text using List.reverseRecOn generalizing values with
  | nil => exact absurd rfl filled
  | append_singleton text char inductionHypothesis =>
    rw [mapM_concat, Option.bind_eq_some_iff] at read
    obtain ⟨begun, front, last⟩ := read
    obtain ⟨value, found, rfl⟩ := Option.map_eq_some_iff.mp last
    have known := digitValue?_eq_some_iff.mp found
    rw [ofDigits_concat]
    by_cases only : text = []
    · subst only
      obtain rfl := Option.some.inj front
      have single := ofDigits_concat [] value
      rw [List.nil_append, ofDigits_singleton] at single
      exact single ▸ .digit known
    · exact .next (inductionHypothesis only front) known

/-- Digits are read as the number that they write. -/
theorem number?_eq_some_iff : Numeral.number? text = some number ↔ Writes text number := by
  unfold Numeral.number?
  constructor
  · intro read
    split at read
    case isTrue => cases read
    case isFalse filled =>
      obtain ⟨values, digits, rfl⟩ := Option.map_eq_some_iff.mp read
      exact writes_of_mapM filled digits
  · intro writes
    obtain ⟨values, read, rfl⟩ := exists_mapM_of_writes writes
    rw [if_neg writes.ne_nil, read]
    rfl

/-- A text of digits writes one number only. -/
theorem Writes.unique {other : Nat} (first : Writes text number) (second : Writes text other) :
    number = other :=
  Option.some.inj ((number?_eq_some_iff.mpr first).symm.trans (number?_eq_some_iff.mpr second))

/-! ### Writing -/

theorem writes_toDigits (number : Nat) : Writes (Nat.toDigits 10 number) number := by
  induction number using Nat.strongRecOn with
  | ind number inductionHypothesis =>
    by_cases small : number < 10
    · rw [Nat.toDigits_of_lt_base small]
      exact .digit (decimals_eq_iff.mpr ⟨small, rfl⟩)
    · have large := Nat.not_lt.mp small
      rw [Nat.toDigits_of_base_le (by decide) large]
      have last : decimals[number % 10]? = some (number % 10).digitChar :=
        decimals_eq_iff.mpr ⟨Nat.mod_lt _ (by decide), rfl⟩
      have writes := Writes.next (inductionHypothesis (number / 10) (by omega)) last
      rwa [Nat.div_add_mod] at writes

/-- Digits with no needless zero in front are those of the number that they write. -/
theorem Decimal.eq_toDigits (decimal : Decimal text number) : text = Nat.toDigits 10 number := by
  obtain ⟨writes, front⟩ := decimal
  induction writes with
  | digit known =>
    obtain ⟨small, rfl⟩ := decimals_eq_iff.mp known
    exact (Nat.toDigits_of_lt_base small).symm
  | @next text char number value begun known inductionHypothesis =>
    obtain ⟨small, rfl⟩ := decimals_eq_iff.mp known
    have headed : (text ++ [value.digitChar]).head? = text.head? :=
      List.head?_append_of_ne_nil _ begun.ne_nil
    have literal : text.head? ≠ some '0' := by
      intro zero
      have short := congrArg List.length (front (headed.trans zero))
      rw [List.length_append, List.length_singleton, List.length_singleton] at short
      exact begun.ne_nil (List.eq_nil_of_length_eq_zero (Nat.succ.inj short))
    have same := inductionHypothesis fun zero => absurd zero literal
    have positive : 0 < number := by
      refine Nat.pos_of_ne_zero fun zero => literal ?_
      rw [same, zero]
      rfl
    rw [← Nat.toDigits_append_toDigits (by decide) positive small, ← same,
      Nat.toDigits_of_lt_base small]

theorem head?_toDigits (number : Nat) (zero : (Nat.toDigits 10 number).head? = some '0') :
    number = 0 := by
  induction number using Nat.strongRecOn with
  | ind number inductionHypothesis =>
    by_cases small : number < 10
    · have row : ∀ number < 10, (Nat.toDigits 10 number).head? = some '0' → number = 0 := by decide
      exact row number small zero
    · have large := Nat.not_lt.mp small
      rw [Nat.toDigits_of_base_le (by decide) large,
        List.head?_append_of_ne_nil _ Nat.toDigits_ne_nil] at zero
      have none := inductionHypothesis (number / 10) (by omega) zero
      omega

/-- The text of a number writes it without a needless zero, and no other text does. -/
theorem decimal_iff : Decimal text number ↔ text = (toString number).toList := by
  have digits : (toString number).toList = Nat.toDigits 10 number := String.toList_ofList
  rw [digits]
  constructor
  · exact Decimal.eq_toDigits
  · rintro rfl
    refine ⟨writes_toDigits number, fun zero => ?_⟩
    rw [head?_toDigits number zero]
    rfl

end ZeroFrame.Text

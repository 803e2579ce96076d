/-
This file says which texts show bytes in hexadecimal digits.

A digit stands for its place in the row of digits. A byte has two of them, one for how many
sixteens are in it and one for the rest, and a single space stands between two bytes. This is a
relation between bytes and texts that knows nothing of how the library computes a digit; the text
that the library writes is the only one in it.
-/

import Mathlib
import ZeroFrame.Text.Hex

namespace ZeroFrame.Text

/-- The hexadecimal digits, each at the place of its value. -/
def hexadecimals : List Char :=
  ['0', '1', '2', '3', '4', '5', '6', '7', '8', '9', 'a', 'b', 'c', 'd', 'e', 'f']

/-- The text shows the byte in two digits. -/
inductive Pair : UInt8 → List Char → Prop
  | digits {byte : UInt8} {high low : Nat} {first second : Char}
      (value : byte.toNat = 16 * high + low) (sixteens : hexadecimals[high]? = some first)
      (rest : hexadecimals[low]? = some second) : Pair byte [first, second]

/-- The text shows the bytes in pairs of digits, with a space between two bytes. -/
inductive Shows : Bytes → List Char → Prop
  | nothing : Shows [] []
  | last {byte : UInt8} {text : List Char} (pair : Pair byte text) : Shows [byte] text
  | next {byte other : UInt8} {bytes : Bytes} {text rest : List Char} (pair : Pair byte text)
      (others : Shows (other :: bytes) rest) : Shows (byte :: other :: bytes) (text ++ ' ' :: rest)

variable {byte : UInt8} {bytes : Bytes} {text : List Char} {char : Char} {value : Nat}

/-! ### Digits -/

theorem hexadecimals_eq_iff :
    hexadecimals[value]? = some char ↔ value < 16 ∧ char = Hex.digit value := by
  have row : ∀ value < 16, hexadecimals[value]? = some (Hex.digit value) := by decide
  constructor
  · intro known
    have small : value < 16 := (List.getElem?_eq_some_iff.mp known).1
    exact ⟨small, Option.some.inj (known.symm.trans (row value small))⟩
  · rintro ⟨small, rfl⟩
    exact row value small

theorem ne_space_of_hexadecimals (known : hexadecimals[value]? = some char) : char ≠ ' ' := by
  have row : hexadecimals.all (· ≠ ' ') = true := by decide
  exact of_decide_eq_true (List.all_eq_true.mp row char (List.mem_of_getElem? known))

/-! ### Bytes -/

theorem pair_eq (byte : UInt8) :
    Hex.pair byte = [Hex.digit (byte.toNat / 16), Hex.digit (byte.toNat % 16)] := by
  have small : byte.toNat / 16 < 16 := by
    have bound := byte.toNat_lt
    omega
  rw [Hex.pair, Hex.fixed, Hex.fixed, Hex.fixed, List.nil_append, Nat.mod_eq_of_lt small]
  rfl

theorem pair_iff : Pair byte text ↔ text = Hex.pair byte := by
  rw [pair_eq]
  constructor
  · rintro ⟨value, sixteens, rest⟩
    obtain ⟨_, rfl⟩ := hexadecimals_eq_iff.mp sixteens
    obtain ⟨small, rfl⟩ := hexadecimals_eq_iff.mp rest
    rw [value, Nat.mul_add_div (by decide), Nat.div_eq_of_lt small, Nat.mul_add_mod,
      Nat.mod_eq_of_lt small, Nat.add_zero]
  · rintro rfl
    have bound := byte.toNat_lt
    exact .digits (Nat.div_add_mod byte.toNat 16).symm
      (hexadecimals_eq_iff.mpr ⟨by omega, rfl⟩)
      (hexadecimals_eq_iff.mpr ⟨Nat.mod_lt _ (by decide), rfl⟩)

/-- The text that the library writes shows the bytes, and no other does. -/
theorem shows_iff : Shows bytes text ↔ text = (Hex.spaced bytes).toList := by
  have spaced (byte other : UInt8) (bytes : Bytes) :
      (Hex.spaced (byte :: other :: bytes)).toList =
        Hex.pair byte ++ ' ' :: (Hex.spaced (other :: bytes)).toList := by
    unfold Hex.spaced
    rw [List.map_cons, List.map_cons, String.intercalate_cons_cons, String.toList_append,
      String.toList_append, String.toList_ofList, List.append_assoc]
    rfl
  have single (byte : UInt8) : (Hex.spaced [byte]).toList = Hex.pair byte := by
    unfold Hex.spaced
    rw [List.map_singleton, String.intercalate_singleton, String.toList_ofList]
  constructor
  · intro shows
    induction shows with
    | nothing => rfl
    | last pair => rw [single, pair_iff.mp pair]
    | next pair others inductionHypothesis =>
      rw [spaced, pair_iff.mp pair, inductionHypothesis]
  · rintro rfl
    induction bytes with
    | nil => exact .nothing
    | cons byte bytes inductionHypothesis =>
      cases bytes with
      | nil => exact single byte ▸ .last (pair_iff.mpr rfl)
      | cons other bytes =>
        rw [spaced]
        exact .next (pair_iff.mpr rfl) inductionHypothesis

/-- A digit stands at the end. -/
theorem Shows.exists_getLast? (shows : Shows bytes text) (filled : bytes ≠ []) :
    ∃ char, text.getLast? = some char ∧ char ≠ ' ' := by
  have digit {byte : UInt8} {text : List Char} (pair : Pair byte text) :
      ∃ char, text.getLast? = some char ∧ char ≠ ' ' := by
    cases pair with
    | digits _ _ rest => exact ⟨_, rfl, ne_space_of_hexadecimals rest⟩
  induction shows with
  | nothing => exact absurd rfl filled
  | last pair => exact digit pair
  | @next _ _ _ text _ pair others inductionHypothesis =>
    obtain ⟨char, last, graphic⟩ := inductionHypothesis (List.cons_ne_nil _ _)
    obtain ⟨front, rfl⟩ := List.getLast?_eq_some_iff.mp last
    refine ⟨char, List.getLast?_eq_some_iff.mpr ⟨text ++ ' ' :: front, ?_⟩, graphic⟩
    rw [List.append_assoc, List.cons_append]

end ZeroFrame.Text

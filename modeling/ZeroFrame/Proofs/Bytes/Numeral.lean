/-
This file shows that numbers and their base-256 digits determine each other.

A number below `256 ^ width` has exactly one row of `width` digits, least significant first.
Indices of messages are written in this way, and so are whole numbers in a layout, in one
order or the other.
-/

import Mathlib
import ZeroFrame.Bytes

namespace ZeroFrame.Bytes

@[simp] theorem length_toLittleEndian (width number : Nat) :
    (toLittleEndian width number).length = width := by
  induction width generalizing number with
  | zero => rfl
  | succ width inductionHypothesis =>
    unfold toLittleEndian
    rw [List.length_cons, inductionHypothesis]

/-- Digits above the width are lost. -/
theorem ofLittleEndian_toLittleEndian (width number : Nat) :
    ofLittleEndian (toLittleEndian width number) = number % 256 ^ width := by
  induction width generalizing number with
  | zero =>
    rw [Nat.pow_zero, Nat.mod_one]
    rfl
  | succ width inductionHypothesis =>
    have first : (UInt8.ofNat number).toNat = number % 256 := UInt8.toNat_ofNat'
    unfold toLittleEndian ofLittleEndian
    rw [inductionHypothesis, first, pow_succ', Nat.mod_mul]

theorem ofLittleEndian_toLittleEndian_of_lt {width number : Nat} (fits : number < 256 ^ width) :
    ofLittleEndian (toLittleEndian width number) = number := by
  rw [ofLittleEndian_toLittleEndian, Nat.mod_eq_of_lt fits]

/-- Bytes are the digits of the number that they make up. -/
theorem toLittleEndian_ofLittleEndian (bytes : Bytes) :
    toLittleEndian bytes.length (ofLittleEndian bytes) = bytes := by
  induction bytes with
  | nil => rfl
  | cons byte bytes inductionHypothesis =>
    have small : byte.toNat < 256 := byte.toNat_lt
    have first : UInt8.ofNat (byte.toNat + 256 * ofLittleEndian bytes) = byte := by
      apply UInt8.toNat_inj.mp
      rw [UInt8.toNat_ofNat', Nat.add_mul_mod_self_left, Nat.mod_eq_of_lt small]
    have others : (byte.toNat + 256 * ofLittleEndian bytes) / 256 = ofLittleEndian bytes := by
      omega
    rw [List.length_cons, ofLittleEndian, toLittleEndian, first, others, inductionHypothesis]

end ZeroFrame.Bytes

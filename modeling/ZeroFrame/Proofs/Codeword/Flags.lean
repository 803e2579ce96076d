/-
This file relates the flags of a bitmap to the bytes that they describe.

A bitmap splits bytes into literals, which are written as they are, and flags, which tell
where the zeros were; filling the literals into the flags gives the bytes back. The flags
are the bits of the control byte, so seven flags and a number below `0x80` are the same
thing, and the number is zero exactly if no byte was.
-/

import Mathlib
import ZeroFrame.Codeword.Group

namespace ZeroFrame.Codeword

/-! ### Literals and flags of bytes -/

/-- The bytes that are not zeros. -/
def literalsOf (held : Bytes) : Bytes := held.filter (· != separator)

/-- A flag for every byte, set if it is a zero. -/
def zeroFlags (held : Bytes) : List Bool := held.map (· == separator)

@[simp] theorem literalsOf_nil : literalsOf [] = [] := rfl

@[simp] theorem zeroFlags_nil : zeroFlags [] = [] := rfl

@[simp] theorem literalsOf_separator (held : Bytes) :
    literalsOf (separator :: held) = literalsOf held := rfl

theorem literalsOf_cons_of_ne {byte : UInt8} (literal : byte ≠ separator) (held : Bytes) :
    literalsOf (byte :: held) = byte :: literalsOf held := by
  simp [literalsOf, literal]

@[simp] theorem zeroFlags_separator (held : Bytes) :
    zeroFlags (separator :: held) = true :: zeroFlags held := rfl

theorem zeroFlags_cons_of_ne {byte : UInt8} (literal : byte ≠ separator) (held : Bytes) :
    zeroFlags (byte :: held) = false :: zeroFlags held := by
  simp [zeroFlags, literal]

@[simp] theorem literalsOf_append (front back : Bytes) :
    literalsOf (front ++ back) = literalsOf front ++ literalsOf back := List.filter_append ..

@[simp] theorem zeroFlags_append (front back : Bytes) :
    zeroFlags (front ++ back) = zeroFlags front ++ zeroFlags back := List.map_append ..

@[simp] theorem length_zeroFlags (held : Bytes) : (zeroFlags held).length = held.length :=
  List.length_map ..

@[simp] theorem literalsOf_separators (count : Nat) :
    literalsOf (List.replicate count separator) = [] := by
  simp [literalsOf]

@[simp] theorem zeroFlags_separators (count : Nat) :
    zeroFlags (List.replicate count separator) = List.replicate count true := by
  simp [zeroFlags, List.map_replicate]

theorem separator_notMem_literalsOf (held : Bytes) : separator ∉ literalsOf held := by
  simp [literalsOf]

theorem literalsOf_of_notMem {held : Bytes} (zeroFree : separator ∉ held) :
    literalsOf held = held := by
  refine List.filter_eq_self.mpr fun byte member => ?_
  exact bne_iff_ne.mpr fun zero => zeroFree (zero ▸ member)

theorem literalsOf_append_separator {literals : Bytes} (zeroFree : separator ∉ literals) :
    literalsOf (literals ++ [separator]) = literals := by
  rw [literalsOf_append, literalsOf_of_notMem zeroFree, literalsOf_separator, literalsOf_nil,
    List.append_nil]

theorem count_zeroFlags (held : Bytes) :
    (zeroFlags held).count false = (literalsOf held).length := by
  induction held with
  | nil => rfl
  | cons byte held inductionHypothesis =>
    by_cases zero : byte = separator
    · rw [zero, zeroFlags_separator, literalsOf_separator, List.count_cons_of_ne (by decide),
        inductionHypothesis]
    · rw [zeroFlags_cons_of_ne zero, literalsOf_cons_of_ne zero, List.count_cons_self,
        List.length_cons, inductionHypothesis]

/-- The literals fill the clear flags, and the bytes are back. -/
theorem fillFlags_zeroFlags (held : Bytes) :
    fillFlags (zeroFlags held) (literalsOf held) = held := by
  induction held with
  | nil => rfl
  | cons byte held inductionHypothesis =>
    by_cases zero : byte = separator
    · rw [zero, zeroFlags_separator, literalsOf_separator, fillFlags, inductionHypothesis]
    · rw [zeroFlags_cons_of_ne zero, literalsOf_cons_of_ne zero, fillFlags, inductionHypothesis]

/-- Literals that are no zeros are found again in the bytes that they fill, and so are the
flags. -/
theorem split_fillFlags {flags : List Bool} {literals : Bytes}
    (enough : literals.length = flags.count false) (zeroFree : separator ∉ literals) :
    zeroFlags (fillFlags flags literals) = flags ∧
      literalsOf (fillFlags flags literals) = literals := by
  induction flags generalizing literals with
  | nil =>
    obtain rfl := List.eq_nil_of_length_eq_zero enough
    exact ⟨rfl, rfl⟩
  | cons flag flags inductionHypothesis =>
    cases flag with
    | true =>
      obtain ⟨sameFlags, sameLiterals⟩ := inductionHypothesis (by simpa using enough) zeroFree
      rw [fillFlags, zeroFlags_separator, literalsOf_separator, sameFlags]
      exact ⟨rfl, sameLiterals⟩
    | false =>
      cases literals with
      | nil => simp at enough
      | cons literal literals =>
        have nonzero : literal ≠ separator := fun zero => zeroFree (zero ▸ List.mem_cons_self)
        obtain ⟨sameFlags, sameLiterals⟩ := inductionHypothesis (by simpa using enough)
          fun member => zeroFree (List.mem_cons_of_mem _ member)
        rw [fillFlags, zeroFlags_cons_of_ne nonzero, literalsOf_cons_of_ne nonzero, sameFlags,
          sameLiterals]
        exact ⟨rfl, rfl⟩

/-! ### Flags as a number -/

/-- The number whose bits are the flags, lowest bit first. -/
def flagNumber : List Bool → Nat
  | [] => 0
  | flag :: flags => flag.toNat + 2 * flagNumber flags

theorem flagNumber_lt (flags : List Bool) : flagNumber flags < 2 ^ flags.length := by
  induction flags with
  | nil => decide
  | cons flag flags inductionHypothesis =>
    have bit := flag.toNat_le
    rw [flagNumber, List.length_cons, Nat.pow_succ]
    omega

theorem flagNumber_append (front back : List Bool) :
    flagNumber (front ++ back) = flagNumber front + 2 ^ front.length * flagNumber back := by
  induction front with
  | nil => simp [flagNumber]
  | cons flag front inductionHypothesis =>
    rw [List.cons_append, flagNumber, inductionHypothesis, flagNumber, List.length_cons,
      Nat.pow_succ, Nat.mul_add, Nat.mul_comm (2 ^ front.length) 2, Nat.mul_assoc, Nat.add_assoc]

theorem flagNumber_replicate (count : Nat) :
    flagNumber (List.replicate count true) = 2 ^ count - 1 := by
  induction count with
  | zero => rfl
  | succ count inductionHypothesis =>
    have positive := Nat.two_pow_pos count
    rw [List.replicate_succ, flagNumber, inductionHypothesis, Nat.pow_succ, Bool.toNat_true]
    omega

theorem flagNumber_zeroFlags_eq_zero_iff (held : Bytes) :
    flagNumber (zeroFlags held) = 0 ↔ separator ∉ held := by
  induction held with
  | nil => simp [flagNumber]
  | cons byte held inductionHypothesis =>
    by_cases zero : byte = separator
    · simp [flagNumber, zero]
    · have absent : separator ∉ byte :: held ↔ separator ∉ held := by
        rw [List.mem_cons, not_or]
        exact and_iff_right fun same => zero same.symm
      rw [zeroFlags_cons_of_ne zero, flagNumber, absent, ← inductionHypothesis,
        Bool.toNat_false, Nat.zero_add]
      omega

/-- Flags of one length are determined by their number. -/
theorem eq_of_flagNumber_eq {first second : List Bool} (sameLength : first.length = second.length)
    (sameNumber : flagNumber first = flagNumber second) : first = second := by
  induction first generalizing second with
  | nil => exact (List.eq_nil_of_length_eq_zero sameLength.symm).symm
  | cons flag first inductionHypothesis =>
    cases second with
    | nil => simp at sameLength
    | cons other second =>
      have bit := flag.toNat_le
      have otherBit := other.toNat_le
      rw [flagNumber, flagNumber] at sameNumber
      have sameRest : first = second :=
        inductionHypothesis (by simpa using sameLength) (by omega)
      have sameBit : flag.toNat = other.toNat := by omega
      have sameFlag : flag = other := by
        cases flag <;> cases other <;> first | rfl | cases sameBit
      rw [sameFlag, sameRest]

/-! ### Flags of a control byte -/

@[simp] theorem length_flags (control : UInt8) : (flags control).length = bitmapSize := by
  simp [flags]

theorem flagNumber_flags {control : UInt8} (bitmap : control < 0x80) :
    flagNumber (flags control) = control.toNat := by
  have every : ∀ number < 0x80,
      flagNumber ((List.range bitmapSize).map (Nat.testBit number)) = number := by decide
  exact every control.toNat (UInt8.lt_iff_toNat_lt.mp bitmap)

theorem toNat_ofNat_flagNumber {marks : List Bool} (full : marks.length = bitmapSize) :
    (UInt8.ofNat (flagNumber marks)).toNat = flagNumber marks := by
  have small := flagNumber_lt marks
  rw [full] at small
  exact UInt8.toNat_ofNat_of_lt' (Nat.lt_trans small (by decide))

theorem ofNat_flagNumber_lt {marks : List Bool} (full : marks.length = bitmapSize) :
    UInt8.ofNat (flagNumber marks) < 0x80 := by
  have small := flagNumber_lt marks
  rw [full] at small
  rw [UInt8.lt_iff_toNat_lt, toNat_ofNat_flagNumber full]
  exact small

theorem flags_ofNat_flagNumber {marks : List Bool} (full : marks.length = bitmapSize) :
    flags (UInt8.ofNat (flagNumber marks)) = marks := by
  refine eq_of_flagNumber_eq ((length_flags _).trans full.symm) ?_
  rw [flagNumber_flags (ofNat_flagNumber_lt full), toNat_ofNat_flagNumber full]

end ZeroFrame.Codeword

/-
This file bounds the size of a payload by the size of its codeword, from both sides.

The control byte of a group says how many bytes the group takes in the codeword and how many
it stands for in the payload. A bitmap has at least one flag set, so it takes at most the seven
bytes that it stands for; a run takes as many as it stands for; a raw group takes one more. The
bounds for all groups together are those for one group, and groups of one kind attain them.
-/

import ZeroFrame.Proofs.Codeword.Grammar

namespace ZeroFrame.Codeword

/-! ### Sizes of a group -/

/-- The number of payload bytes that the group of a control byte stands for. -/
def payloadSize (control : UInt8) : Nat :=
  if control < 0x80 then 7 else if control < 0xff then need control + 1 else need control

theorem Group.length_bytes (group : Group) : group.bytes.length = need group.control + 1 := by
  rw [Group.bytes, List.length_append, List.length_singleton, group.length_eq,
    literalCount_eq_need]

theorem Group.length_payload (group : Group) :
    group.payload.length = payloadSize group.control := by
  have size := group.length_eq
  rw [literalCount_eq_need] at size
  rw [group.payload_eq_expansion, expansion, payloadSize]
  split
  case isTrue => rw [List.length_map, List.length_range]
  case isFalse =>
    split
    case isTrue => rw [List.length_append, List.length_singleton, size]
    case isFalse => exact size

/-- A control byte that is no separator has a bit set, so a bitmap has fewer than seven literals. -/
theorem clearBits_lt {control : UInt8} (bitmap : control < 0x80)
    (control_ne : control ≠ separator) : clearBits control 7 < 7 := by
  have nonzero : control.toNat ≠ 0 := fun zero => control_ne (UInt8.toNat_inj.mp zero)
  obtain ⟨bit, set⟩ := Nat.exists_testBit_of_ne_zero nonzero
  have within : bit < 7 := by
    have power := Nat.ge_two_pow_of_testBit set
    have small : control.toNat < 2 ^ 7 := UInt8.lt_iff_toNat_lt.mp bitmap
    exact (Nat.pow_lt_pow_iff_right Nat.one_lt_two).mp (Nat.lt_of_le_of_lt power small)
  rw [clearBits]
  refine Nat.lt_of_lt_of_eq (List.countP_lt_length_iff.mpr ⟨bit, ?_, ?_⟩) List.length_range
  · exact List.mem_range.mpr within
  · simp [set]

/-- The sizes of the three kinds of groups. -/
theorem size_cases {control : UInt8} (control_ne : control ≠ separator) :
    payloadSize control = 7 ∧ need control < 7 ∨
      payloadSize control = need control + 1 ∧ 7 ≤ need control ∨
      payloadSize control = 134 ∧ need control = 134 := by
  by_cases bitmap : control < 0x80
  · have few := clearBits_lt bitmap control_ne
    refine Or.inl ⟨if_pos bitmap, ?_⟩
    rwa [need, if_pos bitmap]
  · by_cases run : control < 0xff
    · refine Or.inr (Or.inl ⟨?_, ?_⟩)
      · rw [payloadSize, if_neg bitmap, if_pos run]
      · rw [need, if_neg bitmap, if_pos run]
        exact Nat.le_add_left ..
    · have raw : need control = 134 := by rw [need, if_neg bitmap, if_neg run]
      refine Or.inr (Or.inr ⟨?_, raw⟩)
      rw [payloadSize, if_neg bitmap, if_neg run, raw]

namespace Group

theorem bitmapSize_le_length_payload (group : Group) : bitmapSize ≤ group.payload.length := by
  rw [group.length_payload, bitmapSize]
  have sizes := size_cases group.control_ne
  omega

/-- No group stands for more bytes than a bitmap without literals does. -/
theorem length_payload_le (group : Group) :
    group.payload.length ≤ 7 * group.bytes.length := by
  rw [group.length_payload, group.length_bytes]
  have sizes := size_cases group.control_ne
  omega

/-- No group takes more bytes for its payload than a raw one does. -/
theorem length_bytes_le (group : Group) :
    134 * group.bytes.length ≤ 135 * group.payload.length := by
  rw [group.length_payload, group.length_bytes]
  have sizes := size_cases group.control_ne
  omega

end Group

/-! ### Sizes of several groups -/

theorem length_payloadOf_le (groups : List Group) :
    (payloadOf groups).length ≤ 7 * (bytesOf groups).length := by
  induction groups with
  | nil => exact Nat.le_refl 0
  | cons group groups inductionHypothesis =>
    rw [payloadOf_cons, bytesOf_cons, List.length_append, List.length_append, Nat.mul_add]
    exact Nat.add_le_add group.length_payload_le inductionHypothesis

theorem length_bytesOf_le (groups : List Group) :
    134 * (bytesOf groups).length ≤ 135 * (payloadOf groups).length := by
  induction groups with
  | nil => exact Nat.le_refl 0
  | cons group groups inductionHypothesis =>
    rw [payloadOf_cons, bytesOf_cons, List.length_append, List.length_append, Nat.mul_add,
      Nat.mul_add]
    exact Nat.add_le_add group.length_bytes_le inductionHypothesis

/-- Bytes that have a payload have at least that of one group. -/
theorem bitmapSize_le_length_of_decode {codeword payload : Bytes} (some : codeword ≠ [])
    (read : decode codeword = .ok payload) : bitmapSize ≤ payload.length := by
  obtain ⟨groups, rfl, rfl⟩ := exists_groups_of_decode read
  cases groups with
  | nil => exact absurd rfl some
  | cons group groups =>
    rw [payloadOf_cons, List.length_append]
    exact Nat.le_add_right_of_le group.bitmapSize_le_length_payload

/-! ### Groups that attain the bounds -/

namespace Group

/-- The group with nothing but zeros. -/
def zeros : Group := ⟨[], 0x7f, by decide, by decide⟩

/-- A raw group with nothing but ones. -/
def ones : Group := ⟨List.replicate rawSize 1, 0xff, by decide, List.length_replicate⟩

theorem separator_notMem_zeros : separator ∉ zeros.bytes := by decide

theorem separator_notMem_ones : separator ∉ ones.bytes := by
  rw [Group.bytes, List.mem_append, not_or]
  exact ⟨fun member => absurd (List.eq_of_mem_replicate member) (by decide), by decide⟩

/-- Seven zeros take one byte. -/
theorem length_payload_zeros : zeros.payload.length = 7 * zeros.bytes.length := by
  rw [length_payload, length_bytes]
  decide

/-- Ones take one byte more than they are. -/
theorem length_bytes_ones : 134 * ones.bytes.length = 135 * ones.payload.length := by
  rw [length_payload, length_bytes]
  decide

end Group

theorem length_bytesOf_replicate (count : Nat) (group : Group) :
    (bytesOf (List.replicate count group)).length = count * group.bytes.length := by
  rw [bytesOf, List.flatMap_replicate, List.length_flatten, List.map_replicate,
    List.sum_replicate, smul_eq_mul]

theorem length_payloadOf_replicate (count : Nat) (group : Group) :
    (payloadOf (List.replicate count group)).length = count * group.payload.length := by
  rw [payloadOf, List.flatMap_replicate, List.length_flatten, List.map_replicate,
    List.sum_replicate, smul_eq_mul]

theorem separator_notMem_replicate (count : Nat) {group : Group}
    (zeroFree : separator ∉ group.bytes) :
    separator ∉ bytesOf (List.replicate count group) := by
  rw [bytesOf, List.mem_flatMap]
  rintro ⟨other, member, zero⟩
  exact zeroFree (List.eq_of_mem_replicate member ▸ zero)

/-- A payload is at most seven times as long as its codeword, and a codeword takes at most one
byte more for every 134 bytes of its payload. Bytes that are not empty stand for seven bytes at
least. Both bounds are attained by frames of any number of groups. -/
theorem payload_size_bounds :
    (∀ codeword payload, decode codeword = .ok payload →
        payload.length ≤ 7 * codeword.length ∧
          134 * codeword.length ≤ 135 * payload.length ∧
          (codeword ≠ [] → 7 ≤ payload.length)) ∧
      ∀ count,
        (∃ groups : List Group, groups.length = count ∧ separator ∉ bytesOf groups ∧
            decode (bytesOf groups) = .ok (payloadOf groups) ∧
            (payloadOf groups).length = 7 * (bytesOf groups).length) ∧
          ∃ groups : List Group, groups.length = count ∧ separator ∉ bytesOf groups ∧
            decode (bytesOf groups) = .ok (payloadOf groups) ∧
            134 * (bytesOf groups).length = 135 * (payloadOf groups).length := by
  constructor
  · intro codeword payload read
    have least : codeword ≠ [] → 7 ≤ payload.length :=
      fun some => bitmapSize_le_length_of_decode some read
    obtain ⟨groups, rfl, rfl⟩ := exists_groups_of_decode read
    exact ⟨length_payloadOf_le groups, length_bytesOf_le groups, least⟩
  · intro count
    refine ⟨⟨List.replicate count .zeros, List.length_replicate, ?_, decode_bytesOf _, ?_⟩,
      List.replicate count .ones, List.length_replicate, ?_, decode_bytesOf _, ?_⟩
    · exact separator_notMem_replicate count Group.separator_notMem_zeros
    · rw [length_payloadOf_replicate, length_bytesOf_replicate,
        Group.length_payload_zeros, Nat.mul_left_comm]
    · exact separator_notMem_replicate count Group.separator_notMem_ones
    · rw [length_payloadOf_replicate, length_bytesOf_replicate, Nat.mul_left_comm,
        Group.length_bytes_ones, Nat.mul_left_comm]

end ZeroFrame.Codeword

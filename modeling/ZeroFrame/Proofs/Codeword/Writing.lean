/-
This file shows what the writer writes: groups that carry the payload and its padding.

Reading undoes writing up to the zeros that close the last group, and writing undoes reading
for every codeword without a separator. The first is an induction over the payload in which
the bytes of the open group are carried along; the second is one over the groups of the
codeword, each of which the writer settles at its last byte and not before.
-/

import ZeroFrame.Proofs.Codeword.Cutting
import ZeroFrame.Proofs.Codeword.Settling

namespace ZeroFrame.Codeword

/-! ### Closing the last group -/

/-- The end of the payload closes the open group as zeros would that fill it. -/
theorem exists_settles_closing {held : Bytes} (still : IsOpen held) (some : held ≠ []) :
    ∃ control, Settles (held ++ List.replicate (padding held.length) separator) control ∧
      (OpenGroup.holding held).closing = [control] := by
  have positive := List.length_pos_iff.mpr some
  by_cases few : held.length < bitmapSize
  · have count : padding held.length = bitmapSize - held.length := by
      rw [padding, if_neg (by omega), if_pos few]
    have full : (held ++ List.replicate (padding held.length) separator).length = bitmapSize := by
      rw [List.length_append, List.length_replicate, count]
      omega
    have zero : separator ∈ held ++ List.replicate (padding held.length) separator := by
      refine List.mem_append_right _ (List.mem_replicate.mpr ⟨?_, rfl⟩)
      omega
    refine ⟨_, .bitmap full zero, ?_⟩
    have filled : flagNumber (zeroFlags (held ++ List.replicate (padding held.length) separator)) =
        flagNumber (zeroFlags held) + (0x80 - Nat.pow 2 held.length) := by
      rw [zeroFlags_append, zeroFlags_separators, flagNumber_append, flagNumber_replicate,
        length_zeroFlags, Nat.mul_sub, ← Nat.pow_add, count, Nat.add_sub_cancel' (Nat.le_of_lt few),
        Nat.mul_one]
      rfl
    rw [OpenGroup.closing, filled]
    simp only [OpenGroup.holding, few, Nat.ne_of_gt positive, if_false, if_true]
  · have count : padding held.length = 1 := by
      rw [padding, if_neg (by omega), if_neg few]
    have least := Nat.not_lt.mp few
    rw [count]
    refine ⟨_, .run least still.short (still.zeroFree least), ?_⟩
    rw [OpenGroup.closing]
    simp only [OpenGroup.holding, few, Nat.ne_of_gt positive, if_false, OpenGroup.runControl]

/-! ### Writing a payload -/

/-- Writing goes through whole groups to a group that stays open. The bytes `held` are those of the
group that is open at first. -/
theorem exists_groups_encodeAfter {held : Bytes} (still : IsOpen held) (payload : Bytes) :
    ∃ groups rest, IsOpen rest ∧ payloadOf groups ++ rest = held ++ payload ∧
      separator ∉ bytesOf groups ∧
      openAfter (OpenGroup.holding held) payload = OpenGroup.holding rest ∧
      literalsOf held ++ encodeAfter (OpenGroup.holding held) payload =
        bytesOf groups ++ (literalsOf rest ++ (OpenGroup.holding rest).closing) := by
  induction payload generalizing held with
  | nil => exact ⟨[], held, still, by simp, by simp, rfl, rfl⟩
  | cons byte payload inductionHypothesis =>
    rcases still.next byte with open_ | ⟨control, settled⟩
    · obtain ⟨groups, rest, restOpen, carried, zeroFree, left, written⟩ :=
        inductionHypothesis open_
      refine ⟨groups, rest, restOpen, by simpa using carried, zeroFree, ?_, ?_⟩
      · rw [openAfter, List.foldl_cons, push_of_isOpen open_]
        exact left
      · rw [encodeAfter, push_of_isOpen open_, ← List.append_assoc, ← literalsOf_append]
        exact written
    · obtain ⟨groups, rest, restOpen, carried, zeroFree, left, written⟩ :=
        inductionHypothesis isOpen_nil
      refine ⟨settled.group :: groups, rest, restOpen, ?_, ?_, ?_, ?_⟩
      · rw [payloadOf_cons, settled.payload_group, List.append_assoc, carried]
        simp
      · rw [bytesOf_cons, settled.bytes_group]
        simp only [List.mem_append, List.mem_singleton, not_or]
        exact ⟨⟨separator_notMem_literalsOf _, settled.control_ne.symm⟩, zeroFree⟩
      · rw [openAfter, List.foldl_cons, push_of_settles settled]
        exact left
      · rw [encodeAfter, push_of_settles settled, bytesOf_cons, settled.bytes_group,
          literalsOf_append, List.append_assoc, List.append_assoc, ← written]
        simp [OpenGroup.fresh_eq_holding]

/-- A codeword is made of groups that carry the payload and its padding. -/
theorem exists_groups_encode (payload : Bytes) :
    ∃ groups, bytesOf groups = encode payload ∧ separator ∉ bytesOf groups ∧
      payloadOf groups = payload ++ List.replicate (padding (openSize payload)) separator := by
  obtain ⟨groups, rest, still, carried, zeroFree, left, written⟩ :=
    exists_groups_encodeAfter isOpen_nil payload
  have size : openSize payload = rest.length := congrArg OpenGroup.size left
  rw [literalsOf_nil, List.nil_append] at written
  rw [List.nil_append] at carried
  by_cases empty : rest = []
  · subst empty
    refine ⟨groups, ?_, zeroFree, ?_⟩
    · rw [encode, OpenGroup.fresh_eq_holding, written]
      simp [OpenGroup.closing, OpenGroup.holding]
    · rw [size, ← carried]
      simp [padding]
  · obtain ⟨control, settled, closed⟩ := exists_settles_closing still empty
    refine ⟨groups ++ [settled.group], ?_, ?_, ?_⟩
    · rw [encode, OpenGroup.fresh_eq_holding, written, closed, bytesOf_append, bytesOf_cons,
        settled.bytes_group]
      simp
    · simp only [bytesOf_append, bytesOf_cons, bytesOf_nil, settled.bytes_group, List.mem_append,
        List.mem_singleton, List.not_mem_nil, or_false, not_or]
      exact ⟨zeroFree, separator_notMem_literalsOf _, settled.control_ne.symm⟩
    · rw [payloadOf_append, payloadOf_cons, settled.payload_group, payloadOf_nil, List.append_nil,
        ← List.append_assoc, carried, size]

theorem separator_notMem_encode (payload : Bytes) : separator ∉ encode payload := by
  obtain ⟨groups, written, zeroFree, _⟩ := exists_groups_encode payload
  exact written ▸ zeroFree

/-- Reading a codeword gives the payload and its padding. -/
theorem decode_encode (payload : Bytes) : decode (encode payload) =
    .ok (payload ++ List.replicate (padding (openSize payload)) separator) := by
  obtain ⟨groups, written, _, carried⟩ := exists_groups_encode payload
  rw [← written, decode_bytesOf, carried]

theorem encode_eq_nil_iff (payload : Bytes) : encode payload = [] ↔ payload = [] := by
  constructor
  · intro empty
    obtain ⟨groups, written, _, carried⟩ := exists_groups_encode payload
    rw [empty] at written
    rw [eq_nil_of_bytesOf_eq_nil written, payloadOf_nil] at carried
    exact (List.append_eq_nil_iff.mp carried.symm).1
  · rintro rfl
    rfl

theorem openSize_lt (payload : Bytes) : openSize payload < rawSize := by
  obtain ⟨_, rest, still, _, _, left, _⟩ := exists_groups_encodeAfter isOpen_nil payload
  have size : openSize payload = rest.length := congrArg OpenGroup.size left
  exact size ▸ still.short

theorem padding_lt (size : Nat) : padding size < bitmapSize := by
  rw [padding]
  split
  · decide
  · split
    · omega
    · decide

/-- Writing uses no separator and loses nothing: the codeword of a payload reads as the payload
followed by zeros. How many they are depends on the size of the last open group alone, they
are the places that a bitmap has left over or the one zero of a run. -/
theorem decode_encode_padded (payload : Bytes) :
    separator ∉ encode payload ∧
      (encode payload = [] ↔ payload = []) ∧
      decode (encode payload) =
        .ok (payload ++ List.replicate (padding (openSize payload)) separator) ∧
      openSize payload ≤ 133 ∧
      padding (openSize payload) =
        (if openSize payload = 0 then 0
          else if openSize payload ≤ 6 then 7 - openSize payload else 1) ∧
      padding (openSize payload) ≤ 6 := by
  refine ⟨separator_notMem_encode payload, encode_eq_nil_iff payload, decode_encode payload,
    Nat.le_of_lt_succ (openSize_lt payload), ?_, Nat.le_of_lt_succ (padding_lt _)⟩
  simp only [padding, bitmapSize, Nat.lt_succ_iff]

end ZeroFrame.Codeword

/-
This file shows that a payload has one codeword without separators.

A frame on the wire holds no separator, so all of its literals are nonzero. The payload of
such a group keeps the writer's group open until its last byte, at which the writer settles
it with the very same control byte. Writing the payload of a frame therefore goes through
the groups of the frame, however they were chosen.
-/

import ZeroFrame.Proofs.Codeword.Writing

namespace ZeroFrame.Codeword

/-- While the group stays open, the literals are written and nothing else. The bytes `front` are
those that the group holds at first. -/
theorem encodeAfter_of_isOpen {front held : Bytes} (still : IsOpen (front ++ held))
    (rest : Bytes) :
    encodeAfter (OpenGroup.holding front) (held ++ rest) =
      literalsOf held ++ encodeAfter (OpenGroup.holding (front ++ held)) rest := by
  induction held generalizing front with
  | nil => rw [List.append_nil, literalsOf_nil, List.nil_append, List.nil_append]
  | cons byte held inductionHypothesis =>
    rw [← List.singleton_append, ← List.append_assoc] at still
    rw [List.cons_append, encodeAfter, push_of_isOpen still.of_append, inductionHypothesis still,
      ← List.append_assoc, ← literalsOf_append, List.append_assoc, List.singleton_append]

/-- The writer writes the payload of a group without zeros among its literals as this group. -/
theorem encodeAfter_payload {group : Group} (zeroFree : separator ∉ group.literals)
    (rest : Bytes) :
    encodeAfter .fresh (group.payload ++ rest) = group.bytes ++ encodeAfter .fresh rest := by
  obtain ⟨settled, sameLiterals⟩ := Group.settles zeroFree
  obtain ⟨front, last, split, still⟩ := settled.exists_init
  have opened : encodeAfter .fresh (front ++ ([last] ++ rest)) =
      literalsOf front ++ encodeAfter (.holding front) ([last] ++ rest) :=
    encodeAfter_of_isOpen (show IsOpen ([] ++ front) from still) ([last] ++ rest)
  rw [split] at settled sameLiterals
  rw [split, List.append_assoc, opened, List.singleton_append, encodeAfter,
    push_of_settles settled, Group.bytes, ← sameLiterals, literalsOf_append]
  simp only [List.append_assoc]

theorem encode_payloadOf {groups : List Group} (zeroFree : separator ∉ bytesOf groups) :
    encode (payloadOf groups) = bytesOf groups := by
  induction groups with
  | nil => rfl
  | cons group groups inductionHypothesis =>
    rw [bytesOf_cons, Group.bytes, List.mem_append, List.mem_append, not_or, not_or] at zeroFree
    have others := inductionHypothesis zeroFree.2
    rw [encode] at others ⊢
    rw [payloadOf_cons, encodeAfter_payload zeroFree.1.1, others, bytesOf_cons]

theorem encode_of_decode {codeword payload : Bytes} (zeroFree : separator ∉ codeword)
    (read : decode codeword = .ok payload) : encode payload = codeword := by
  obtain ⟨groups, rfl, rfl⟩ := exists_groups_of_decode read
  exact encode_payloadOf zeroFree

/-- A frame that can be read is the codeword of its payload, and so no other frame has the same
payload. -/
theorem codeword_canonical {codeword payload : Bytes} (zeroFree : separator ∉ codeword)
    (read : decode codeword = .ok payload) :
    encode payload = codeword ∧
      ∀ other, separator ∉ other → decode other = .ok payload → other = codeword := by
  have same := encode_of_decode zeroFree read
  refine ⟨same, fun other otherFree otherRead => ?_⟩
  rw [← same, encode_of_decode otherFree otherRead]

theorem codeword_canonical_bitmap_run :
    encode [0x11, 0, 0, 0, 0, 0, 0, 1, 2, 3, 4, 5, 6, 7, 0] =
        [0x11, 0x7e, 1, 2, 3, 4, 5, 6, 7, 0x80] ∧
      ∀ other, separator ∉ other →
        decode other = .ok [0x11, 0, 0, 0, 0, 0, 0, 1, 2, 3, 4, 5, 6, 7, 0] →
        other = [0x11, 0x7e, 1, 2, 3, 4, 5, 6, 7, 0x80] :=
  codeword_canonical (by decide) ((decode_bytesOf [⟨[0x11], 0x7e, by decide, by decide⟩,
    ⟨[1, 2, 3, 4, 5, 6, 7], 0x80, by decide, by decide⟩]).trans (congrArg Except.ok (by decide)))

end ZeroFrame.Codeword

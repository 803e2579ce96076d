/-
This file shows what becomes of bytes when others are put before them.

Decoding begins at the end, so what stands in front has no say in what the back comes to. If
groups form the back, its payload comes last, and the front decides about the rest. If a
separator stands before the groups at the end, it is met first whatever is put before it. Only a
control byte that lacks literals can find them in front. So a codeword that has lost its head
either keeps the end of its payload or is seen to be truncated.
-/

import ZeroFrame.Proofs.Codeword.Grammar

namespace ZeroFrame.Codeword

variable {front back later : Bytes}

theorem decode_append (read : decode back = .ok later) :
    decode (front ++ back) = (decode front).map (· ++ later) := by
  obtain ⟨cut, rfl, rfl⟩ := exists_groups_of_decode read
  rw [decode, decode, groups_append_bytesOf]
  cases groups front with
  | error flaw => rfl
  | ok earlier => exact congrArg Except.ok (payloadOf_append earlier cut)

/-- A separator is a fault exactly if what follows it has a payload. -/
theorem decode_eq_separator_iff (codeword : Bytes) :
    decode codeword = .error .separator ↔
      ∃ before after later, codeword = before ++ separator :: after ∧ decode after = .ok later := by
  constructor
  · intro refused
    obtain ⟨reading, rfl⟩ := exists_reading codeword
    have outcome := reading.decode_bytes
    rw [refused] at outcome
    cases reading with
    | whole groups => cases outcome
    | separated before groups =>
      exact ⟨before, bytesOf groups, payloadOf groups, List.append_cons .. ▸ rfl,
        decode_bytesOf groups⟩
    | truncated literals control control_ne short groups => cases outcome
  · rintro ⟨before, after, later, rfl, read⟩
    rw [List.append_cons, decode_append read, decode, groups_append_separator]
    rfl

/-- A separator that is a fault stays one behind more bytes. -/
theorem decode_append_of_separator (refused : decode back = .error .separator) :
    decode (front ++ back) = .error .separator := by
  obtain ⟨before, after, later, rfl, read⟩ := (decode_eq_separator_iff back).mp refused
  exact (decode_eq_separator_iff _).mpr
    ⟨front ++ before, after, later, (List.append_assoc ..).symm, read⟩

/-- The end of a codeword has the end of its payload, or else its first control byte has lost
literals. -/
theorem suffix_or_truncated {payload : Bytes} (read : decode (front ++ back) = .ok payload) :
    (∃ later, decode back = .ok later ∧ later <:+ payload) ∨
      ∃ control, decode back = .error (.truncated control) := by
  cases outcome : decode back with
  | ok later =>
    rw [decode_append outcome] at read
    cases first : decode front with
    | error flaw =>
      rw [first] at read
      cases read
    | ok earlier =>
      rw [first] at read
      exact Or.inl ⟨later, rfl, earlier, Except.ok.inj read⟩
  | error flaw =>
    cases flaw with
    | separator =>
      rw [decode_append_of_separator outcome] at read
      cases read
    | truncated control => exact Or.inr ⟨control, rfl⟩

/-- Decoding composes from the end. If the back has a payload, both together have that of the
front and then this one, or the fault of the front. A separator that is a fault of the back is
the fault of both. And whatever is lost of the head of a codeword, the rest has the end of its
payload or lacks literals; it has no other payload, and no separator becomes a fault. -/
theorem decode_composes_from_end (front back : Bytes) :
    (∀ later, decode back = .ok later →
        (∀ earlier, decode front = .ok earlier →
          decode (front ++ back) = .ok (earlier ++ later)) ∧
        ∀ flaw, decode front = .error flaw → decode (front ++ back) = .error flaw) ∧
      (decode back = .error .separator → decode (front ++ back) = .error .separator) ∧
      ∀ payload, decode (front ++ back) = .ok payload →
        (∃ later, decode back = .ok later ∧ later <:+ payload) ∨
          ∃ control, decode back = .error (.truncated control) := by
  refine ⟨fun later read => ⟨fun earlier first => ?_, fun flaw first => ?_⟩,
    decode_append_of_separator, fun payload => suffix_or_truncated⟩
  · rw [decode_append read, first]
    rfl
  · rw [decode_append read, first]
    rfl

end ZeroFrame.Codeword

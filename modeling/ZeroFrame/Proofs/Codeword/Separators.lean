/-
This file shows where a separator inside a codeword is noticed.

The reader compares control bytes with the separator, and literals with nothing. Which of the two
a byte is depends on what follows it. If that has a payload, the byte is read as a control byte.
If it lacks literals, the byte is the next of them, and then only its place in the payload tells
what it is: the reader accepts or refuses the same bytes for every value of it. So a separator is
accepted as a literal of any group, but the writer never writes it.
-/

import ZeroFrame.Proofs.Codeword.Joining
import ZeroFrame.Proofs.Codeword.Writing

namespace ZeroFrame.Codeword

/-! ### Payloads that differ in one literal -/

/-- A literal fills one place, and another literal fills it in its stead. -/
theorem exists_set_fillFlags {flags : List Bool} {head tail : Bytes} {byte : UInt8}
    (enough : (head ++ byte :: tail).length = flags.count false) (other : UInt8) :
    ∃ place, (fillFlags flags (head ++ byte :: tail))[place]? = some byte ∧
      fillFlags flags (head ++ other :: tail) =
        (fillFlags flags (head ++ byte :: tail)).set place other := by
  induction flags generalizing head with
  | nil => simp at enough
  | cons flag flags inductionHypothesis =>
    cases flag with
    | true =>
      obtain ⟨place, found, same⟩ := inductionHypothesis (by simpa using enough)
      exact ⟨place + 1, found, congrArg (separator :: ·) same⟩
    | false =>
      cases head with
      | nil => exact ⟨0, rfl, rfl⟩
      | cons literal head =>
        have rest : (head ++ byte :: tail).length = flags.count false := by simpa using enough
        obtain ⟨place, found, same⟩ := inductionHypothesis rest
        exact ⟨place + 1, found, congrArg (literal :: ·) same⟩

/-- Under every pattern a literal stands in one place of the payload. -/
theorem exists_set_expand {control : UInt8} {head tail : Bytes} {byte : UInt8}
    (enough : (head ++ byte :: tail).length = literalCount control) (other : UInt8) :
    ∃ place, ((Pattern.ofControl control).expand (head ++ byte :: tail))[place]? = some byte ∧
      (Pattern.ofControl control).expand (head ++ other :: tail) =
        ((Pattern.ofControl control).expand (head ++ byte :: tail)).set place other := by
  have own : (head ++ byte :: tail)[head.length]? = some byte := by simp
  have set : head ++ other :: tail = (head ++ byte :: tail).set head.length other := by simp
  rw [literalCount] at enough
  cases pattern : Pattern.ofControl control with
  | bitmap flags =>
    rw [pattern] at enough
    exact exists_set_fillFlags enough other
  | run literals =>
    have inside : head.length < (head ++ byte :: tail).length := by simp
    refine ⟨head.length, ?_, ?_⟩
    · rw [Pattern.expand, List.getElem?_append_left inside, own]
    · rw [Pattern.expand, Pattern.expand, List.set_append_left _ _ inside, set]
  | raw => exact ⟨head.length, own, set⟩

/-! ### Separators among literals -/

variable {before after : Bytes} {control : UInt8}

/-- What lacks literals ends in groups behind a control byte that needs more of them. -/
theorem exists_of_truncated (lacks : decode after = .error (.truncated control)) :
    ∃ literals groups, after = literals ++ control :: bytesOf groups ∧ control ≠ separator ∧
      literals.length < literalCount control := by
  obtain ⟨reading, rfl⟩ := exists_reading after
  have outcome := reading.decode_bytes
  rw [lacks] at outcome
  cases reading with
  | whole groups => cases outcome
  | separated before groups => cases outcome
  | truncated literals last control_ne short groups =>
    cases outcome
    refine ⟨literals, groups, (List.append_cons ..).symm, control_ne, ?_⟩
    rwa [literalCount_eq_need]

theorem decode_of_short {literals : Bytes} (control_ne : control ≠ separator)
    (short : literals.length < literalCount control) (groups : List Group) :
    decode (literals ++ control :: bytesOf groups) = .error (.truncated control) := by
  rw [List.append_cons, decode_append (decode_bytesOf groups), decode,
    groups_append_control control_ne short]
  rfl

theorem decode_append_group (front : Bytes) (group : Group) (groups : List Group) :
    decode (front ++ (group.literals ++ group.control :: bytesOf groups)) =
      (decode front).map (· ++ (group.payload ++ payloadOf groups)) := by
  have whole : group.literals ++ group.control :: bytesOf groups = bytesOf (group :: groups) := by
    rw [bytesOf_cons, Group.bytes, List.append_cons]
  rw [whole, decode_append (decode_bytesOf (group :: groups)), payloadOf_cons]

/-- The front has enough bytes for a control byte behind it, or it has not. -/
theorem exists_split_front (front : Bytes) {missing : Nat} (enough : missing ≤ front.length) :
    ∃ rest head, front = rest ++ head ∧ head.length = missing := by
  refine ⟨front.take (front.length - missing), front.drop (front.length - missing),
    (List.take_append_drop ..).symm, ?_⟩
  rw [List.length_drop]
  omega

/-- A byte before bytes that lack literals is the next of these. The reader accepts it whatever it
is, and puts it in one place of the payload. -/
theorem decode_literal (lacks : decode after = .error (.truncated control)) (before : Bytes)
    (byte other : UInt8) :
    (∀ flaw, decode (before ++ byte :: after) = .error flaw →
        decode (before ++ other :: after) = .error flaw) ∧
      ∀ payload, decode (before ++ byte :: after) = .ok payload →
        ∃ place, payload[place]? = some byte ∧
          decode (before ++ other :: after) = .ok (payload.set place other) := by
  obtain ⟨literals, groups, rfl, control_ne, short⟩ := exists_of_truncated lacks
  by_cases enough : literalCount control - (literals.length + 1) ≤ before.length
  · obtain ⟨front, head, rfl, missing⟩ := exists_split_front before enough
    have full : ∀ literal : UInt8,
        (head ++ literal :: literals).length = literalCount control := by
      intro literal
      rw [List.length_append, List.length_cons]
      omega
    have read : ∀ literal : UInt8,
        decode (front ++ head ++ literal :: (literals ++ control :: bytesOf groups)) =
          (decode front).map (· ++ ((Pattern.ofControl control).expand
            (head ++ literal :: literals) ++ payloadOf groups)) := by
      intro literal
      have group := decode_append_group front ⟨_, control, control_ne, full literal⟩ groups
      rw [List.append_assoc] at group ⊢
      exact group
    obtain ⟨place, found, same⟩ := exists_set_expand (full byte) other
    rw [read, read, same]
    cases decode front with
    | error flaw => exact ⟨fun _ refused => refused, nofun⟩
    | ok earlier =>
      refine ⟨nofun, fun payload accepted => ?_⟩
      obtain rfl := Except.ok.inj accepted
      have inside := (List.getElem?_eq_some_iff.mp found).1
      refine ⟨earlier.length + place, ?_, congrArg Except.ok ?_⟩
      · rw [List.getElem?_append_right (Nat.le_add_right ..), Nat.add_sub_cancel_left,
          List.getElem?_append_left inside, found]
      · rw [List.set_append_right _ _ (Nat.le_add_right ..), Nat.add_sub_cancel_left,
          List.set_append_left _ _ inside]
  · have lacking : ∀ literal : UInt8,
        decode (before ++ literal :: (literals ++ control :: bytesOf groups)) =
          .error (.truncated control) := by
      intro literal
      rw [← List.cons_append, ← List.append_assoc]
      refine decode_of_short control_ne ?_ groups
      rw [List.length_append, List.length_cons]
      omega
    rw [lacking, lacking]
    exact ⟨fun _ refused => refused, nofun⟩

/-- The bytes after a separator decide what it comes to. If they have a payload, it is read as a
control byte and is a fault, and if a separator among them is a fault, so is that one. If they
lack literals, it is one: the codeword has the fault that it has with any other byte there, or it
is accepted, and the payload has a zero in the place of the other byte. What is accepted with a
separator is never what the writer writes. -/
theorem separator_judged_by_rest (before after : Bytes) :
    (∀ later, decode after = .ok later →
        decode (before ++ separator :: after) = .error .separator) ∧
      (decode after = .error .separator →
        decode (before ++ separator :: after) = .error .separator) ∧
      (∀ control, decode after = .error (.truncated control) → ∀ byte,
        (∀ flaw, decode (before ++ byte :: after) = .error flaw →
          decode (before ++ separator :: after) = .error flaw) ∧
        ∀ payload, decode (before ++ byte :: after) = .ok payload →
          ∃ place, payload[place]? = some byte ∧
            decode (before ++ separator :: after) = .ok (payload.set place separator)) ∧
      ∀ payload, decode (before ++ separator :: after) = .ok payload →
        encode payload ≠ before ++ separator :: after := by
  refine ⟨fun later read => ?_, fun refused => ?_,
    fun control lacks byte => decode_literal lacks before byte separator,
    fun payload _ written => ?_⟩
  · exact (decode_eq_separator_iff _).mpr ⟨before, after, later, rfl, read⟩
  · rw [List.append_cons]
    exact decode_append_of_separator refused
  · have zeroFree := separator_notMem_encode payload
    rw [written] at zeroFree
    exact zeroFree (List.mem_append_right _ List.mem_cons_self)

/-- The first literal of a run is a separator, and the reader takes it. -/
theorem separator_among_literals_accepted :
    separator ∈ ([0, 1, 2, 3, 4, 5, 6, 0x80] : Bytes) ∧
      decode [0, 1, 2, 3, 4, 5, 6, 0x80] = .ok [0, 1, 2, 3, 4, 5, 6, 0] :=
  ⟨by decide, (decode_bytesOf [⟨[0, 1, 2, 3, 4, 5, 6], 0x80, by decide, by decide⟩]).trans
    (congrArg Except.ok (by decide))⟩

end ZeroFrame.Codeword

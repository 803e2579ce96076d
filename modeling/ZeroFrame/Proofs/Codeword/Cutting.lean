/-
This file shows that a codeword and its groups determine each other.

The groups are cut off from the end. Since the control byte alone says how many literals
stand before it, cutting the bytes of given groups finds exactly these groups, and whatever
is cut spells the codeword again. Reading a codeword is therefore the same as naming the
groups that form it.
-/

import Mathlib
import ZeroFrame.Codeword.Decode

namespace ZeroFrame.Codeword

/-! ### Bytes and payloads of several groups -/

@[simp] theorem bytesOf_nil : bytesOf [] = [] := rfl

@[simp] theorem bytesOf_cons (group : Group) (groups : List Group) :
    bytesOf (group :: groups) = group.bytes ++ bytesOf groups := rfl

@[simp] theorem bytesOf_append (front back : List Group) :
    bytesOf (front ++ back) = bytesOf front ++ bytesOf back := List.flatMap_append

@[simp] theorem payloadOf_nil : payloadOf [] = [] := rfl

@[simp] theorem payloadOf_cons (group : Group) (groups : List Group) :
    payloadOf (group :: groups) = group.payload ++ payloadOf groups := rfl

@[simp] theorem payloadOf_append (front back : List Group) :
    payloadOf (front ++ back) = payloadOf front ++ payloadOf back := List.flatMap_append

theorem Group.reverse_bytes (group : Group) :
    group.bytes.reverse = group.control :: group.literals.reverse := by
  rw [Group.bytes, List.reverse_append, List.reverse_singleton, List.singleton_append]

theorem eq_nil_of_bytesOf_eq_nil {groups : List Group} (empty : bytesOf groups = []) :
    groups = [] := by
  cases groups with
  | nil => rfl
  | cons group groups => simp [Group.bytes] at empty

/-! ### From groups to the codeword and back -/

/-- One group is cut off the end and put before the groups that were cut already. -/
theorem cutGroups_group (group : Group) (before : Bytes) (later : List Group) :
    cutGroups (group.bytes.reverse ++ before) later = cutGroups before (group :: later) := by
  obtain ⟨literals, control, control_ne, length_eq⟩ := group
  rw [Group.reverse_bytes, List.cons_append, cutGroups]
  have enough : literalCount control ≤ (literals.reverse ++ before).length := by
    simp only [List.length_append, List.length_reverse]
    omega
  have own : (literals.reverse ++ before).take (literalCount control) = literals.reverse :=
    List.take_left' (by rw [List.length_reverse, length_eq])
  have others : (literals.reverse ++ before).drop (literalCount control) = before :=
    List.drop_left' (by rw [List.length_reverse, length_eq])
  rw [dif_neg control_ne, dif_pos enough]
  simp only [own, others, List.reverse_reverse]

/-- Some groups are cut off the end, the last of them first. -/
theorem cutGroups_bytesOf (groups : List Group) (before : Bytes) (later : List Group) :
    cutGroups ((bytesOf groups).reverse ++ before) later = cutGroups before (groups ++ later) := by
  induction groups generalizing before with
  | nil => rfl
  | cons group groups inductionHypothesis =>
    rw [bytesOf_cons, List.reverse_append, List.append_assoc, inductionHypothesis,
      cutGroups_group, List.cons_append]

/-- Groups that stand last stay behind those that are cut. -/
theorem cutGroups_append (reversed : Bytes) (later last : List Group) :
    cutGroups reversed (later ++ last) = (cutGroups reversed later).map (· ++ last) := by
  induction reversed, later using cutGroups.induct with
  | case1 later =>
    rw [cutGroups, cutGroups]
    rfl
  | case2 later before =>
    rw [cutGroups, cutGroups, dif_pos rfl, dif_pos rfl]
    rfl
  | case3 later control before nonzero enough inductionHypothesis =>
    rw [cutGroups, cutGroups, dif_neg nonzero, dif_neg nonzero, dif_pos enough, dif_pos enough]
    exact inductionHypothesis
  | case4 later control before nonzero short =>
    rw [cutGroups, cutGroups, dif_neg nonzero, dif_neg nonzero, dif_neg short, dif_neg short]
    rfl

/-- Groups at the end are found whatever stands before them. -/
theorem groups_append_bytesOf (front : Bytes) (cut : List Group) :
    groups (front ++ bytesOf cut) = (groups front).map (· ++ cut) := by
  rw [groups, List.reverse_append, cutGroups_bytesOf, List.append_nil]
  exact cutGroups_append front.reverse [] cut

theorem groups_nil : groups [] = .ok [] := by
  rw [groups, List.reverse_nil, cutGroups]

theorem groups_bytesOf (cut : List Group) : groups (bytesOf cut) = .ok cut := by
  have all := groups_append_bytesOf [] cut
  rwa [groups_nil] at all

/-- Nothing is cut off if a separator comes first from the end. -/
theorem groups_append_separator (before : Bytes) :
    groups (before ++ [separator]) = .error .separator := by
  rw [groups, List.reverse_append, List.reverse_singleton, List.singleton_append, cutGroups,
    dif_pos rfl]

/-- Nothing is cut off if the first control byte from the end lacks literals. -/
theorem groups_append_control {literals : Bytes} {control : UInt8} (nonzero : control ≠ separator)
    (short : literals.length < literalCount control) :
    groups (literals ++ [control]) = .error (.truncated control) := by
  have few : ¬literalCount control ≤ literals.reverse.length := by
    rw [List.length_reverse]
    exact Nat.not_le.mpr short
  rw [groups, List.reverse_append, List.reverse_singleton, List.singleton_append, cutGroups,
    dif_neg nonzero, dif_neg few]

/-- What has been cut, written backwards, is what was to be cut. -/
theorem eq_append_of_cutGroups {reversed : Bytes} {later cut : List Group}
    (done : cutGroups reversed later = .ok cut) :
    ∃ front, cut = front ++ later ∧ bytesOf front = reversed.reverse := by
  induction reversed, later using cutGroups.induct with
  | case1 later =>
    rw [cutGroups] at done
    exact ⟨[], by rw [Except.ok.inj done, List.nil_append], rfl⟩
  | case2 later before =>
    rw [cutGroups, dif_pos rfl] at done
    cases done
  | case3 later control before nonzero enough inductionHypothesis =>
    rw [cutGroups, dif_neg nonzero, dif_pos enough] at done
    obtain ⟨front, rfl, spelled⟩ := inductionHypothesis done
    refine ⟨front ++ [_], by rw [List.append_assoc, List.singleton_append], ?_⟩
    rw [bytesOf_append, bytesOf_cons, bytesOf_nil, List.append_nil, spelled, Group.bytes,
      List.reverse_cons, ← List.append_assoc, ← List.reverse_append, List.take_append_drop]
  | case4 later control before nonzero short =>
    rw [cutGroups, dif_neg nonzero, dif_neg short] at done
    cases done

theorem bytesOf_of_groups {codeword : Bytes} {cut : List Group}
    (read : groups codeword = .ok cut) : bytesOf cut = codeword := by
  obtain ⟨front, rfl, spelled⟩ := eq_append_of_cutGroups read
  rw [List.append_nil, spelled, List.reverse_reverse]

/-! ### Payloads -/

theorem decode_bytesOf (cut : List Group) : decode (bytesOf cut) = .ok (payloadOf cut) := by
  rw [decode, groups_bytesOf]
  rfl

/-- A codeword has a payload only if groups form it and carry the payload. -/
theorem exists_groups_of_decode {codeword payload : Bytes} (read : decode codeword = .ok payload) :
    ∃ cut, bytesOf cut = codeword ∧ payloadOf cut = payload := by
  rw [decode] at read
  cases found : groups codeword with
  | error flaw =>
    rw [found] at read
    cases read
  | ok cut =>
    rw [found] at read
    exact ⟨cut, bytesOf_of_groups found, Except.ok.inj read⟩

end ZeroFrame.Codeword

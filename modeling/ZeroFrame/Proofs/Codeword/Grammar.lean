/-
This file compares the reader of codewords with their grammar.

The grammar is stated on the bits of a control byte: how many literals stand before it, and
which payload bytes they stand for. Bytes are read against it in one of three ways. Groups
form all of them, or groups follow a separator, or groups follow a control byte with too few
literals. In the last two nothing more can be cut off before the groups, so every byte string
has exactly one of these readings, and the outcome of decoding is that of the reading.
-/

import ZeroFrame.Fault
import ZeroFrame.Proofs.Codeword.Cutting

namespace ZeroFrame.Codeword

/-! ### The grammar on the bits of a control byte -/

/-- The number of clear bits of a control byte below a place. -/
def clearBits (control : UInt8) (place : Nat) : Nat :=
  (List.range place).countP fun bit => !control.toNat.testBit bit

/-- The number of literals that the grammar puts before a control byte. -/
def need (control : UInt8) : Nat :=
  if control < 0x80 then clearBits control 7
  else if control < 0xff then (control &&& 0x7f).toNat + 7
  else 134

/-- The payload bytes of a group. A bitmap has a zero at every set bit and the next literal at every
clear one, a run has a zero after its literals, and a raw group has the literals alone. -/
def expansion (literals : Bytes) (control : UInt8) : Bytes :=
  if control < 0x80 then
    (List.range 7).map fun bit =>
      if control.toNat.testBit bit then 0 else literals.getD (clearBits control bit) 0
  else if control < 0xff then literals ++ [0]
  else literals

theorem count_take_flags (control : UInt8) {place : Nat} (within : place ≤ bitmapSize) :
    ((flags control).take place).count false = clearBits control place := by
  rw [flags, ← List.map_take, List.take_range, Nat.min_eq_left within, List.count, List.countP_map,
    clearBits]
  exact List.countP_congr fun bit _ => by simp

theorem literalCount_eq_need (control : UInt8) : literalCount control = need control := by
  rw [literalCount, Pattern.ofControl, need]
  split
  case isTrue =>
    have all := count_take_flags control (Nat.le_refl bitmapSize)
    rwa [List.take_of_length_le (by simp [flags])] at all
  case isFalse run =>
    split
    case isTrue =>
      have least : 0x80 ≤ control.toNat := by simpa [UInt8.lt_iff_toNat_lt] using run
      have most := control.toNat_lt
      have low : (control &&& 0x7f).toNat = control.toNat % 0x80 := by
        rw [UInt8.toNat_and]
        exact Nat.and_two_pow_sub_one_eq_mod control.toNat 7
      simp only [Pattern.literalCount, bitmapSize, low]
      omega
    case isFalse => rfl

/-- Filling literals into flags puts at every place what its flag says. -/
theorem fillFlags_eq_map {flags : List Bool} {literals : Bytes}
    (enough : literals.length = flags.count false) :
    fillFlags flags literals = (List.range flags.length).map fun place =>
      if flags.getD place false then separator
      else literals.getD ((flags.take place).count false) separator := by
  induction flags generalizing literals with
  | nil => rfl
  | cons flag flags inductionHypothesis =>
    rw [List.length_cons, List.range_succ_eq_map, List.map_cons, List.map_map]
    cases flag with
    | true =>
      rw [fillFlags, inductionHypothesis (by simpa using enough)]
      simp [Function.comp_def]
    | false =>
      cases literals with
      | nil => simp at enough
      | cons literal literals =>
        rw [fillFlags, inductionHypothesis (by simpa using enough)]
        simp [Function.comp_def]

theorem Group.payload_eq_expansion (group : Group) :
    group.payload = expansion group.literals group.control := by
  obtain ⟨literals, control, control_ne, length_eq⟩ := group
  rw [literalCount] at length_eq
  rw [Group.payload, expansion]
  rw [Pattern.ofControl] at length_eq ⊢
  split
  case isTrue bitmap =>
    rw [if_pos bitmap] at length_eq
    have size : (flags control).length = 7 := by simp [flags, bitmapSize]
    rw [Pattern.expand, fillFlags_eq_map length_eq, size]
    refine List.map_congr_left fun place member => ?_
    have within := List.mem_range.mp member
    have flag : (flags control).getD place false = control.toNat.testBit place := by
      simp [flags, bitmapSize, within]
    rw [flag, count_take_flags control (Nat.le_of_lt within)]
    rfl
  case isFalse => split <;> rfl

/-! ### Readings -/

/-- The three ways in which bytes stand to the grammar. -/
inductive Reading where
  /-- Groups form the bytes. -/
  | whole (groups : List Group)
  /-- The groups follow a separator. -/
  | separated (before : Bytes) (groups : List Group)
  /-- The groups follow a control byte with too few literals before it. -/
  | truncated (literals : Bytes) (control : UInt8) (control_ne : control ≠ separator)
    (short : literals.length < need control) (groups : List Group)

namespace Reading

/-- What stands before the groups. -/
def front : Reading → Bytes
  | whole _ => []
  | separated before _ => before ++ [separator]
  | truncated literals control _ _ _ => literals ++ [control]

def groups : Reading → List Group
  | whole groups => groups
  | separated _ groups => groups
  | truncated _ _ _ _ groups => groups

/-- The bytes that are read so. -/
def bytes (reading : Reading) : Bytes := reading.front ++ bytesOf reading.groups

/-- What decoding the bytes comes to. -/
def outcome : Reading → Except Fault Bytes
  | whole groups => .ok (payloadOf groups)
  | separated _ _ => .error (.codeword .separator)
  | truncated _ control _ _ _ => .error (.codeword (.truncated control))

end Reading

theorem append_group_inj {front other : Bytes} {group last : Group}
    (same : front ++ group.bytes = other ++ last.bytes) : front = other ∧ group = last := by
  obtain ⟨literals, control, control_ne, length_eq⟩ := group
  obtain ⟨lastLiterals, lastControl, lastControl_ne, lastLength_eq⟩ := last
  simp only [Group.bytes, ← List.append_assoc] at same
  obtain ⟨sameLiterals, sameControl⟩ := List.append_inj' same rfl
  obtain rfl := List.singleton_inj.mp sameControl
  obtain ⟨sameFront, rfl⟩ := List.append_inj' sameLiterals (length_eq.trans lastLength_eq.symm)
  exact ⟨sameFront, rfl⟩

/-- No group can be cut off the end before the groups of a reading. -/
theorem Reading.front_ne (reading : Reading) (before : Bytes) (group : Group) :
    reading.front ≠ before ++ group.bytes := by
  intro same
  rw [Group.bytes, ← List.append_assoc] at same
  cases reading with
  | whole groups => simp [front] at same
  | separated bytes groups =>
    obtain ⟨_, sameControl⟩ := List.append_inj' same rfl
    exact group.control_ne (List.singleton_inj.mp sameControl).symm
  | truncated literals control control_ne short groups =>
    obtain ⟨rfl, sameControl⟩ := List.append_inj' same rfl
    obtain rfl := List.singleton_inj.mp sameControl
    have size := group.length_eq
    rw [literalCount_eq_need] at size
    rw [List.length_append] at short
    omega

/-- Groups are cut off the end in one way, as long as there is one to cut off; so both lists are
followed from the end. -/
theorem append_bytesOf_inj {front other : Bytes} {groups cut : List Group}
    (last : ∀ before (group : Group), front ≠ before ++ group.bytes)
    (otherLast : ∀ before (group : Group), other ≠ before ++ group.bytes)
    (same : front ++ bytesOf groups = other ++ bytesOf cut) : front = other ∧ groups = cut := by
  induction groups using List.reverseRecOn generalizing cut with
  | nil =>
    rcases List.eq_nil_or_concat' cut with rfl | ⟨cut, group, rfl⟩
    · exact ⟨by simpa using same, rfl⟩
    · refine absurd ?_ (last (other ++ bytesOf cut) group)
      simpa using same
  | append_singleton groups group inductionHypothesis =>
    rcases List.eq_nil_or_concat' cut with rfl | ⟨cut, lastGroup, rfl⟩
    · refine absurd ?_ (otherLast (front ++ bytesOf groups) group)
      simpa using same.symm
    · simp only [bytesOf_append, bytesOf_cons, bytesOf_nil, List.append_nil,
        ← List.append_assoc] at same
      obtain ⟨sameFront, rfl⟩ := append_group_inj same
      obtain ⟨rfl, rfl⟩ := inductionHypothesis sameFront
      exact ⟨rfl, rfl⟩

theorem Reading.bytes_injective : Function.Injective Reading.bytes := by
  intro reading other same
  obtain ⟨sameFront, sameGroups⟩ := append_bytesOf_inj reading.front_ne other.front_ne same
  cases reading with
  | whole groups => cases other <;> simp_all [front, Reading.groups]
  | separated before groups =>
    cases other with
    | whole cut => simp [front] at sameFront
    | separated other cut => simp_all [front, Reading.groups]
    | truncated literals control control_ne short cut =>
      exact absurd (List.singleton_inj.mp (List.append_inj' sameFront rfl).2).symm control_ne
  | truncated literals control control_ne short groups =>
    cases other with
    | whole cut => simp [front] at sameFront
    | separated other cut =>
      exact absurd (List.singleton_inj.mp (List.append_inj' sameFront rfl).2) control_ne
    | truncated otherLiterals otherControl otherControl_ne otherShort cut =>
      simp_all [front, Reading.groups]

/-- Whatever is left to be cut has a reading that goes on with the groups that were cut. -/
theorem exists_reading_cut (reversed : Bytes) (later : List Group) :
    ∃ reading : Reading, reading.bytes = reversed.reverse ++ bytesOf later := by
  induction reversed, later using cutGroups.induct with
  | case1 later => exact ⟨.whole later, rfl⟩
  | case2 later before =>
    exact ⟨.separated before.reverse later, by simp [Reading.bytes, Reading.front, Reading.groups]⟩
  | case3 later control before nonzero enough inductionHypothesis =>
    obtain ⟨reading, spelled⟩ := inductionHypothesis
    refine ⟨reading, ?_⟩
    rw [spelled, bytesOf_cons, Group.bytes, List.reverse_cons, ← List.append_assoc,
      ← List.append_assoc, ← List.reverse_append, List.take_append_drop]
  | case4 later control before nonzero short =>
    rw [literalCount_eq_need] at short
    exact ⟨.truncated before.reverse control nonzero (by simpa using short) later,
      by simp [Reading.bytes, Reading.front, Reading.groups]⟩

theorem exists_reading (codeword : Bytes) : ∃ reading : Reading, reading.bytes = codeword := by
  obtain ⟨reading, spelled⟩ := exists_reading_cut codeword.reverse []
  rw [List.reverse_reverse, bytesOf_nil, List.append_nil] at spelled
  exact ⟨reading, spelled⟩

theorem Reading.decode_bytes (reading : Reading) :
    (decode reading.bytes).mapError .codeword = reading.outcome := by
  rw [decode, bytes, groups_append_bytesOf]
  cases reading with
  | whole groups =>
    rw [front, groups_nil]
    rfl
  | separated before groups =>
    rw [front, groups_append_separator]
    rfl
  | truncated literals control control_ne short groups =>
    rw [front, groups_append_control control_ne (literalCount_eq_need control ▸ short)]
    rfl

/-- Decoding accepts exactly what groups form. A group is as many literals as its control byte
needs and then this byte, and it stands for the payload bytes that its bits say. Every byte
string has one reading, with one list of groups; what groups form comes to their payloads one
after another, and otherwise the bytes are malformed, for the separator or for the control
byte that is met before the groups. -/
theorem decode_reading (codeword : Bytes) :
    (∀ literals control,
      (∃ group : Group, group.literals = literals ∧ group.control = control) ↔
        control ≠ 0 ∧ literals.length = need control) ∧
      (∀ groups : List Group,
        bytesOf groups = groups.flatMap (fun group => group.literals ++ [group.control]) ∧
        payloadOf groups = groups.flatMap fun group => expansion group.literals group.control) ∧
      (∃ reading : Reading, reading.bytes = codeword ∧
        (decode codeword).mapError .codeword = reading.outcome ∧
        ∀ other : Reading, other.bytes = codeword → other = reading) ∧
      (∀ flaw, (Fault.codeword flaw).kind = .malformed) ∧
      (Fault.codeword .separator).message = "Separator byte 0x00 inside encoded frame" ∧
      ∀ control, (Fault.codeword (.truncated control)).message =
        "Truncated frame: control byte 0x" ++ String.ofList (Text.Hex.pair control) ++
          " needs more literal bytes" := by
  refine ⟨fun literals control => ⟨?_, ?_⟩, fun groups => ⟨rfl, ?_⟩, ?_, fun _ => rfl, rfl,
    fun _ => rfl⟩
  · rintro ⟨group, rfl, rfl⟩
    exact ⟨group.control_ne, literalCount_eq_need group.control ▸ group.length_eq⟩
  · rintro ⟨nonzero, size⟩
    exact ⟨⟨literals, control, nonzero, size.trans (literalCount_eq_need control).symm⟩, rfl, rfl⟩
  · exact List.flatMap_congr fun group _ => group.payload_eq_expansion
  · obtain ⟨reading, spelled⟩ := exists_reading_cut codeword.reverse []
    rw [List.reverse_reverse, bytesOf_nil, List.append_nil] at spelled
    refine ⟨reading, spelled, spelled ▸ reading.decode_bytes, fun other otherSpelled => ?_⟩
    exact Reading.bytes_injective (otherSpelled.trans spelled.symm)

end ZeroFrame.Codeword

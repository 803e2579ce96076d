/-
This file says when the group that a writer has open is settled, and how.

The writer remembers a size and a number, but what decides its next step are the payload
bytes that the group holds. Some bytes leave a group open, and others fill it; which control
byte closes a full group depends on its bytes alone. A filled group is one that can be read
back, and every group without a zero among its literals is filled by its payload, so the
writer and the reader agree on what a group is.
-/

import ZeroFrame.Codeword.Encode
import ZeroFrame.Proofs.Codeword.Flags

namespace ZeroFrame.Codeword

/-! ### Open and filled groups -/

/-- Bytes that leave their group open: fewer than a raw group has, and without a zero as soon as
they are enough for a bitmap. -/
structure IsOpen (held : Bytes) : Prop where
  short : held.length < rawSize
  zeroFree : bitmapSize ≤ held.length → separator ∉ held

/-- Bytes that fill a group, with the control byte that closes it. -/
inductive Settles : Bytes → UInt8 → Prop where
  | bitmap {held : Bytes} (full : held.length = bitmapSize) (zero : separator ∈ held) :
      Settles held (UInt8.ofNat (flagNumber (zeroFlags held)))
  | run {literals : Bytes} (least : bitmapSize ≤ literals.length)
      (most : literals.length < rawSize) (zeroFree : separator ∉ literals) :
      Settles (literals ++ [separator]) (UInt8.ofNat (0x80 + (literals.length - bitmapSize)))
  | raw {held : Bytes} (full : held.length = rawSize) (zeroFree : separator ∉ held) :
      Settles held 0xff

theorem exists_append_singleton {bytes : Bytes} (some : bytes ≠ []) :
    ∃ front last, bytes = front ++ [last] :=
  ⟨bytes.dropLast, bytes.getLast some, (List.dropLast_concat_getLast some).symm⟩

theorem isOpen_nil : IsOpen [] := ⟨by decide, fun full => absurd full (by decide)⟩

theorem IsOpen.of_append {front back : Bytes} (still : IsOpen (front ++ back)) : IsOpen front := by
  have short := still.short
  rw [List.length_append] at short
  refine ⟨by omega, fun full member => still.zeroFree ?_ (List.mem_append_left _ member)⟩
  rw [List.length_append]
  omega

/-- The next byte of an open group either leaves it open or fills it. -/
theorem IsOpen.next {held : Bytes} (still : IsOpen held) (byte : UInt8) :
    IsOpen (held ++ [byte]) ∨ ∃ control, Settles (held ++ [byte]) control := by
  have size : (held ++ [byte]).length = held.length + 1 := by simp
  by_cases full : bitmapSize ≤ held.length
  · have zeroFree := still.zeroFree full
    by_cases zero : byte = separator
    · subst zero
      exact Or.inr ⟨_, .run full still.short zeroFree⟩
    · have allFree : separator ∉ held ++ [byte] := by
        simp only [List.mem_append, List.mem_singleton, not_or]
        exact ⟨zeroFree, fun same => zero same.symm⟩
      by_cases last : held.length + 1 = rawSize
      · exact Or.inr ⟨_, .raw (size.trans last) allFree⟩
      · have short := still.short
        exact Or.inl ⟨by omega, fun _ => allFree⟩
  · by_cases settled : held.length + 1 = bitmapSize ∧ separator ∈ held ++ [byte]
    · exact Or.inr ⟨_, .bitmap (size.trans settled.1) settled.2⟩
    · have sizes : bitmapSize < rawSize := by decide
      exact Or.inl ⟨by omega, fun enough member => settled ⟨by omega, member⟩⟩

/-- The bytes that fill a group leave it open until the last one. -/
theorem Settles.exists_init {held : Bytes} {control : UInt8} (settled : Settles held control) :
    ∃ front last, held = front ++ [last] ∧ IsOpen front := by
  cases settled with
  | bitmap full zero =>
    obtain ⟨front, last, rfl⟩ := exists_append_singleton (List.ne_nil_of_mem zero)
    rw [List.length_append, List.length_singleton] at full
    have sizes : bitmapSize < rawSize := by decide
    exact ⟨front, last, rfl, by omega, fun enough => by omega⟩
  | run least most zeroFree => exact ⟨_, _, rfl, most, fun _ => zeroFree⟩
  | raw full zeroFree =>
    have some : held ≠ [] := List.ne_nil_of_length_pos (by rw [full]; decide)
    obtain ⟨front, last, rfl⟩ := exists_append_singleton some
    rw [List.length_append, List.length_singleton] at full
    exact ⟨front, last, rfl, by omega, fun _ member => zeroFree (List.mem_append_left _ member)⟩

/-! ### What the writer does -/

/-- The open group that holds the given bytes. -/
def OpenGroup.holding (held : Bytes) : OpenGroup := ⟨held.length, flagNumber (zeroFlags held)⟩

theorem OpenGroup.fresh_eq_holding : OpenGroup.fresh = holding [] := rfl

theorem OpenGroup.holding_append (held : Bytes) (byte : UInt8) :
    holding (held ++ [byte]) = ⟨held.length + 1, if byte = separator then
      flagNumber (zeroFlags held) + 2 ^ held.length else flagNumber (zeroFlags held)⟩ := by
  by_cases zero : byte = separator <;>
    simp [holding, flagNumber_append, zeroFlags_cons_of_ne, flagNumber, zero]

/-- While the bytes are too few for a bitmap, the group stays open unless they become enough with a
zero among them. -/
theorem push_holding_of_lt {held : Bytes} (few : held.length < bitmapSize) (byte : UInt8) :
    (OpenGroup.holding held).push byte =
      if held.length + 1 = bitmapSize ∧ separator ∈ held ++ [byte] then
        (literalsOf [byte] ++ [UInt8.ofNat (flagNumber (zeroFlags (held ++ [byte])))], .fresh)
      else (literalsOf [byte], OpenGroup.holding (held ++ [byte])) := by
  have literal : literalsOf [byte] = if byte = separator then [] else [byte] := by
    by_cases zero : byte = separator
    · rw [if_pos zero, zero]
      rfl
    · rw [if_neg zero, literalsOf_of_notMem (by simpa using fun same => zero same.symm)]
  have step : (OpenGroup.holding held).push byte =
      if held.length + 1 = bitmapSize ∧ (OpenGroup.holding (held ++ [byte])).zeros ≠ 0 then
        (literalsOf [byte] ++ [UInt8.ofNat (OpenGroup.holding (held ++ [byte])).zeros], .fresh)
      else (literalsOf [byte], OpenGroup.holding (held ++ [byte])) := by
    rw [OpenGroup.holding_append, literal]
    exact if_pos few
  have marked : (OpenGroup.holding (held ++ [byte])).zeros ≠ 0 ↔ separator ∈ held ++ [byte] :=
    (not_congr (flagNumber_zeroFlags_eq_zero_iff _)).trans Decidable.not_not
  rw [step]
  by_cases settled : held.length + 1 = bitmapSize ∧ separator ∈ held ++ [byte]
  · rw [if_pos settled, if_pos ⟨settled.1, marked.mpr settled.2⟩]
    rfl
  · rw [if_neg settled, if_neg fun both => settled ⟨both.1, marked.mp both.2⟩]

/-- A byte that leaves the group open is written if it is a literal. -/
theorem push_of_isOpen {held : Bytes} {byte : UInt8} (still : IsOpen (held ++ [byte])) :
    (OpenGroup.holding held).push byte =
      (literalsOf [byte], OpenGroup.holding (held ++ [byte])) := by
  have short := still.short
  have zeroFree := still.zeroFree
  rw [List.length_append, List.length_singleton] at short zeroFree
  by_cases few : held.length < bitmapSize
  · rw [push_holding_of_lt few, if_neg fun settled => zeroFree (by omega) settled.2]
  · have literal : byte ≠ separator := by
      rintro rfl
      exact zeroFree (by omega) (List.mem_append_right _ List.mem_cons_self)
    have bounded : held.length + 1 ≠ rawSize := by omega
    rw [OpenGroup.holding_append, if_neg literal, literalsOf_cons_of_ne literal]
    simp only [OpenGroup.push, OpenGroup.holding, few, literal, bounded, if_false, literalsOf_nil]

/-- A byte that fills the group is written if it is a literal, and the control byte after it. -/
theorem push_of_settles {held : Bytes} {byte control : UInt8}
    (settled : Settles (held ++ [byte]) control) :
    (OpenGroup.holding held).push byte = (literalsOf [byte] ++ [control], OpenGroup.fresh) := by
  generalize all : held ++ [byte] = filled at settled
  cases settled with
  | bitmap full zero =>
    subst all
    rw [List.length_append, List.length_singleton] at full
    rw [push_holding_of_lt (by omega), if_pos ⟨full, zero⟩]
  | run least most zeroFree =>
    obtain ⟨rfl, last⟩ := List.append_inj' all rfl
    obtain rfl := List.singleton_inj.mp last
    simp only [OpenGroup.push, OpenGroup.holding, Nat.not_lt.mpr least, if_false, if_true,
      OpenGroup.runControl, literalsOf_separator, literalsOf_nil, List.nil_append]
  | raw full zeroFree =>
    subst all
    rw [List.length_append, List.length_singleton] at full
    rw [List.mem_append, List.mem_singleton, not_or] at zeroFree
    have literal : byte ≠ separator := fun same => zeroFree.2 same.symm
    have many : ¬held.length < bitmapSize := by
      rw [rawSize] at full
      rw [bitmapSize]
      omega
    rw [literalsOf_cons_of_ne literal]
    simp only [OpenGroup.push, OpenGroup.holding, many, literal, full, if_false, if_true,
      literalsOf_nil, List.cons_append, List.nil_append]

/-! ### Filled groups are the groups without zeros among their literals -/

theorem ofControl_of_lt {control : UInt8} (bitmap : control < 0x80) :
    Pattern.ofControl control = .bitmap (flags control) := if_pos bitmap

theorem toNat_runControl {size : Nat} (least : bitmapSize ≤ size) (most : size < rawSize) :
    (UInt8.ofNat (0x80 + (size - bitmapSize))).toNat = 0x80 + (size - bitmapSize) := by
  rw [bitmapSize] at *
  rw [rawSize] at most
  exact UInt8.toNat_ofNat_of_lt' (Nat.lt_of_lt_of_le (m := 0xff) (by omega) (by decide))

theorem ofControl_runControl {size : Nat} (least : bitmapSize ≤ size) (most : size < rawSize) :
    Pattern.ofControl (UInt8.ofNat (0x80 + (size - bitmapSize))) = .run size := by
  have number := toNat_runControl least most
  have notBitmap : ¬UInt8.ofNat (0x80 + (size - bitmapSize)) < 0x80 := by
    rw [UInt8.lt_iff_toNat_lt, number]
    exact Nat.not_lt.mpr (Nat.le_add_right _ _)
  have notRaw : UInt8.ofNat (0x80 + (size - bitmapSize)) < 0xff := by
    rw [UInt8.lt_iff_toNat_lt, number]
    rw [bitmapSize] at *
    rw [rawSize] at most
    exact Nat.lt_of_lt_of_le (m := 0xff) (by omega) (by decide)
  rw [Pattern.ofControl, if_neg notBitmap, if_pos notRaw, number]
  exact congrArg Pattern.run (by omega)

theorem ofControl_flagNumber {held : Bytes} (full : held.length = bitmapSize) :
    Pattern.ofControl (UInt8.ofNat (flagNumber (zeroFlags held))) = .bitmap (zeroFlags held) := by
  have marks : (zeroFlags held).length = bitmapSize := (length_zeroFlags held).trans full
  rw [ofControl_of_lt (ofNat_flagNumber_lt marks), flags_ofNat_flagNumber marks]

theorem Settles.control_ne {held : Bytes} {control : UInt8} (settled : Settles held control) :
    control ≠ separator := by
  intro nothing
  have number := congrArg UInt8.toNat nothing
  cases settled with
  | bitmap full zero =>
    rw [toNat_ofNat_flagNumber ((length_zeroFlags held).trans full)] at number
    exact (flagNumber_zeroFlags_eq_zero_iff held).mp number zero
  | run least most zeroFree =>
    rw [toNat_runControl least most] at number
    exact absurd number (Nat.ne_of_gt (Nat.lt_of_lt_of_le (by decide) (Nat.le_add_right _ _)))
  | raw full zeroFree => cases nothing

theorem Settles.length_literalsOf {held : Bytes} {control : UInt8}
    (settled : Settles held control) : (literalsOf held).length = literalCount control := by
  rw [literalCount]
  cases settled with
  | bitmap full zero =>
    rw [ofControl_flagNumber full, Pattern.literalCount, count_zeroFlags]
  | run least most zeroFree =>
    rw [ofControl_runControl least most, Pattern.literalCount,
      literalsOf_append_separator zeroFree]
  | raw full zeroFree =>
    rw [literalsOf_of_notMem zeroFree]
    exact full

theorem Settles.expand_literalsOf {held : Bytes} {control : UInt8}
    (settled : Settles held control) :
    (Pattern.ofControl control).expand (literalsOf held) = held := by
  cases settled with
  | bitmap full zero =>
    rw [ofControl_flagNumber full, Pattern.expand, fillFlags_zeroFlags]
  | run least most zeroFree =>
    rw [ofControl_runControl least most, Pattern.expand, literalsOf_append_separator zeroFree]
  | raw full zeroFree => exact literalsOf_of_notMem zeroFree

def Settles.group {held : Bytes} {control : UInt8} (settled : Settles held control) : Group :=
  ⟨literalsOf held, control, settled.control_ne, settled.length_literalsOf⟩

@[simp] theorem Settles.payload_group {held : Bytes} {control : UInt8}
    (settled : Settles held control) : settled.group.payload = held := settled.expand_literalsOf

@[simp] theorem Settles.bytes_group {held : Bytes} {control : UInt8}
    (settled : Settles held control) : settled.group.bytes = literalsOf held ++ [control] := rfl

/-- Literals without zeros fill a bitmap, and are the literals of what comes out. -/
theorem settles_fillFlags {control : UInt8} {literals : Bytes} (bitmap : control < 0x80)
    (control_ne : control ≠ separator) (enough : literals.length = (flags control).count false)
    (zeroFree : separator ∉ literals) :
    Settles (fillFlags (flags control) literals) control ∧
      literalsOf (fillFlags (flags control) literals) = literals := by
  obtain ⟨sameFlags, sameLiterals⟩ := split_fillFlags enough zeroFree
  refine ⟨?_, sameLiterals⟩
  have number : flagNumber (zeroFlags (fillFlags (flags control) literals)) = control.toNat := by
    rw [sameFlags, flagNumber_flags bitmap]
  have full := congrArg List.length sameFlags
  rw [length_zeroFlags, length_flags] at full
  have zero : separator ∈ fillFlags (flags control) literals := by
    refine Decidable.not_not.mp fun absent => control_ne (UInt8.toNat_inj.mp ?_)
    rwa [← flagNumber_zeroFlags_eq_zero_iff, number] at absent
  have settled := Settles.bitmap full zero
  rwa [number, UInt8.ofNat_toNat] at settled

/-- Literals without zeros fill a run, with one zero after them. -/
theorem settles_run {control : UInt8} {literals : Bytes} (least : ¬control < 0x80)
    (most : control < 0xff) (enough : literals.length = control.toNat - 0x80 + bitmapSize)
    (zeroFree : separator ∉ literals) : Settles (literals ++ [separator]) control := by
  rw [UInt8.lt_iff_toNat_lt] at least most
  change ¬control.toNat < 0x80 at least
  change control.toNat < 0xff at most
  have short : literals.length < rawSize := by
    rw [enough, bitmapSize, rawSize]
    omega
  have settled := Settles.run (by omega) short zeroFree
  rwa [enough, Nat.add_sub_cancel, Nat.add_sub_cancel' (Nat.not_lt.mp least),
    UInt8.ofNat_toNat] at settled

/-- A group without zeros among its literals is filled by its payload, and its literals are those
of its payload. -/
theorem Group.settles {group : Group} (zeroFree : separator ∉ group.literals) :
    Settles group.payload group.control ∧ literalsOf group.payload = group.literals := by
  obtain ⟨literals, control, control_ne, enough⟩ := group
  change separator ∉ literals at zeroFree
  rw [literalCount] at enough
  rw [Group.payload]
  by_cases bitmap : control < 0x80
  · rw [ofControl_of_lt bitmap] at enough ⊢
    exact settles_fillFlags bitmap control_ne enough zeroFree
  · by_cases run : control < 0xff
    · rw [Pattern.ofControl, if_neg bitmap, if_pos run] at enough ⊢
      exact ⟨settles_run bitmap run enough zeroFree, literalsOf_append_separator zeroFree⟩
    · rw [Pattern.ofControl, if_neg bitmap, if_neg run] at enough ⊢
      have last : control = 0xff := by
        rw [UInt8.lt_iff_toNat_lt] at run
        have most := control.toNat_lt
        exact UInt8.toNat_inj.mp (Nat.le_antisymm (Nat.le_of_lt_succ most) (Nat.not_lt.mp run))
      subst last
      exact ⟨.raw enough zeroFree, literalsOf_of_notMem zeroFree⟩

end ZeroFrame.Codeword

/-
This file shows that the reader of UTF-8 inverts the encoding of strings.

A character takes one to four bytes, by the size of its code point. The reader takes the same
number of bytes off the front, by the first of them, and it refuses forms that are longer than
needed. So what it reads are exactly the encodings of characters, one after the other, and every
row of bytes is the encoding of at most one text.
-/

import Mathlib
import ZeroFrame.Text.Utf8

namespace ZeroFrame.Text.Utf8

open String (utf8EncodeChar)

/-- The bytes of a character as the reader takes them: one to four, as the first of them says. -/
inductive Form : Char → Bytes → Prop
  | one {char : Char} {first : UInt8} (ascii : first.toNat < 0x80)
      (whole : char.toNat = first.toNat) : Form char [first]
  | two {char : Char} {first second : UInt8} {low : Nat} (least : 0xc0 ≤ first.toNat)
      (most : first.toNat < 0xe0) (last : continuation? second = some low)
      (whole : char? 0x80 ((first.toNat - 0xc0) * 64 + low) = some char) :
      Form char [first, second]
  | three {char : Char} {first second third : UInt8} {middle low : Nat}
      (least : 0xe0 ≤ first.toNat) (most : first.toNat < 0xf0)
      (next : continuation? second = some middle) (last : continuation? third = some low)
      (whole : char? 0x800 (((first.toNat - 0xe0) * 64 + middle) * 64 + low) = some char) :
      Form char [first, second, third]
  | four {char : Char} {first second third fourth : UInt8} {high middle low : Nat}
      (least : 0xf0 ≤ first.toNat) (most : first.toNat < 0xf8)
      (after : continuation? second = some high) (next : continuation? third = some middle)
      (last : continuation? fourth = some low)
      (whole : char? 0x10000 ((((first.toNat - 0xf0) * 64 + high) * 64 + middle) * 64 + low) =
        some char) :
      Form char [first, second, third, fourth]

variable {byte : UInt8} {char : Char} {chars : List Char} {bytes : Bytes} {least code low : Nat}

/-! ### Parts of a form -/

/-- The comparisons of the reader, as comparisons of numbers. -/
theorem lt_iff_toNat (byte : UInt8) :
    (byte < 0x80 ↔ byte.toNat < 0x80) ∧ (byte < 0xc0 ↔ byte.toNat < 0xc0) ∧
      (byte < 0xe0 ↔ byte.toNat < 0xe0) ∧ (byte < 0xf0 ↔ byte.toNat < 0xf0) ∧
      (byte < 0xf8 ↔ byte.toNat < 0xf8) := ⟨.rfl, .rfl, .rfl, .rfl, .rfl⟩

theorem continuation?_eq_some_iff :
    continuation? byte = some low ↔ byte.toNat = 0x80 + low ∧ low < 0x40 := by
  unfold continuation?
  simp only [← UInt8.not_lt, lt_iff_toNat]
  split
  case isTrue bounds =>
    rw [Option.some.injEq]
    omega
  case isFalse outside => exact iff_of_false nofun (by omega)

theorem char?_eq_some_iff : char? least code = some char ↔ least ≤ code ∧ char.toNat = code := by
  unfold char?
  split
  case isTrue valid =>
    split
    case isTrue enough =>
      have same : (Char.ofNatAux code valid).toNat = code := UInt32.toNat_ofNatLT ..
      rw [Option.some.injEq, ← Char.toNat_inj, same]
      exact ⟨fun equal => ⟨enough, equal.symm⟩, fun both => both.2.symm⟩
    case isFalse few => exact iff_of_false nofun fun both => few both.1
  case isFalse invalid =>
    refine iff_of_false nofun ?_
    rintro ⟨_, rfl⟩
    exact invalid char.valid

theorem ofNat_eq_of_toNat {number : Nat} (same : byte.toNat = number) :
    UInt8.ofNat number = byte := by
  rw [← same, UInt8.ofNat_toNat]

/-! ### Forms and the encoding -/

/-- The bytes of a form are the encoding of its character. -/
theorem Form.encode_eq (form : Form char bytes) : utf8EncodeChar char = bytes := by
  simp only [utf8EncodeChar, Char.toNat_val]
  cases form with
  | one ascii whole => rw [if_pos (by omega), whole, UInt8.ofNat_toNat]
  | two least most last whole =>
    obtain ⟨last, small⟩ := continuation?_eq_some_iff.mp last
    obtain ⟨enough, code⟩ := char?_eq_some_iff.mp whole
    rw [if_neg (by omega), if_pos (by omega)]
    refine congrArg₂ List.cons (ofNat_eq_of_toNat ?_)
      (congrArg₂ List.cons (ofNat_eq_of_toNat ?_) rfl) <;> omega
  | three least most next last whole =>
    obtain ⟨next, medium⟩ := continuation?_eq_some_iff.mp next
    obtain ⟨last, small⟩ := continuation?_eq_some_iff.mp last
    obtain ⟨enough, code⟩ := char?_eq_some_iff.mp whole
    rw [if_neg (by omega), if_neg (by omega), if_pos (by omega)]
    refine congrArg₂ List.cons (ofNat_eq_of_toNat ?_)
      (congrArg₂ List.cons (ofNat_eq_of_toNat ?_)
        (congrArg₂ List.cons (ofNat_eq_of_toNat ?_) rfl)) <;> omega
  | four least most after next last whole =>
    obtain ⟨after, large⟩ := continuation?_eq_some_iff.mp after
    obtain ⟨next, medium⟩ := continuation?_eq_some_iff.mp next
    obtain ⟨last, small⟩ := continuation?_eq_some_iff.mp last
    obtain ⟨enough, code⟩ := char?_eq_some_iff.mp whole
    rw [if_neg (by omega), if_neg (by omega), if_neg (by omega)]
    refine congrArg₂ List.cons (ofNat_eq_of_toNat ?_)
      (congrArg₂ List.cons (ofNat_eq_of_toNat ?_)
        (congrArg₂ List.cons (ofNat_eq_of_toNat ?_)
          (congrArg₂ List.cons (ofNat_eq_of_toNat ?_) rfl))) <;> omega

/-- Every encoding of a character is a form. -/
theorem form_encode (char : Char) : Form char (utf8EncodeChar char) := by
  have number (count : Nat) : (UInt8.ofNat count).toNat = count % 256 := UInt8.toNat_ofNat'
  have tail (count : Nat) : continuation? (UInt8.ofNat (count % 64 + 128)) = some (count % 64) :=
    continuation?_eq_some_iff.mpr ⟨by rw [number]; omega, by omega⟩
  have valid : char.toNat < 0xd800 ∨ 0xdfff < char.toNat ∧ char.toNat < 0x110000 := char.valid
  simp only [utf8EncodeChar, Char.toNat_val]
  split
  case isTrue => exact .one (by rw [number]; omega) (by rw [number]; omega)
  case isFalse =>
    split
    case isTrue =>
      refine .two ?_ ?_ (tail _) (char?_eq_some_iff.mpr ?_) <;> rw [number] <;> omega
    case isFalse =>
      split
      case isTrue =>
        refine .three ?_ ?_ (tail _) (tail _) (char?_eq_some_iff.mpr ?_) <;> rw [number] <;> omega
      case isFalse =>
        refine .four ?_ ?_ (tail _) (tail _) (tail _) (char?_eq_some_iff.mpr ?_) <;>
          rw [number] <;> omega

/-! ### Forms and the reader -/

/-- A form at the front is read as its character. -/
theorem Form.read?_append (form : Form char bytes) (rest : Bytes) :
    read? (bytes ++ rest) = (read? rest).map (char :: ·) := by
  rw [read?.eq_def]
  cases form with
  | one ascii whole =>
    simp only [List.cons_append, List.nil_append, lt_iff_toNat]
    rw [if_pos ascii, ← whole, Char.ofNat_toNat]
  | two least most last whole =>
    simp only [List.cons_append, List.nil_append, lt_iff_toNat]
    rw [if_neg (by omega), if_neg (by omega), if_pos most, last]
    simp only [Option.bind_eq_bind, Option.bind_some, whole]
  | three least most next last whole =>
    simp only [List.cons_append, List.nil_append, lt_iff_toNat]
    rw [if_neg (by omega), if_neg (by omega), if_neg (by omega), if_pos most, next, last]
    simp only [Option.bind_eq_bind, Option.bind_some, whole]
  | four least most after next last whole =>
    simp only [List.cons_append, List.nil_append, lt_iff_toNat]
    rw [if_neg (by omega), if_neg (by omega), if_neg (by omega), if_neg (by omega), if_pos most,
      after, next, last]
    simp only [Option.bind_eq_bind, Option.bind_some, whole]

/-- What is read begins with a form and goes on with what is read of the rest. -/
theorem eq_flatMap_of_read? (done : read? bytes = some chars) :
    bytes = chars.flatMap utf8EncodeChar := by
  fun_induction read? bytes generalizing chars with
  | case1 =>
    obtain rfl := Option.some.inj done
    rfl
  | case2 first rest ascii inductionHypothesis =>
    obtain ⟨others, read, rfl⟩ := Option.map_eq_some_iff.mp done
    have same : (Char.ofNat first.toNat).toNat = first.toNat := by
      rw [Char.toNat_ofNat, if_pos (Or.inl (ascii.trans (by decide)))]
    have form : Form (Char.ofNat first.toNat) [first] := .one ascii same
    rw [List.flatMap_cons, form.encode_eq, ← inductionHypothesis read]
    rfl
  | case4 first _ least most second rest inductionHypothesis =>
    obtain ⟨low, last, done⟩ := Option.bind_eq_some_iff.mp done
    obtain ⟨char, whole, done⟩ := Option.bind_eq_some_iff.mp done
    obtain ⟨others, read, rfl⟩ := Option.map_eq_some_iff.mp done
    have form : Form char [first, second] := .two (Nat.not_lt.mp least) most last whole
    rw [List.flatMap_cons, form.encode_eq, ← inductionHypothesis read]
    rfl
  | case6 first _ _ least most second third rest inductionHypothesis =>
    obtain ⟨middle, next, done⟩ := Option.bind_eq_some_iff.mp done
    obtain ⟨low, last, done⟩ := Option.bind_eq_some_iff.mp done
    obtain ⟨char, whole, done⟩ := Option.bind_eq_some_iff.mp done
    obtain ⟨others, read, rfl⟩ := Option.map_eq_some_iff.mp done
    have form : Form char [first, second, third] :=
      .three (Nat.not_lt.mp least) most next last whole
    rw [List.flatMap_cons, form.encode_eq, ← inductionHypothesis read]
    rfl
  | case8 first _ _ _ least most second third fourth rest inductionHypothesis =>
    obtain ⟨high, after, done⟩ := Option.bind_eq_some_iff.mp done
    obtain ⟨middle, next, done⟩ := Option.bind_eq_some_iff.mp done
    obtain ⟨low, last, done⟩ := Option.bind_eq_some_iff.mp done
    obtain ⟨char, whole, done⟩ := Option.bind_eq_some_iff.mp done
    obtain ⟨others, read, rfl⟩ := Option.map_eq_some_iff.mp done
    have form : Form char [first, second, third, fourth] :=
      .four (Nat.not_lt.mp least) most after next last whole
    rw [List.flatMap_cons, form.encode_eq, ← inductionHypothesis read]
    rfl
  | _ => cases done

/-- A row of bytes is read as a text exactly if it is the encoding of this text. -/
theorem read?_eq_some_iff : read? bytes = some chars ↔ chars.flatMap utf8EncodeChar = bytes := by
  constructor
  · exact fun done => (eq_flatMap_of_read? done).symm
  · rintro rfl
    induction chars with
    | nil => rfl
    | cons char chars inductionHypothesis =>
      rw [List.flatMap_cons, (form_encode char).read?_append, inductionHypothesis]
      rfl

/-- The bytes of a string are those of its characters. -/
theorem toUTF8_toList (text : String) :
    text.toUTF8.data.toList = text.toList.flatMap utf8EncodeChar := by
  conv => lhs; rw [← String.ofList_toList (s := text)]
  rw [String.toUTF8_eq_toByteArray, String.toByteArray_ofList, List.utf8Encode,
    List.data_toByteArray]

/-- Bytes are read as a text exactly if they encode it. -/
theorem read?_eq_some_iff_toUTF8 {text : String} :
    read? bytes = some text.toList ↔ text.toUTF8.data.toList = bytes := by
  rw [read?_eq_some_iff, toUTF8_toList]

end ZeroFrame.Text.Utf8

/-
This file says which values a field takes that are not of its type, and as what.

The rules are listed as a relation: a value of one type converts to a value of another, if the two
stand for the same or if the one is a form of the other. Numbers are compared by their exact
values, or rounded to the nearest, and byte strings by the text that they encode, which may spell a
number or a truth value. The functions of the library, which look at the bits and the bytes, are
shown to find these conversions and no others.
-/

import ZeroFrame.Message.Acceptance
import ZeroFrame.Proofs.Text.Real
import ZeroFrame.Proofs.Text.Utf8

namespace ZeroFrame

open Number

/-! ### Conversions -/

/-- The types of values. -/
inductive Value.Kind where
  | int
  | real
  | bool
  | bytes
  | text
  deriving DecidableEq, Repr

def Value.kind : Value → Kind
  | .int _ => .int
  | .real _ => .real
  | .bool _ => .bool
  | .bytes _ => .bytes
  | .text _ => .text

namespace Value

variable {value : Value}

theorem exists_int (typed : value.kind = .int) : ∃ whole, .int whole = value := by
  cases value with
  | int whole => exact ⟨whole, rfl⟩
  | _ => cases typed

theorem exists_real (typed : value.kind = .real) : ∃ number, .real number = value := by
  cases value with
  | real number => exact ⟨number, rfl⟩
  | _ => cases typed

theorem exists_bool (typed : value.kind = .bool) : ∃ truth, .bool truth = value := by
  cases value with
  | bool truth => exact ⟨truth, rfl⟩
  | _ => cases typed

theorem exists_bytes (typed : value.kind = .bytes) : ∃ bytes, .bytes bytes = value := by
  cases value with
  | bytes bytes => exact ⟨bytes, rfl⟩
  | _ => cases typed

theorem exists_text (typed : value.kind = .text) : ∃ text, .text text = value := by
  cases value with
  | text text => exact ⟨text, rfl⟩
  | _ => cases typed

end Value

namespace Message

/-- The type of the values of a field. -/
def FieldType.kind : FieldType → Value.Kind
  | .int _ => .int
  | .real _ => .real
  | .bool => .bool
  | .bytes _ => .bytes
  | .text _ => .text

/-- The whole number for a truth value. -/
def numberOf (truth : Bool) : Int := if truth then 1 else 0

/-- The words for a truth value. -/
def wordsFor : Bool → List String
  | false => ["0", "f", "n", "no", "off", "false"]
  | true => ["1", "t", "y", "yes", "on", "true"]

/-- The small letter that a byte stands for in ASCII, or else its character. -/
def letterOf (byte : UInt8) : Char := (Char.ofNat byte.toNat).toLower

/-- The first value, put into a place for values of the type, becomes the second. -/
inductive Converts : Value.Kind → Value → Value → Prop
  /-- A value of the type is taken as it is. -/
  | same {kind : Value.Kind} {value : Value} (typed : value.kind = kind) :
      Converts kind value value
  | intOfBool (truth : Bool) : Converts .int (.bool truth) (.int (numberOf truth))
  /-- A floating-point number without a fraction is the whole number that it is equal to. -/
  | intOfReal {number : Binary64} {whole : Int} (exact : number.value? = some (.finite whole))
      (above : -2 ^ 63 < whole) (below : whole < 2 ^ 63) :
      Converts .int (.real number) (.int whole)
  /-- A text may spell a whole number in UTF-8. -/
  | intOfBytes {text : String} {whole : Int} (spelled : Text.SpellsInt text.toList whole) :
      Converts .int (.bytes text.toUTF8.data.toList) (.int whole)
  /-- A whole number is rounded to the nearest floating-point number. -/
  | realOfInt {whole : Int} {number : Binary64} (nearest : number.Nearest whole (whole < 0)) :
      Converts .real (.int whole) (.real number)
  | realOfBool {truth : Bool} {number : Binary64}
      (nearest : number.Nearest (numberOf truth) (numberOf truth < 0)) :
      Converts .real (.bool truth) (.real number)
  | realOfBytes {text : String} {number : Binary64} (spelled : Text.SpellsReal text.toList number) :
      Converts .real (.bytes text.toUTF8.data.toList) (.real number)
  | boolOfInt (truth : Bool) : Converts .bool (.int (numberOf truth)) (.bool truth)
  | boolOfReal {number : Binary64} {truth : Bool}
      (exact : number.value? = some (.finite (numberOf truth))) :
      Converts .bool (.real number) (.bool truth)
  /-- A word stands for a truth value whatever the case of its letters. -/
  | boolOfBytes {bytes : Bytes} {truth : Bool} {word : String} (known : word ∈ wordsFor truth)
      (spelled : bytes.map letterOf = word.toList) :
      Converts .bool (.bytes bytes) (.bool truth)
  /-- The UTF-8 encoding of a text is taken as the text. -/
  | textOfBytes (text : String) :
      Converts .text (.bytes text.toUTF8.data.toList) (.text text)
  /-- In a place for values of another type, a text becomes what its UTF-8 encoding becomes. -/
  | ofText {kind : Value.Kind} {text : String} {result : Value} (other : kind ≠ .text)
      (encoded : Converts kind (.bytes text.toUTF8.data.toList) result) :
      Converts kind (.text text) result

variable {kind : Value.Kind} {value result : Value} {whole : Int}
  {number : Binary64} {truth : Bool} {bytes : Bytes} {text : String}

theorem Converts.kind_eq (converts : Converts kind value result) :
    result.kind = kind := by
  induction converts with
  | same typed => exact typed
  | ofText _ _ inductionHypothesis => exact inductionHypothesis
  | _ => rfl

/-- A value of the type converts to itself only. -/
theorem converts_iff_eq (value : Value) (typed : value.kind = kind) :
    Converts kind value result ↔ value = result := by
  constructor
  · intro converts
    cases converts with
    | same => rfl
    | ofText other => exact absurd typed.symm other
    | _ => cases typed
  · rintro rfl
    exact .same typed

/-- What is kept as it is converts to itself only. -/
theorem ok_eq_ok_iff_converts {α : Type} {form : α → Value} (injective : Function.Injective form)
    {content other : α} (typed : (form content).kind = kind) :
    (.ok content : Except Rejection α) = .ok other ↔
      Converts kind (form content) (form other) := by
  rw [Except.ok.injEq, converts_iff_eq _ typed, injective.eq_iff]

/-- What is not of the type of texts takes a text for its encoding. -/
theorem converts_text_iff (other : kind ≠ .text) :
    Converts kind (.text text) result ↔ Converts kind (.bytes (encoding text)) result := by
  constructor
  · intro converts
    cases converts with
    | same typed => exact absurd typed.symm other
    | ofText _ encoded => exact encoded
  · exact .ofText other

/-! ### Numbers -/

/-- Bytes are read as a number exactly if they encode a text that spells it. -/
theorem bind_read?_eq_some_iff {α : Type} {reader : List Char → Option α}
    {spells : List Char → α → Prop} {result : α}
    (agree : ∀ text, reader text = some result ↔ spells text result) :
    (Text.Utf8.read? bytes).bind reader = some result ↔
      ∃ text : String, text.toUTF8.data.toList = bytes ∧ spells text.toList result := by
  rw [Option.bind_eq_some_iff]
  constructor
  · rintro ⟨chars, found, spelled⟩
    rw [← String.toList_ofList (l := chars)] at found spelled
    exact ⟨_, Text.Utf8.read?_eq_some_iff_toUTF8.mp found, (agree _).mp spelled⟩
  · rintro ⟨text, encoded, spelled⟩
    exact ⟨_, Text.Utf8.read?_eq_some_iff_toUTF8.mpr encoded, (agree _).mpr spelled⟩

theorem intOfBytes_eq_ok_iff :
    intOfBytes bytes = .ok whole ↔ Converts .int (.bytes bytes) (.int whole) := by
  have read : intOfBytes bytes = .ok whole ↔
      (Text.Utf8.read? bytes).bind Text.Numeral.int? = some whole := by
    unfold intOfBytes
    cases Text.Utf8.read? bytes with
    | none => exact iff_of_false nofun nofun
    | some text =>
      dsimp only
      rw [Option.bind_some]
      cases Text.Numeral.int? text with
      | none => exact iff_of_false nofun nofun
      | some other => rw [Except.ok.injEq, Option.some.injEq]
  rw [read, bind_read?_eq_some_iff fun _ => Text.int?_eq_some_iff]
  constructor
  · rintro ⟨text, rfl, spelled⟩
    exact .intOfBytes spelled
  · intro converts
    cases converts with
    | intOfBytes spelled => exact ⟨_, rfl, spelled⟩

theorem realOfBytes_eq_ok_iff :
    realOfBytes bytes = .ok number ↔ Converts .real (.bytes bytes) (.real number) := by
  have read : realOfBytes bytes = .ok number ↔
      (Text.Utf8.read? bytes).bind Text.Numeral.real? = some number := by
    unfold realOfBytes
    cases (Text.Utf8.read? bytes).bind Text.Numeral.real? with
    | none => exact iff_of_false nofun nofun
    | some other => rw [Except.ok.injEq, Option.some.injEq]
  rw [read, bind_read?_eq_some_iff fun _ => Text.real?_eq_some_iff]
  constructor
  · rintro ⟨text, rfl, spelled⟩
    exact .realOfBytes spelled
  · intro converts
    cases converts with
    | realOfBytes spelled => exact ⟨_, rfl, spelled⟩

theorem toInt_eq_ok_iff :
    toInt value = .ok whole ↔ Converts .int value (.int whole) := by
  cases value with
  | int other => exact ok_eq_ok_iff_converts (fun _ _ => Value.int.inj) rfl
  | bool truth =>
    constructor
    · rintro ⟨⟩
      exact .intOfBool truth
    · rintro ⟨⟩
      rfl
  | real number =>
    unfold toInt
    dsimp only
    constructor
    · intro done
      split at done
      case h_3 other found =>
        split at done
        case isTrue inside =>
          obtain rfl := Except.ok.inj done
          exact .intOfReal (Binary64.wholeness_eq_whole_iff.mp found) inside.1 inside.2
        case isFalse => cases done
      all_goals cases done
    · intro converts
      cases converts with
      | intOfReal exact above below =>
        rw [Binary64.wholeness_eq_whole_iff.mpr exact]
        exact if_pos ⟨above, below⟩
  | bytes bytes => exact intOfBytes_eq_ok_iff
  | text text => exact intOfBytes_eq_ok_iff.trans (converts_text_iff (by decide)).symm

theorem toReal_eq_ok_iff :
    toReal value = .ok number ↔
      Converts .real value (.real number) := by
  cases value with
  | int whole =>
    refine (Except.ok.injEq (.ofInt whole) number).to_iff.trans (Binary64.ofInt_eq_iff.trans ?_)
    constructor
    · exact .realOfInt
    · rintro ⟨⟩
      assumption
  | bool truth =>
    refine (Except.ok.injEq (.ofInt (numberOf truth)) number).to_iff.trans
      (Binary64.ofInt_eq_iff.trans ?_)
    constructor
    · exact .realOfBool
    · rintro ⟨⟩
      assumption
  | real other => exact ok_eq_ok_iff_converts (fun _ _ => Value.real.inj) rfl
  | bytes bytes => exact realOfBytes_eq_ok_iff
  | text text => exact realOfBytes_eq_ok_iff.trans (converts_text_iff (by decide)).symm

/-! ### Truth values -/

theorem truthOfInt_eq_ok_iff : truthOfInt whole = .ok truth ↔ whole = numberOf truth := by
  unfold truthOfInt
  split
  case isTrue zero =>
    subst zero
    cases truth <;> simp [numberOf]
  case isFalse nonzero =>
    split
    case isTrue one =>
      subst one
      cases truth <;> simp [numberOf]
    case isFalse notOne =>
      have other : whole ≠ numberOf truth := by cases truth <;> assumption
      split <;> exact iff_of_false nofun other

theorem toNat_charOf (byte : UInt8) : (Char.ofNat byte.toNat).toNat = byte.toNat := by
  have small : byte.toNat < 256 := byte.toNat_lt
  rw [Char.toNat_ofNat, if_pos (Or.inl (small.trans (by decide)))]

theorem isUpper_charOf_iff (byte : UInt8) :
    (Char.ofNat byte.toNat).isUpper = true ↔ 0x41 ≤ byte ∧ byte ≤ 0x5a := by
  rw [Char.isUpper, decide_eq_true_iff, ge_iff_le, UInt32.le_iff_toNat_le,
    UInt32.le_iff_toNat_le, Char.toNat_val (c := Char.ofNat byte.toNat), toNat_charOf]
  rfl

/-- The small letter of a byte is the character of the byte made small. -/
theorem letterOf_eq (byte : UInt8) : letterOf byte = Char.ofNat (lowerByte byte).toNat := by
  unfold letterOf lowerByte
  split
  case isTrue capital =>
    rw [Char.toLower_eq_of_isUpper ((isUpper_charOf_iff byte).mpr capital), toNat_charOf]
    have last : byte.toNat ≤ 0x5a := capital.2
    have room : byte.toNat + 32 < 256 := by omega
    exact congrArg Char.ofNat ((UInt8.toNat_add byte 32).trans (Nat.mod_eq_of_lt room)).symm
  case isFalse other =>
    exact Char.toLower_eq_of_not_isUpper fun upper => other ((isUpper_charOf_iff byte).mp upper)

/-- A word of ASCII characters is spelled out in small letters exactly if its bytes are. -/
theorem wordBytes_eq_iff {word : String} (ascii : ∀ char ∈ word.toList, char.toNat < 256) :
    wordBytes word = bytes.map lowerByte ↔ bytes.map letterOf = word.toList := by
  have letters : bytes.map letterOf =
      (bytes.map lowerByte).map fun byte => Char.ofNat byte.toNat := by
    rw [List.map_map]
    exact List.map_congr_left fun byte _ => letterOf_eq byte
  unfold wordBytes
  constructor
  · intro same
    rw [letters, ← same, List.map_map]
    refine (List.map_congr_left fun char member => ?_).trans (List.map_id _)
    have small : (UInt8.ofNat char.toNat).toNat = char.toNat := by
      rw [UInt8.toNat_ofNat', Nat.mod_eq_of_lt (ascii char member)]
    exact (congrArg Char.ofNat small).trans (Char.ofNat_toNat char)
  · intro same
    rw [← same, letters, List.map_map]
    refine (List.map_congr_left fun byte _ => ?_).trans (List.map_id _)
    exact (congrArg UInt8.ofNat (toNat_charOf byte)).trans UInt8.ofNat_toNat

theorem ascii_of_mem_wordsFor {word : String} (known : word ∈ wordsFor truth) :
    ∀ char ∈ word.toList, char.toNat < 256 := by
  cases truth with
  | false =>
    revert word
    simp [wordsFor]
  | true =>
    revert word
    simp [wordsFor]

theorem any_words_eq_true_iff :
    (wordsFor truth).any (wordBytes · = bytes.map lowerByte) = true ↔
      Converts .bool (.bytes bytes) (.bool truth) := by
  rw [List.any_eq_true]
  constructor
  · rintro ⟨word, known, same⟩
    have spelled := (wordBytes_eq_iff (ascii_of_mem_wordsFor known)).mp (of_decide_eq_true same)
    exact .boolOfBytes known spelled
  · intro converts
    cases converts with
    | @boolOfBytes _ _ word known spelled =>
      exact ⟨word, known,
        decide_eq_true ((wordBytes_eq_iff (ascii_of_mem_wordsFor known)).mpr spelled)⟩

/-- No word stands for both truth values. -/
theorem Converts.truth_unique {other : Bool}
    (first : Converts .bool (.bytes bytes) (.bool truth))
    (second : Converts .bool (.bytes bytes) (.bool other)) : truth = other := by
  cases first with
  | @boolOfBytes _ _ word known spelled =>
    cases second with
    | @boolOfBytes _ _ _ otherKnown otherSpelled =>
      obtain rfl := String.toList_inj.mp (spelled.symm.trans otherSpelled)
      have apart : ∀ truth other : Bool, ∀ word ∈ wordsFor truth, word ∈ wordsFor other →
        truth = other := by decide +kernel
      exact apart truth other word known otherKnown

theorem truthOfWord_eq_ok_iff :
    truthOfWord bytes = .ok truth ↔ Converts .bool (.bytes bytes) (.bool truth) := by
  have found (other : Bool) (known : (wordsFor other).any (wordBytes · = bytes.map lowerByte)) :
      .ok other = (.ok truth : Except Rejection Bool) ↔
        Converts .bool (.bytes bytes) (.bool truth) := by
    have converts : Converts .bool (.bytes bytes) (.bool other) :=
      any_words_eq_true_iff.mp known
    rw [Except.ok.injEq]
    exact ⟨fun same => same ▸ converts, converts.truth_unique⟩
  unfold truthOfWord
  dsimp only
  split
  case isTrue no => exact found false no
  case isFalse notNo =>
    split
    case isTrue yes => exact found true yes
    case isFalse notYes =>
      refine iff_of_false nofun fun converts => ?_
      have known := any_words_eq_true_iff.mpr converts
      cases truth with
      | false => exact notNo known
      | true => exact notYes known

theorem toTruth_eq_ok_iff :
    toTruth value = .ok truth ↔ Converts .bool value (.bool truth) := by
  cases value with
  | int whole =>
    refine truthOfInt_eq_ok_iff.trans ?_
    constructor
    · rintro rfl
      exact .boolOfInt truth
    · rintro ⟨⟩
      rfl
  | bool other => exact ok_eq_ok_iff_converts (fun _ _ => Value.bool.inj) rfl
  | real number =>
    unfold toTruth
    dsimp only
    constructor
    · intro done
      split at done
      case h_1 whole found =>
        split at done
        case isTrue =>
          obtain rfl := truthOfInt_eq_ok_iff.mp done
          exact .boolOfReal (Binary64.wholeness_eq_whole_iff.mp found)
        case isFalse => cases done
      case h_2 => cases done
    · intro converts
      cases converts with
      | boolOfReal exact =>
        rw [Binary64.wholeness_eq_whole_iff.mpr exact]
        dsimp only
        rw [if_pos (by cases truth <;> decide)]
        exact truthOfInt_eq_ok_iff.mpr rfl
  | bytes bytes => exact truthOfWord_eq_ok_iff
  | text text => exact truthOfWord_eq_ok_iff.trans (converts_text_iff (by decide)).symm

/-! ### Bytes and texts -/

theorem toBytes_eq_ok_iff :
    toBytes value = .ok bytes ↔ Converts .bytes value (.bytes bytes) := by
  have kept (other : Bytes) : (.ok other : Except Rejection Bytes) = .ok bytes ↔
      Converts .bytes (.bytes other) (.bytes bytes) :=
    ok_eq_ok_iff_converts (fun _ _ => Value.bytes.inj) rfl
  cases value with
  | bytes other => exact kept other
  | text text => exact (kept (encoding text)).trans (converts_text_iff (by decide)).symm
  | _ => exact iff_of_false nofun nofun

theorem toText_eq_ok_iff :
    toText value = .ok text ↔ Converts .text value (.text text) := by
  cases value with
  | text other => exact ok_eq_ok_iff_converts (fun _ _ => Value.text.inj) rfl
  | bytes bytes =>
    unfold toText
    dsimp only
    constructor
    · intro done
      split at done
      case h_1 chars read =>
        obtain rfl := Except.ok.inj done
        rw [← String.toList_ofList (l := chars)] at read
        exact Text.Utf8.read?_eq_some_iff_toUTF8.mp read ▸ .textOfBytes _
      case h_2 => cases done
    · intro converts
      cases converts with
      | textOfBytes =>
        rw [Text.Utf8.read?_eq_some_iff_toUTF8.mpr rfl]
        exact congrArg Except.ok (String.ofList_toList)
  | _ => exact iff_of_false nofun nofun

/-! ### One value at most -/

theorem Converts.unique_of {α : Type} {converted : Except Rejection α} {form : α → Value}
    (conversion : ∀ content,
      converted = .ok content ↔ Converts kind value (form content))
    (formed : ∀ result : Value, result.kind = kind → ∃ content, form content = result)
    {other : Value} (first : Converts kind value result)
    (second : Converts kind value other) : result = other := by
  obtain ⟨content, rfl⟩ := formed result first.kind_eq
  obtain ⟨otherContent, rfl⟩ := formed other second.kind_eq
  have same := ((conversion content).mpr first).symm.trans ((conversion otherContent).mpr second)
  rw [Except.ok.inj same]

/-- A value converts to at most one value of a type. -/
theorem Converts.unique {other : Value} (first : Converts kind value result)
    (second : Converts kind value other) : result = other := by
  cases kind with
  | int => exact unique_of (fun _ => toInt_eq_ok_iff) (fun _ => Value.exists_int) first second
  | real => exact unique_of (fun _ => toReal_eq_ok_iff) (fun _ => Value.exists_real) first second
  | bool => exact unique_of (fun _ => toTruth_eq_ok_iff) (fun _ => Value.exists_bool) first second
  | bytes => exact unique_of (fun _ => toBytes_eq_ok_iff) (fun _ => Value.exists_bytes) first second
  | text => exact unique_of (fun _ => toText_eq_ok_iff) (fun _ => Value.exists_text) first second

end Message

end ZeroFrame

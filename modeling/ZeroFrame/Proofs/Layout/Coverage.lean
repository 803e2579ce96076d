/-
This file shows that every text that can be read is that of a format.

The reader takes one character after the other, and what it makes of a character depends on
whether it is inside a count. There it needs a letter before the next blank and before the end.
So a text that it does not refuse falls into parts. Only the letters that formats leave out can
make it something else.
-/

import ZeroFrame.Proofs.Layout.Parsing

namespace ZeroFrame.Packing

open Layout

/-! ### Characters -/

/-- The letters of floating-point numbers and counted texts, and those that only native formats
know. -/
def otherLetters : List Char := ['e', 'f', 'd', 'p', 'n', 'N', 'P']

theorem exists_letter {native : Bool} {char : Char} {code : Code}
    (known : Code.ofLetter? native char = some code) (plain : char ∉ otherLetters) :
    ∃ letter : Letter, letter.toChar = char := by
  unfold Code.ofLetter? at known
  split at known
  case h_1 => exact ⟨.pad, rfl⟩
  case h_2 => exact ⟨.char, rfl⟩
  case h_3 => exact ⟨.truth, rfl⟩
  case h_4 => exact ⟨.whole .byte true, rfl⟩
  case h_5 => exact ⟨.whole .byte false, rfl⟩
  case h_6 => exact ⟨.whole .short true, rfl⟩
  case h_7 => exact ⟨.whole .short false, rfl⟩
  case h_8 => exact ⟨.whole .int true, rfl⟩
  case h_9 => exact ⟨.whole .int false, rfl⟩
  case h_10 => exact ⟨.whole .long true, rfl⟩
  case h_11 => exact ⟨.whole .long false, rfl⟩
  case h_12 => exact ⟨.whole .quad true, rfl⟩
  case h_13 => exact ⟨.whole .quad false, rfl⟩
  case h_20 => exact ⟨.text, rfl⟩
  case h_22 => cases known
  all_goals exact absurd (by decide) plain

theorem exists_digit {char : Char} (digit : char.isDigit = true) :
    ∃ value : Fin 10, digitChar value = char := by
  obtain ⟨least, most⟩ : 48 ≤ char.toNat ∧ char.toNat ≤ 57 := by
    unfold Char.isDigit at digit
    simpa [UInt32.le_iff_toNat_le] using digit
  refine ⟨⟨char.toNat - 48, by omega⟩, ?_⟩
  rw [digitChar, show 48 + (char.toNat - 48) = char.toNat by omega, Char.ofNat_toNat]

theorem exists_blank {char : Char} (space : Text.Hex.isBlank char = true) :
    ∃ blank : Blank, blank.toChar = char := by
  unfold Text.Hex.isBlank at space
  rcases of_decide_eq_true space with rfl | ⟨least, most⟩
  · exact ⟨.space, rfl⟩
  · rw [Char.le_def, UInt32.le_iff_toNat_le] at least most
    change 9 ≤ char.toNat at least
    change char.toNat ≤ 13 at most
    have same := char.ofNat_toNat
    interval_cases char.toNat
    · exact ⟨.tab, same⟩
    · exact ⟨.newline, same⟩
    · exact ⟨.verticalTab, same⟩
    · exact ⟨.formFeed, same⟩
    · exact ⟨.carriageReturn, same⟩

/-! ### Reading -/

/-- Whether the characters are some parts and the blanks after them. -/
def Remainder (chars : List Char) : Prop :=
  ∃ (parts : List Part) (blanks : List Blank),
    chars = parts.flatMap Part.text ++ blanks.map Blank.toChar

variable {rest : List Char}

theorem Remainder.part (remainder : Remainder rest) (digits : List (Fin 10)) (letter : Letter) :
    Remainder (digits.map digitChar ++ letter.toChar :: rest) := by
  obtain ⟨parts, blanks, rfl⟩ := remainder
  refine ⟨⟨[], digits, letter⟩ :: parts, blanks, ?_⟩
  rw [List.flatMap_cons, Part.text, List.map_nil, List.nil_append, List.append_assoc,
    List.append_assoc, List.singleton_append]

theorem Remainder.blank (remainder : Remainder rest) (blank : Blank) :
    Remainder (blank.toChar :: rest) := by
  obtain ⟨parts, blanks, rfl⟩ := remainder
  cases parts with
  | nil => exact ⟨[], blank :: blanks, rfl⟩
  | cons part parts =>
    exact ⟨⟨blank :: part.blanks, part.digits, part.letter⟩ :: parts, blanks, rfl⟩

/-- The same after a count has been read, if one has. It may go on with more digits, and a letter
must follow. -/
def RemainderAfter (count : Option Nat) (chars : List Char) : Prop :=
  match count with
  | none => Remainder chars
  | some _ =>
    ∃ (digits : List (Fin 10)) (letter : Letter) (rest : List Char),
      Remainder rest ∧ chars = digits.map digitChar ++ letter.toChar :: rest

theorem RemainderAfter.digit {number : Nat} (after : RemainderAfter (some number) rest)
    (digit : Fin 10) (count : Option Nat) : RemainderAfter count (digitChar digit :: rest) := by
  obtain ⟨digits, letter, rest, remainder, rfl⟩ := after
  cases count with
  | none => exact remainder.part (digit :: digits) letter
  | some count => exact ⟨digit :: digits, letter, rest, remainder, rfl⟩

theorem RemainderAfter.letter (remainder : Remainder rest) (letter : Letter)
    (count : Option Nat) : RemainderAfter count (letter.toChar :: rest) := by
  cases count with
  | none => exact remainder.part [] letter
  | some count => exact ⟨[], letter, rest, remainder, rfl⟩

variable {convention : Convention} {place : Nat} {items : List Item}

/-- Inside a count or not, the reader only accepts what is left of a format. -/
theorem remainder_of_readItems {chars : List Char} (plain : ∀ char ∈ chars, char ∉ otherLetters)
    {count : Option Nat} (done : readItems convention count place chars = .ok items) :
    RemainderAfter count chars := by
  induction chars generalizing count place items with
  | nil =>
    unfold readItems at done
    cases count with
    | none => exact ⟨[], [], rfl⟩
    | some count => cases done
  | cons char chars inductionHypothesis =>
    obtain ⟨own, others⟩ := List.forall_mem_cons.mp plain
    unfold readItems at done
    split at done
    case isTrue decimal =>
      obtain ⟨digit, rfl⟩ := exists_digit decimal
      dsimp only at done
      split at done
      case isTrue => cases done
      case isFalse => exact (inductionHypothesis others done).digit digit count
    case isFalse =>
      split at done
      case isTrue blank =>
        obtain ⟨fresh, space⟩ := blank
        obtain rfl := Option.isNone_iff_eq_none.mp fresh
        obtain ⟨blank, rfl⟩ := exists_blank space
        exact (inductionHypothesis others done).blank blank
      case isFalse =>
        split at done
        case h_1 => cases done
        case h_2 code known =>
          obtain ⟨letter, rfl⟩ := exists_letter known own
          dsimp only at done
          split at done
          case isTrue => cases done
          case isFalse =>
            cases read : readItems convention none _ chars with
            | error flaw =>
              rw [read] at done
              cases done
            | ok items => exact .letter (inductionHypothesis others read) letter count

/-! ### Whole texts -/

theorem exists_mark {char : Char} (known : Convention.ofChar? char = some convention) :
    ∃ mark : Mark, mark.toChar = char := by
  unfold Convention.ofChar? at known
  split at known
  case h_1 => exact ⟨.native, rfl⟩
  case h_2 => exact ⟨.host, rfl⟩
  case h_3 => exact ⟨.little, rfl⟩
  case h_4 => exact ⟨.big, rfl⟩
  case h_5 => exact ⟨.network, rfl⟩
  case h_6 => cases known

theorem exists_of_remainder {chars : List Char} (remainder : Remainder (divide chars).2) :
    ∃ format : Format, chars = format.text.toList := by
  unfold divide at remainder
  cases chars with
  | nil => exact ⟨⟨none, [], []⟩, rfl⟩
  | cons first rest =>
    cases known : Convention.ofChar? first with
    | none =>
      simp only [known] at remainder
      obtain ⟨parts, blanks, same⟩ := remainder
      exact ⟨⟨none, parts, blanks⟩, by rw [same, Format.text, String.toList_ofList]; rfl⟩
    | some convention =>
      simp only [known] at remainder
      obtain ⟨parts, blanks, rfl⟩ := remainder
      obtain ⟨mark, rfl⟩ := exists_mark known
      exact ⟨⟨some mark, parts, blanks⟩, by rw [Format.text, String.toList_ofList]; rfl⟩

theorem mem_of_mem_divide {chars : List Char} {char : Char} (member : char ∈ (divide chars).2) :
    char ∈ chars := by
  unfold divide at member
  split at member
  case h_1 => exact member
  case h_2 first rest =>
    split at member
    case h_1 => exact List.mem_cons_of_mem _ member
    case h_2 => exact member

/-- Every text without other letters that has a layout is that of a format. -/
theorem Format.exists_of_ofFormat {text : String} {layout : Layout}
    (done : ofFormat text = .ok layout) (plain : ∀ char ∈ text.toList, char ∉ otherLetters) :
    ∃ format : Format, text = format.text := by
  obtain ⟨items, read, _⟩ := of_ofFormat done
  have remainder : Remainder (divide text.toList).2 :=
    remainder_of_readItems (fun char member => plain char (mem_of_mem_divide member)) read
  obtain ⟨format, same⟩ := exists_of_remainder remainder
  exact ⟨format, String.toList_inj.mp same⟩

end ZeroFrame.Packing

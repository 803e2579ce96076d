/-
This file says which texts are taken for real numbers, and for which.

A real number is a decimal or a word after a sign. A decimal has an exact value, which is that of
its digits times a power of ten, and its number is the nearest to this value. Blanks may stand
around a real number, or else underscores within. The reader of the library is shown to accept
these texts and no others.
-/

import ZeroFrame.Proofs.Number.Scientific
import ZeroFrame.Proofs.Text.Numeral

namespace ZeroFrame.Text

open Number

/-! ### Grammar -/

/-- A mark with a power of ten, or nothing. -/
inductive Raises : List Char → Int → Prop
  | nothing : Raises [] 0
  | mark {mark : Char} {sign digits : List Char} {negative : Bool} {number : Nat}
      (marked : mark = 'e' ∨ mark = 'E') (signed : Sign sign negative)
      (writes : Writes digits number) :
      Raises (mark :: (sign ++ digits)) (if negative then -number else number)

/-- The text is a decimal with the given value. -/
inductive Scientific : List Char → ℚ → Prop
  | whole {digits raised : List Char} {mantissa : Nat} {power : Int}
      (writes : Writes digits mantissa) (raises : Raises raised power) :
      Scientific (digits ++ raised) (mantissa * 10 ^ power)
  /-- The digits after the point make the mantissa larger and the power smaller. -/
  | pointed {digits places raised : List Char} {mantissa : Nat} {power : Int}
      (writes : Writes (digits ++ places) mantissa) (raises : Raises raised power) :
      Scientific (digits ++ '.' :: (places ++ raised)) (mantissa * 10 ^ (power - places.length))

/-- The text is a real number without blanks around it or underscores in it. -/
inductive Real : List Char → Binary64 → Prop
  | decimal {sign text : List Char} {negative : Bool} {value : ℚ} {number : Binary64}
      (signed : Sign sign negative) (scientific : Scientific text value)
      (nearest : number.Nearest ((if negative then -1 else 1) * value) negative) :
      Real (sign ++ text) number
  | infinite {sign text : List Char} {negative : Bool} {number : Binary64}
      (signed : Sign sign negative)
      (word : text.map Char.toLower = "inf".toList ∨ text.map Char.toLower = "infinity".toList)
      (meant : number.meaning = .infinite negative) : Real (sign ++ text) number
  | nan {sign text : List Char} {negative : Bool} (signed : Sign sign negative)
      (word : text.map Char.toLower = "nan".toList) :
      Real (sign ++ text) ⟨if negative then 0xfff8000000000000 else 0x7ff8000000000000⟩

/-- The text is taken for a real number. -/
inductive SpellsReal : List Char → Binary64 → Prop
  | padded {before core after : List Char} {number : Binary64}
      (blankBefore : ∀ char ∈ before, Blank char) (real : Real core number)
      (blankAfter : ∀ char ∈ after, Blank char) : SpellsReal (before ++ core ++ after) number
  | gapped {text plain : List Char} {number : Binary64} (gapped : Gapped text plain)
      (real : Real plain number) : SpellsReal text number

variable {text rest plain : List Char} {char : Char} {negative : Bool} {power : Int}
  {number : Binary64} {value : ℚ}

open Integer Numeral

/-! ### Powers of ten -/

theorem Writes.unsigned {number : Nat} (writes : Writes text number) :
    ∀ char ∈ text.head?, char ≠ '-' ∧ char ≠ '+' := by
  intro char member
  have digit := writes.isDigit char (List.mem_of_mem_head? member)
  exact ⟨ne_of_isDigit digit rfl, ne_of_isDigit digit rfl⟩

theorem exponent?_eq_some_iff : exponent? text = some power ↔ Raises text power := by
  constructor
  · intro read
    cases text with
    | nil =>
      obtain rfl := Option.some.inj read
      exact .nothing
    | cons mark rest =>
      rw [exponent?] at read
      split at read
      case isFalse => cases read
      case isTrue marked =>
        obtain ⟨sign, signed, split⟩ := exists_sign rest
        generalize Integer.sign rest = parts at signed split read
        obtain ⟨negative, digits⟩ := parts
        obtain ⟨number, found, rfl⟩ := Option.map_eq_some_iff.mp read
        exact split ▸ .mark marked signed (number?_eq_some_iff.mp found)
  · intro raises
    cases raises with
    | nothing => rfl
    | mark marked signed writes =>
      rw [exponent?, if_pos marked, sign_append signed writes.unsigned]
      dsimp only
      rw [number?_eq_some_iff.mpr writes]
      rfl

/-- A power of ten begins with neither a digit nor a point. -/
theorem Raises.head?_ne (raises : Raises text power) :
    ∀ char ∈ text.head?, char.isDigit = false ∧ char ≠ '.' := by
  cases raises with
  | nothing => exact nofun
  | mark marked =>
    rintro _ ⟨⟩
    rcases marked with rfl | rfl <;> decide

/-! ### Decimals -/

theorem takeWhile_isDigit (digits : ∀ char ∈ text, char.isDigit = true)
    (left : ∀ char ∈ rest.head?, char.isDigit = false) :
    (text ++ rest).takeWhile Char.isDigit = text := by
  rw [List.takeWhile_append_of_pos digits, takeWhile_of_head? left, List.append_nil]

theorem dropWhile_isDigit (digits : ∀ char ∈ text, char.isDigit = true)
    (left : ∀ char ∈ rest.head?, char.isDigit = false) :
    (text ++ rest).dropWhile Char.isDigit = rest := by
  rw [List.dropWhile_append_of_pos digits, dropWhile_of_head? left]

theorem fraction_of_raises (raises : Raises text power) : fraction text = ([], text) := by
  unfold fraction
  split
  case h_1 => exact absurd rfl (raises.head?_ne _ rfl).2
  case h_2 => rfl

theorem decimal?_of_scientific (scientific : Scientific text value)
    (nearest : number.Nearest ((if negative then -1 else 1) * value) negative) :
    decimal? negative text = some number := by
  cases scientific with
  | whole writes raises =>
    have left := fun char member => (raises.head?_ne char member).1
    unfold decimal?
    rw [takeWhile_isDigit writes.isDigit left, dropWhile_isDigit writes.isDigit left,
      fraction_of_raises raises]
    dsimp only
    rw [List.append_nil, number?_eq_some_iff.mpr writes, Option.bind_eq_bind, Option.bind_some,
      exponent?_eq_some_iff.mpr raises, Option.bind_eq_bind, Option.bind_some, List.length_nil,
      Nat.cast_zero, sub_zero, Binary64.ofScientific_eq_iff.mpr nearest]
  | @pointed digits places raised mantissa power writes raises =>
    have left := fun char member => (raises.head?_ne char member).1
    obtain ⟨first, second⟩ := List.forall_mem_append.mp writes.isDigit
    have point : ∀ char ∈ ('.' :: (places ++ raised)).head?, char.isDigit = false := by
      rintro _ ⟨⟩
      rfl
    unfold decimal?
    rw [takeWhile_isDigit first point, dropWhile_isDigit first point, fraction,
      takeWhile_isDigit second left, dropWhile_isDigit second left]
    dsimp only
    rw [number?_eq_some_iff.mpr writes, Option.bind_eq_bind, Option.bind_some,
      exponent?_eq_some_iff.mpr raises, Option.bind_eq_bind, Option.bind_some,
      Binary64.ofScientific_eq_iff.mpr nearest]

/-- What follows the digits of a text is a fraction, or something else that is left as it is. -/
theorem fraction_cases (text : List Char) :
    (∃ places rest, fraction text = (places, rest) ∧ text = '.' :: (places ++ rest)) ∨
      fraction text = ([], text) := by
  unfold fraction
  split
  case h_1 => exact Or.inl ⟨_, _, rfl, congrArg _ List.takeWhile_append_dropWhile.symm⟩
  case h_2 => exact Or.inr rfl

theorem exists_scientific (read : decimal? negative text = some number) :
    ∃ value, Scientific text value ∧
      number.Nearest ((if negative then -1 else 1) * value) negative := by
  have whole : text.takeWhile Char.isDigit ++ text.dropWhile Char.isDigit = text :=
    List.takeWhile_append_dropWhile
  unfold decimal? at read
  generalize text.takeWhile Char.isDigit = digits at read whole
  generalize text.dropWhile Char.isDigit = tail at read whole
  subst whole
  rcases fraction_cases tail with ⟨places, rest, parts, rfl⟩ | parts
  · rw [parts] at read
    obtain ⟨mantissa, found, read⟩ := Option.bind_eq_some_iff.mp read
    obtain ⟨power, raised, read⟩ := Option.bind_eq_some_iff.mp read
    have nearest := Binary64.ofScientific_eq_iff.mp (Option.some.inj read)
    exact ⟨_, .pointed (number?_eq_some_iff.mp found) (exponent?_eq_some_iff.mp raised), nearest⟩
  · rw [parts] at read
    obtain ⟨mantissa, found, read⟩ := Option.bind_eq_some_iff.mp read
    obtain ⟨power, raised, read⟩ := Option.bind_eq_some_iff.mp read
    have nearest := Binary64.ofScientific_eq_iff.mp (Option.some.inj read)
    rw [List.length_nil, Nat.cast_zero, sub_zero] at nearest
    rw [List.append_nil] at found
    exact ⟨_, .whole (number?_eq_some_iff.mp found) (exponent?_eq_some_iff.mp raised), nearest⟩

/-- A decimal is read as the number nearest to its value. -/
theorem decimal?_eq_some_iff :
    decimal? negative text = some number ↔
      ∃ value, Scientific text value ∧
        number.Nearest ((if negative then -1 else 1) * value) negative :=
  ⟨exists_scientific, fun ⟨_, scientific, nearest⟩ => decimal?_of_scientific scientific nearest⟩

/-! ### Words -/

theorem Scientific.exists_cons (scientific : Scientific text value) :
    ∃ char rest, text = char :: rest ∧ (char.isDigit = true ∨ char = '.') := by
  have start {digits : List Char} {number : Nat} (writes : Writes digits number) :
      ∃ char rest, digits = char :: rest ∧ char.isDigit = true := by
    obtain ⟨char, rest, rfl⟩ := List.exists_cons_of_ne_nil writes.ne_nil
    exact ⟨char, rest, rfl, writes.isDigit char List.mem_cons_self⟩
  cases scientific with
  | whole writes =>
    obtain ⟨char, rest, rfl, digit⟩ := start writes
    exact ⟨_, _, rfl, .inl digit⟩
  | @pointed digits places _ _ _ writes =>
    cases digits with
    | nil => exact ⟨_, _, rfl, .inr rfl⟩
    | cons char digits => exact ⟨_, _, rfl, .inl (writes.isDigit char List.mem_cons_self)⟩

/-- Digits and points have no small form but themselves. -/
theorem toLower_eq (plain : char.isDigit = true ∨ char = '.') : char.toLower = char := by
  rcases plain with digit | rfl
  · obtain ⟨least, most⟩ : 48 ≤ char.toNat ∧ char.toNat ≤ 57 := Char.isDigit_iff_toNat.mp digit
    refine Char.toLower_eq_of_not_isUpper fun upper => ?_
    have capital : 65 ≤ char.toNat := (of_decide_eq_true upper).1
    omega
  · rfl

/-- A decimal is no word. -/
theorem Scientific.toLower_ne (scientific : Scientific text value) {first : Char}
    (letter : first.isDigit = false ∧ first ≠ '.') (rest : List Char) :
    text.map Char.toLower ≠ first :: rest := by
  obtain ⟨char, others, rfl, plain⟩ := scientific.exists_cons
  intro same
  obtain rfl : char = first := (toLower_eq plain).symm.trans (List.cons.inj same).1
  rcases plain with digit | point
  · cases digit.symm.trans letter.1
  · exact letter.2 point

theorem Scientific.unsigned (scientific : Scientific text value) :
    ∀ char ∈ text.head?, char ≠ '-' ∧ char ≠ '+' := by
  obtain ⟨char, rest, rfl, digit | rfl⟩ := scientific.exists_cons
  · rintro _ ⟨⟩
    exact ⟨ne_of_isDigit digit rfl, ne_of_isDigit digit rfl⟩
  · rintro _ ⟨⟩
    decide

/-- A word does not begin with a sign. -/
theorem unsigned_of_toLower {first : Char} (word : text.map Char.toLower = first :: rest)
    (letter : first ≠ '-' ∧ first ≠ '+') : ∀ char ∈ text.head?, char ≠ '-' ∧ char ≠ '+' := by
  obtain ⟨char, others, rfl, lower, _⟩ := List.map_eq_cons_iff.mp word
  rintro _ ⟨⟩
  constructor
  · rintro rfl
    exact letter.1 lower.symm
  · rintro rfl
    exact letter.2 lower.symm

theorem real_of_plain? (read : plain? text = some number) : Real text number := by
  obtain ⟨sign, signed, split⟩ := exists_sign text
  unfold plain? at read
  generalize Integer.sign text = parts at signed split read
  obtain ⟨negative, rest⟩ := parts
  subst split
  dsimp only at read
  split at read
  case isTrue word =>
    obtain rfl := Option.some.inj read
    cases negative with
    | true => exact .nan signed word
    | false => exact .nan signed word
  case isFalse =>
    split at read
    case isTrue word =>
      exact .infinite signed word (Binary64.infinity_eq_iff.mp (Option.some.inj read))
    case isFalse =>
      obtain ⟨value, scientific, nearest⟩ := decimal?_eq_some_iff.mp read
      exact .decimal signed scientific nearest

theorem plain?_of_real (real : Real text number) : plain? text = some number := by
  unfold plain?
  cases real with
  | decimal signed scientific nearest =>
    rw [sign_append signed scientific.unsigned]
    dsimp only
    rw [if_neg (scientific.toLower_ne (by decide) _), if_neg]
    · exact decimal?_eq_some_iff.mpr ⟨_, scientific, nearest⟩
    · rintro (word | word)
      · exact scientific.toLower_ne (by decide) _ word
      · exact scientific.toLower_ne (by decide) _ word
  | @infinite sign rest negative _ signed word meant =>
    have letter : ∃ others, rest.map Char.toLower = 'i' :: others := by
      rcases word with word | word <;> exact ⟨_, word⟩
    obtain ⟨others, begun⟩ := letter
    rw [sign_append signed (unsigned_of_toLower begun (by decide))]
    dsimp only
    have other : rest.map Char.toLower ≠ ['n', 'a', 'n'] := by
      rw [begun]
      exact nofun
    rw [if_neg other]
    exact (if_pos word).trans (congrArg some (Binary64.infinity_eq_iff.mpr meant))
  | @nan sign rest negative signed word =>
    rw [sign_append signed (unsigned_of_toLower word (by decide))]
    dsimp only
    refine (if_pos word).trans ?_
    cases negative <;> rfl

/-- A text without blanks and underscores is read as a real number exactly if it is this number. -/
theorem plain?_eq_some_iff : plain? text = some number ↔ Real text number :=
  ⟨real_of_plain?, plain?_of_real⟩

/-! ### Blanks and underscores -/

/-- A character whose small form is a letter. -/
theorem graphic_of_toLower (least : 97 ≤ char.toLower.toNat) (most : char.toLower.toNat ≤ 122) :
    Graphic char ∧ char ≠ '_' := by
  have gap : '_'.toNat = 95 := rfl
  by_cases upper : char.isUpper = true
  · obtain ⟨first, last⟩ : 65 ≤ char.toNat ∧ char.toNat ≤ 90 := by
      have bounds := of_decide_eq_true upper
      exact ⟨bounds.1, bounds.2⟩
    refine ⟨⟨by omega, by omega⟩, ?_⟩
    rintro rfl
    omega
  · rw [Char.toLower_eq_of_not_isUpper upper] at least most
    refine ⟨⟨by omega, by omega⟩, ?_⟩
    rintro rfl
    omega

/-- All characters show something, and none is an underscore. -/
def Solid (text : List Char) : Prop := ∀ char ∈ text, Graphic char ∧ char ≠ '_'

theorem Solid.append (first : Solid text) (second : Solid rest) : Solid (text ++ rest) :=
  List.forall_mem_append.mpr ⟨first, second⟩

theorem Solid.cons (first : Graphic char ∧ char ≠ '_') (others : Solid text) :
    Solid (char :: text) :=
  List.forall_mem_cons.mpr ⟨first, others⟩

theorem solid_of_isDigit (digits : ∀ char ∈ text, char.isDigit = true) : Solid text :=
  fun char member =>
    ⟨graphic_of_isDigit (digits char member), ne_of_isDigit (digits char member) rfl⟩

theorem solid_of_word {word : List Char} (same : text.map Char.toLower = word)
    (letters : word.all fun char => 97 ≤ char.toNat ∧ char.toNat ≤ 122) : Solid text := by
  subst same
  intro char member
  have bounds := List.all_eq_true.mp letters _ (List.mem_map_of_mem member)
  obtain ⟨least, most⟩ := of_decide_eq_true bounds
  exact graphic_of_toLower least most

theorem Raises.solid (raises : Raises text power) : Solid text := by
  cases raises with
  | nothing => exact List.forall_mem_nil _
  | mark marked signed writes =>
    refine .cons ?_ (Solid.append signed.graphic (solid_of_isDigit writes.isDigit))
    rcases marked with rfl | rfl <;> decide

theorem Scientific.solid (scientific : Scientific text value) : Solid text := by
  cases scientific with
  | whole writes raises => exact (solid_of_isDigit writes.isDigit).append raises.solid
  | pointed writes raises =>
    obtain ⟨first, second⟩ := List.forall_mem_append.mp writes.isDigit
    have after := (solid_of_isDigit second).append raises.solid
    exact (solid_of_isDigit first).append (after.cons (by decide))

theorem Real.solid (real : Real text number) : Solid text := by
  cases real with
  | decimal signed scientific => exact Solid.append signed.graphic scientific.solid
  | infinite signed word =>
    refine Solid.append signed.graphic ?_
    rcases word with word | word
    · exact solid_of_word word (by decide)
    · exact solid_of_word word (by decide)
  | nan signed word => exact Solid.append signed.graphic (solid_of_word word (by decide))

/-- A text with gaps is itself without them, or it has an underscore. -/
theorem Gapped.eq_or_mem (gapped : Gapped text plain) : text = plain ∨ '_' ∈ text := by
  induction gapped with
  | last => exact Or.inl rfl
  | next _ _ inductionHypothesis =>
    exact inductionHypothesis.imp (congrArg _) (List.mem_cons_of_mem _)
  | gap => exact Or.inr (List.mem_cons_of_mem _ List.mem_cons_self)

/-- An underscore is no blank, so it is still there when the blanks are gone. -/
theorem mem_trim (gap : '_' ∈ text) : '_' ∈ trim text := by
  obtain ⟨before, after, blankBefore, blankAfter, whole⟩ := exists_trim text
  have visible : ¬Blank '_' := Graphic.not_blank (by decide)
  rw [← whole, List.mem_append, List.mem_append] at gap
  rcases gap with (first | inside) | last
  · exact absurd (blankBefore _ first) visible
  · exact inside
  · exact absurd (blankAfter _ last) visible

/-- A text is read as a real number exactly if it is taken for this number. -/
theorem real?_eq_some_iff : real? text = some number ↔ SpellsReal text number := by
  unfold real?
  constructor
  · intro read
    split at read
    case h_1 other found =>
      obtain rfl := Option.some.inj read
      obtain ⟨before, after, blankBefore, blankAfter, whole⟩ := exists_trim text
      exact whole ▸ .padded blankBefore (plain?_eq_some_iff.mp found) blankAfter
    case h_2 =>
      obtain ⟨plain, found, real⟩ := Option.bind_eq_some_iff.mp read
      exact .gapped (ungap?_eq_some_iff.mp found) (plain?_eq_some_iff.mp real)
  · rintro (⟨blankBefore, real, blankAfter⟩ | ⟨gapped, real⟩)
    · rw [trim_append blankBefore (fun char member => (real.solid char member).1) blankAfter,
        plain?_eq_some_iff.mpr real]
    · rcases gapped.eq_or_mem with rfl | gap
      · have same := trim_append (List.forall_mem_nil _)
          (fun char member => (real.solid char member).1) (List.forall_mem_nil _)
        rw [List.nil_append, List.append_nil] at same
        rw [same, plain?_eq_some_iff.mpr real]
      · have nothing : plain? (trim text) = none := by
          rw [Option.eq_none_iff_forall_ne_some]
          intro other found
          exact ((plain?_eq_some_iff.mp found).solid '_' (mem_trim gap)).2 rfl
        rw [nothing, ungap?_eq_some_iff.mpr gapped]
        exact plain?_eq_some_iff.mpr real

end ZeroFrame.Text

/-
This file says which texts are taken for whole numbers, and for which.

The rules are a grammar. A whole number is made of a sign, zeros, figures and a fraction of zeros.
Underscores may stand among the zeros and between the figures, and blanks around the whole. The
reader of the library, which takes a text apart from the left, is shown to accept these texts and
no others.
-/

import ZeroFrame.Proofs.Text.Digits

namespace ZeroFrame.Text

/-! ### Parts of numbers -/

/-- The code points of blanks, each range with its first and its last. -/
def blankRanges : List (Nat × Nat) :=
  [(9, 13), (32, 32), (0x85, 0x85), (0xa0, 0xa0), (0x1680, 0x1680), (0x2000, 0x200a),
    (0x2028, 0x2029), (0x202f, 0x202f), (0x205f, 0x205f), (0x3000, 0x3000)]

def Blank (char : Char) : Prop :=
  ∃ range ∈ blankRanges, range.1 ≤ char.toNat ∧ char.toNat ≤ range.2

/-- The text of a sign, and whether it is a minus. -/
inductive Sign : List Char → Bool → Prop
  | nothing : Sign [] false
  | plus : Sign ['+'] false
  | minus : Sign ['-'] true

/-- The second text is the first without its underscores, each of which stands between two other
characters. -/
inductive Gapped : List Char → List Char → Prop
  | last {char : Char} (solid : char ≠ '_') : Gapped [char] [char]
  | next {char : Char} {text plain : List Char} (solid : char ≠ '_') (rest : Gapped text plain) :
      Gapped (char :: text) (char :: plain)
  | gap {char : Char} {text plain : List Char} (solid : char ≠ '_') (rest : Gapped text plain) :
      Gapped (char :: '_' :: text) (char :: plain)

/-! ### Whole numbers -/

/-- The zeros in front of the figures of a number: the first one may be followed by underscores as
well. -/
def Leading (zeros : List Char) : Prop :=
  zeros = [] ∨ ∃ rest, zeros = '0' :: rest ∧ ∀ char ∈ rest, char = '0' ∨ char = '_'

/-- The figures of a number with the given sign. There are at most 4300, and a minus counts as
one. -/
inductive Figures (negative : Bool) : List Char → Nat → Prop
  | of {text plain : List Char} {number : Nat} (gapped : Gapped text plain)
      (decimal : Decimal plain number)
      (few : plain.length + (if negative then 1 else 0) ≤ 4300) : Figures negative text number

/-- A fraction that is zero, or none at all. -/
def Fractionless (fraction : List Char) : Prop :=
  fraction = [] ∨ ∃ zeros, fraction = '.' :: zeros ∧ zeros ≠ [] ∧ ∀ char ∈ zeros, char = '0'

/-- The text is a whole number without blanks around it. -/
inductive Whole : List Char → Int → Prop
  | outer {sign zeros figures fraction : List Char} {negative : Bool} {number : Nat}
      (signed : Sign sign negative) (leading : Leading zeros)
      (figured : Figures negative figures number) (fractionless : Fractionless fraction) :
      Whole (sign ++ (zeros ++ figures ++ fraction)) (if negative then -number else number)
  /-- The minus may also stand after the zeros, and an underscore after the minus. -/
  | inner {sign zeros gap figures fraction : List Char} {number : Nat}
      (signed : Sign sign false) (leading : Leading zeros) (zero : zeros ≠ [])
      (gapped : gap = [] ∨ gap = ['_']) (figured : Figures true figures number)
      (fractionless : Fractionless fraction) :
      Whole (sign ++ (zeros ++ ('-' :: (gap ++ figures)) ++ fraction)) (-number)

/-- The text is taken for a whole number. -/
inductive SpellsInt : List Char → Int → Prop
  | of {before core after : List Char} {number : Int} (blankBefore : ∀ char ∈ before, Blank char)
      (whole : Whole core number) (blankAfter : ∀ char ∈ after, Blank char) :
      SpellsInt (before ++ core ++ after) number

/-! ### Blanks -/

open Integer Numeral

variable {text rest plain before core after zeros figures fraction : List Char} {char : Char}
  {negative : Bool} {number : Nat}

theorem isBlank_iff : isBlank char = true ↔ Blank char := by
  have same (other : Char) : char = other ↔ char.toNat = other.toNat := Char.toNat_inj.symm
  have below (other : Char) : char ≤ other ↔ char.toNat ≤ other.toNat := Iff.rfl
  have above (other : Char) : other ≤ char ↔ other.toNat ≤ char.toNat := Iff.rfl
  unfold isBlank Blank blankRanges
  simp only [decide_eq_true_eq, List.exists_mem_cons_iff, List.not_mem_nil, false_and,
    exists_false, or_false, same, below, above, Char.reduceToNat]
  omega

/-- A character of ASCII that shows something. -/
def Graphic (char : Char) : Prop := 33 ≤ char.toNat ∧ char.toNat ≤ 126

instance (char : Char) : Decidable (Graphic char) := inferInstanceAs (Decidable (_ ∧ _))

theorem Graphic.not_blank (graphic : Graphic char) : ¬Blank char := by
  obtain ⟨least, most⟩ := graphic
  unfold Blank blankRanges
  simp only [List.exists_mem_cons_iff, List.not_mem_nil, false_and, exists_false, or_false]
  omega

/-- Nothing is dropped from a text whose first character stays. -/
theorem dropWhile_of_head? {drops : Char → Bool} (kept : ∀ char ∈ text.head?, drops char = false) :
    text.dropWhile drops = text := by
  cases text with
  | nil => rfl
  | cons char text => exact List.dropWhile_cons_of_neg (by simpa using kept char rfl)

theorem takeWhile_of_head? {takes : Char → Bool} (left : ∀ char ∈ text.head?, takes char = false) :
    text.takeWhile takes = [] := by
  cases text with
  | nil => rfl
  | cons char text => exact List.takeWhile_cons_of_neg (by simpa using left char rfl)

/-- What is left of a text without the blanks around it. -/
theorem trim_append (blankBefore : ∀ char ∈ before, Blank char)
    (graphic : ∀ char ∈ core, Graphic char) (blankAfter : ∀ char ∈ after, Blank char) :
    trim (before ++ core ++ after) = core := by
  have solid (char : Char) (member : char ∈ core) : isBlank char = false := by
    rw [← Bool.not_eq_true, isBlank_iff]
    exact (graphic char member).not_blank
  have dropped : ∀ char ∈ after.reverse, isBlank char = true := fun char member =>
    isBlank_iff.mpr (blankAfter char (List.mem_reverse.mp member))
  unfold trim
  rw [List.append_assoc,
    List.dropWhile_append_of_pos fun char member => isBlank_iff.mpr (blankBefore char member)]
  by_cases empty : core = []
  · subst empty
    have all : after.dropWhile isBlank = [] :=
      List.dropWhile_eq_nil_iff.mpr fun char member => isBlank_iff.mpr (blankAfter char member)
    rw [List.nil_append, all]
    rfl
  · have front : (core ++ after).dropWhile isBlank = core ++ after := by
      refine dropWhile_of_head? fun char member => solid char ?_
      rw [List.head?_append_of_ne_nil _ empty] at member
      exact List.mem_of_mem_head? member
    have back : core.reverse.dropWhile isBlank = core.reverse :=
      dropWhile_of_head? fun char member =>
        solid char (List.mem_reverse.mp (List.mem_of_mem_head? member))
    rw [front, List.reverse_append, List.dropWhile_append_of_pos dropped, back,
      List.reverse_reverse]

theorem exists_trim (text : List Char) :
    ∃ before after, (∀ char ∈ before, Blank char) ∧ (∀ char ∈ after, Blank char) ∧
      before ++ trim text ++ after = text := by
  refine ⟨text.takeWhile isBlank,
    ((text.dropWhile isBlank).reverse.takeWhile isBlank).reverse, ?_, ?_, ?_⟩
  · exact fun char member => isBlank_iff.mp (List.mem_takeWhile_imp member)
  · exact fun char member => isBlank_iff.mp (List.mem_takeWhile_imp (List.mem_reverse.mp member))
  · unfold trim
    rw [List.append_assoc, ← List.reverse_append, List.takeWhile_append_dropWhile,
      List.reverse_reverse, List.takeWhile_append_dropWhile]

/-! ### Signs, gaps and figures -/

theorem sign_append {sign : List Char} (signed : Sign sign negative)
    (unsigned : ∀ char ∈ rest.head?, char ≠ '-' ∧ char ≠ '+') :
    Integer.sign (sign ++ rest) = (negative, rest) := by
  cases signed with
  | plus => rfl
  | minus => rfl
  | nothing =>
    rw [List.nil_append]
    unfold Integer.sign
    split
    case h_1 => exact absurd rfl (unsigned _ rfl).1
    case h_2 => exact absurd rfl (unsigned _ rfl).2
    case h_3 => rfl

theorem exists_sign (text : List Char) :
    ∃ sign, Sign sign (Integer.sign text).1 ∧ sign ++ (Integer.sign text).2 = text := by
  unfold Integer.sign
  split
  case h_1 => exact ⟨_, .minus, rfl⟩
  case h_2 => exact ⟨_, .plus, rfl⟩
  case h_3 => exact ⟨_, .nothing, rfl⟩

theorem Gapped.exists_cons (gapped : Gapped text plain) :
    ∃ char rest others, char ≠ '_' ∧ text = char :: rest ∧ plain = char :: others := by
  cases gapped with
  | last solid => exact ⟨_, _, _, solid, rfl, rfl⟩
  | next solid => exact ⟨_, _, _, solid, rfl, rfl⟩
  | gap solid => exact ⟨_, _, _, solid, rfl, rfl⟩

theorem ungap?_of_gapped (gapped : Gapped text plain) : ungap? text = some plain := by
  induction gapped with
  | last solid => exact if_neg solid
  | gap solid _ inductionHypothesis =>
    unfold ungap?
    rw [if_neg solid]
    exact congrArg (Option.map _) inductionHypothesis
  | next solid rest inductionHypothesis =>
    obtain ⟨second, others, _, other, rfl, _⟩ := rest.exists_cons
    unfold ungap?
    rw [if_neg solid]
    split
    case h_1 => contradiction
    case h_2 same => exact absurd (List.cons.inj same).1 other
    case h_3 => exact congrArg (Option.map _) inductionHypothesis

theorem gapped_of_ungap? (read : ungap? text = some plain) : Gapped text plain := by
  fun_induction ungap? text generalizing plain with
  | case1 => cases read
  | case2 => cases read
  | case3 first solid =>
    obtain rfl := Option.some.inj read
    exact .last solid
  | case4 first solid rest inductionHypothesis =>
    obtain ⟨others, found, rfl⟩ := Option.map_eq_some_iff.mp read
    exact .gap solid (inductionHypothesis found)
  | case5 first solid rest _ _ inductionHypothesis =>
    obtain ⟨others, found, rfl⟩ := Option.map_eq_some_iff.mp read
    exact .next solid (inductionHypothesis found)

theorem ungap?_eq_some_iff : ungap? text = some plain ↔ Gapped text plain :=
  ⟨gapped_of_ungap?, ungap?_of_gapped⟩

theorem le_room_iff {length : Nat} :
    length ≤ room negative ↔ length + (if negative then 1 else 0) ≤ 4300 := by
  unfold room digitLimit
  cases negative with
  | true =>
    rw [if_pos rfl, if_pos rfl]
    omega
  | false =>
    rw [if_neg Bool.false_ne_true, if_neg Bool.false_ne_true]
    omega

theorem figures?_eq_some_iff :
    figures? (room negative) text = some number ↔ Figures negative text number := by
  unfold figures?
  rw [Option.bind_eq_bind, Option.bind_eq_some_iff]
  constructor
  · rintro ⟨plain, found, read⟩
    split at read
    case isFalse => cases read
    case isTrue proper =>
      exact .of (ungap?_eq_some_iff.mp found) ⟨number?_eq_some_iff.mp read, proper.2⟩
        (le_room_iff.mp proper.1)
  · rintro ⟨gapped, decimal, few⟩
    refine ⟨_, ungap?_eq_some_iff.mpr gapped, ?_⟩
    rw [if_pos ⟨le_room_iff.mpr few, decimal.front⟩]
    exact number?_eq_some_iff.mpr decimal.writes

/-! ### Whole numbers -/

theorem dropFraction?_append (fractionless : Fractionless fraction)
    (pointless : ∀ char ∈ text, char ≠ '.') : dropFraction? (text ++ fraction) = some text := by
  have kept : ∀ char ∈ text, decide (char ≠ '.') = true := fun char member =>
    decide_eq_true (pointless char member)
  unfold dropFraction?
  rw [List.dropWhile_append_of_pos kept, List.takeWhile_append_of_pos kept]
  rcases fractionless with rfl | ⟨zeros, rfl, filled, zero⟩
  · rw [List.append_nil]
    rfl
  · have stop : ∀ char ∈ ('.' :: zeros).head?, decide (char ≠ '.') = false := by
      rintro _ ⟨⟩
      rfl
    have all : zeros.all (· = '0') = true :=
      List.all_eq_true.mpr fun char member => decide_eq_true (zero char member)
    rw [dropWhile_of_head? stop, takeWhile_of_head? stop, List.append_nil]
    exact if_pos ⟨filled, all⟩

theorem exists_fraction (found : dropFraction? text = some rest) :
    ∃ fraction, Fractionless fraction ∧ rest ++ fraction = text := by
  have whole : text.takeWhile (· ≠ '.') ++ text.dropWhile (· ≠ '.') = text :=
    List.takeWhile_append_dropWhile
  have first := List.head?_dropWhile_not (· ≠ '.') text
  unfold dropFraction? at found
  split at found
  case h_1 =>
    obtain rfl := Option.some.inj found
    exact ⟨[], .inl rfl, List.append_nil text⟩
  case h_2 mark zeros rest =>
    rw [rest] at first whole
    obtain rfl : mark = '.' := by simpa using first
    split at found
    case isFalse => cases found
    case isTrue proper =>
      obtain rfl := Option.some.inj found
      have zero := List.all_eq_true.mp proper.2
      have all : ∀ char ∈ zeros, char = '0' :=
        fun char member => of_decide_eq_true (zero char member)
      exact ⟨_, .inr ⟨zeros, rfl, proper.1, all⟩, whole⟩

theorem ne_of_isDigit {other : Char} (digit : char.isDigit = true)
    (unlike : other.isDigit = false) : char ≠ other := by
  rintro rfl
  cases digit.symm.trans unlike

theorem Leading.eq_or_eq (leading : Leading zeros) : ∀ char ∈ zeros, char = '0' ∨ char = '_' := by
  rcases leading with rfl | ⟨rest, rfl, fillers⟩
  · exact List.forall_mem_nil _
  · exact List.forall_mem_cons.mpr ⟨.inl rfl, fillers⟩

theorem Gapped.mem_or_eq (gapped : Gapped text plain) :
    ∀ char ∈ text, char ∈ plain ∨ char = '_' := by
  induction gapped with
  | last => exact fun _ => Or.inl
  | next _ _ inductionHypothesis =>
    refine List.forall_mem_cons.mpr ⟨.inl List.mem_cons_self, fun char member => ?_⟩
    exact (inductionHypothesis char member).imp_left (List.mem_cons_of_mem _)
  | gap _ _ inductionHypothesis =>
    refine List.forall_mem_cons.mpr ⟨.inl List.mem_cons_self, ?_⟩
    refine List.forall_mem_cons.mpr ⟨.inr rfl, fun char member => ?_⟩
    exact (inductionHypothesis char member).imp_left (List.mem_cons_of_mem _)

namespace Figures

theorem isDigit_or_eq (figured : Figures negative text number) :
    ∀ char ∈ text, char.isDigit = true ∨ char = '_' := by
  obtain ⟨gapped, decimal, _⟩ := figured
  exact fun char member => (gapped.mem_or_eq char member).imp_left (decimal.writes.isDigit char)

/-- Figures are a single zero, or they begin with another digit. -/
theorem front (figured : Figures negative text number) :
    text = ['0'] ∨ ∃ char rest, text = char :: rest ∧ char.isDigit = true ∧ char ≠ '0' := by
  obtain ⟨gapped, decimal, _⟩ := figured
  obtain ⟨char, rest, others, solid, rfl, rfl⟩ := gapped.exists_cons
  by_cases zero : char = '0'
  · subst zero
    obtain rfl : others = [] := (List.cons.inj (decimal.front rfl)).2
    cases gapped with
    | last => exact Or.inl rfl
    | next _ rest => cases rest
    | gap _ rest => cases rest
  · exact Or.inr ⟨char, rest, rfl, decimal.writes.isDigit char List.mem_cons_self, zero⟩

end Figures

theorem isFiller_iff : isFiller char = true ↔ char = '0' ∨ char = '_' := decide_eq_true_iff

/-- Zeros and underscores are dropped up to a character that is neither. -/
theorem dropWhile_isFiller (fillers : ∀ char ∈ zeros, char = '0' ∨ char = '_') (zero : char ≠ '0')
    (gap : char ≠ '_') : (zeros ++ char :: rest).dropWhile isFiller = char :: rest := by
  rw [List.dropWhile_append_of_pos fun char member => isFiller_iff.mpr (fillers char member)]
  exact List.dropWhile_cons_of_neg fun filler => (isFiller_iff.mp filler).elim zero gap

theorem dropZeros?_outer (leading : Leading zeros) (figured : Figures negative figures number) :
    dropZeros? negative (zeros ++ figures) = some (negative, figures) := by
  rcases figured.front with rfl | ⟨char, rest, rfl, digit, zero⟩
  · rcases leading with rfl | ⟨rest, rfl, fillers⟩
    · rfl
    · have all : (rest ++ ['0']).dropWhile isFiller = [] := by
        refine List.dropWhile_eq_nil_iff.mpr (List.forall_mem_append.mpr ⟨?_, ?_⟩)
        · exact fun char member => isFiller_iff.mpr (fillers char member)
        · exact List.forall_mem_singleton.mpr rfl
      rw [List.cons_append, dropZeros?, all]
      dsimp only
      rw [List.getLastD_concat]
  · have gap : char ≠ '_' := ne_of_isDigit digit rfl
    have minus : char ≠ '-' := ne_of_isDigit digit rfl
    rcases leading with rfl | ⟨rest, rfl, fillers⟩
    · rw [List.nil_append, dropZeros?.eq_2 _ _ fun _ same => zero (List.cons.inj same).1]
    · rw [List.cons_append, dropZeros?, dropWhile_isFiller fillers zero gap]
      split
      case h_1 same => cases same
      case h_2 same => exact absurd (List.cons.inj same).1 minus
      case h_3 same => exact absurd (List.cons.inj same).1 minus
      case h_4 => rfl

theorem dropZeros?_inner {gap : List Char} (leading : Leading zeros) (zero : zeros ≠ [])
    (gapped : gap = [] ∨ gap = ['_']) (figured : Figures true figures number) :
    dropZeros? false (zeros ++ '-' :: (gap ++ figures)) = some (true, figures) := by
  obtain ⟨rest, rfl, fillers⟩ := leading.resolve_left zero
  rw [List.cons_append, dropZeros?, dropWhile_isFiller fillers (by decide) (by decide)]
  rcases gapped with rfl | rfl
  · obtain ⟨char, others, rfl, gap⟩ : ∃ char others, figures = char :: others ∧ char ≠ '_' := by
      rcases figured.front with rfl | ⟨char, others, rfl, digit, _⟩
      · exact ⟨_, _, rfl, by decide⟩
      · exact ⟨_, _, rfl, ne_of_isDigit digit rfl⟩
    split
    case h_1 same => cases same
    case h_2 same => exact absurd (List.cons.inj (List.cons.inj same).2).1 gap
    case h_3 same =>
      obtain rfl := (List.cons.inj same).2
      rfl
    case h_4 other => exact absurd rfl (other _)
  · rfl

/-- The figures that are found follow zeros, or zeros and a minus. -/
theorem exists_zeros {other : Bool} (found : dropZeros? negative text = some (other, figures)) :
    (other = negative ∧ ∃ zeros, Leading zeros ∧ zeros ++ figures = text) ∨
      (negative = false ∧ other = true ∧ ∃ zeros gap, Leading zeros ∧ zeros ≠ [] ∧
        (gap = [] ∨ gap = ['_']) ∧ zeros ++ '-' :: (gap ++ figures) = text) := by
  unfold dropZeros? at found
  split at found
  case h_2 =>
    cases found
    exact Or.inl ⟨rfl, [], .inl rfl, rfl⟩
  case h_1 rest =>
    have whole : rest.takeWhile isFiller ++ rest.dropWhile isFiller = rest :=
      List.takeWhile_append_dropWhile
    have leading : Leading ('0' :: rest.takeWhile isFiller) :=
      Or.inr ⟨_, rfl, fun char member => isFiller_iff.mp (List.mem_takeWhile_imp member)⟩
    split at found
    case h_1 nothing =>
      cases found
      have all := List.dropWhile_eq_nil_iff.mp nothing
      refine Or.inl ⟨rfl, ?_⟩
      rcases List.eq_nil_or_concat rest with rfl | ⟨begun, last, rfl⟩
      · exact ⟨[], .inl rfl, rfl⟩
      · rw [List.concat_eq_append, List.getLastD_concat]
        rw [List.concat_eq_append] at all
        refine ⟨'0' :: begun, .inr ⟨begun, rfl, fun char member => ?_⟩, rfl⟩
        exact isFiller_iff.mp (all char (List.mem_append_left _ member))
    case h_2 others same =>
      split at found
      case isTrue => cases found
      case isFalse positive =>
        cases found
        refine Or.inr ⟨Bool.not_eq_true _ ▸ positive, rfl, _, ['_'], leading, List.cons_ne_nil _ _,
          .inr rfl, ?_⟩
        rw [same] at whole
        exact congrArg ('0' :: ·) whole
    case h_3 others _ same =>
      split at found
      case isTrue => cases found
      case isFalse positive =>
        cases found
        refine Or.inr ⟨Bool.not_eq_true _ ▸ positive, rfl, _, [], leading, List.cons_ne_nil _ _,
          .inl rfl, ?_⟩
        rw [same] at whole
        exact congrArg ('0' :: ·) whole
    case h_4 =>
      cases found
      exact Or.inl ⟨rfl, _, leading, congrArg ('0' :: ·) whole⟩

theorem whole_of_whole? {value : Int} (read : whole? text = some value) : Whole text value := by
  obtain ⟨sign, signed, split⟩ := exists_sign text
  unfold whole? at read
  generalize Integer.sign text = parts at signed split read
  obtain ⟨negative, rest⟩ := parts
  subst split
  obtain ⟨body, bodied, read⟩ := Option.bind_eq_some_iff.mp read
  obtain ⟨⟨other, figures⟩, found, read⟩ := Option.bind_eq_some_iff.mp read
  obtain ⟨number, figured, rfl⟩ := Option.map_eq_some_iff.mp read
  replace figured := figures?_eq_some_iff.mp figured
  obtain ⟨fraction, fractionless, rfl⟩ := exists_fraction bodied
  rcases exists_zeros found with ⟨rfl, zeros, leading, rfl⟩ |
    ⟨rfl, rfl, zeros, gap, leading, zero, gapped, rfl⟩
  · exact .outer signed leading figured fractionless
  · exact .inner signed leading zero gapped figured fractionless

/-- The text of a number without its sign begins with a digit. -/
theorem unsigned_append (leading : Leading zeros)
    (begun : zeros ≠ [] ∨ ∃ char others, rest = char :: others ∧ char.isDigit = true) :
    ∀ char ∈ (zeros ++ rest).head?, char ≠ '-' ∧ char ≠ '+' := by
  rcases leading with rfl | ⟨others, rfl, _⟩
  · obtain ⟨char, others, rfl, digit⟩ := begun.resolve_left fun some => some rfl
    rintro _ ⟨⟩
    exact ⟨ne_of_isDigit digit rfl, ne_of_isDigit digit rfl⟩
  · rintro _ ⟨⟩
    decide

theorem Figures.exists_cons (figured : Figures negative text number) :
    ∃ char rest, text = char :: rest ∧ char.isDigit = true := by
  rcases figured.front with rfl | ⟨char, rest, rfl, digit, _⟩
  · exact ⟨_, _, rfl, rfl⟩
  · exact ⟨_, _, rfl, digit⟩

/-- No point is among zeros and figures. -/
theorem pointless_append (leading : Leading zeros) (figured : Figures negative figures number) :
    ∀ char ∈ zeros ++ figures, char ≠ '.' := by
  refine List.forall_mem_append.mpr ⟨fun char member => ?_, fun char member => ?_⟩
  · rcases leading.eq_or_eq char member with rfl | rfl <;> decide
  · rcases figured.isDigit_or_eq char member with digit | rfl
    · exact ne_of_isDigit digit rfl
    · decide

theorem whole?_of_whole {value : Int} (whole : Whole text value) : whole? text = some value := by
  cases whole with
  | @outer sign zeros figures fraction negative number signed leading figured fractionless =>
    obtain ⟨char, others, begun, digit⟩ := figured.exists_cons
    have unsigned : ∀ char ∈ (zeros ++ (figures ++ fraction)).head?, char ≠ '-' ∧ char ≠ '+' :=
      unsigned_append leading (.inr ⟨char, _, congrArg (· ++ fraction) begun, digit⟩)
    rw [← List.append_assoc] at unsigned
    unfold whole?
    rw [sign_append signed unsigned]
    dsimp only
    rw [dropFraction?_append fractionless (pointless_append leading figured), Option.bind_eq_bind,
      Option.bind_some, dropZeros?_outer leading figured, Option.bind_eq_bind, Option.bind_some,
      figures?_eq_some_iff.mpr figured]
    rfl
  | @inner sign zeros gap figures fraction number signed leading zero gapped figured fractionless =>
    have unsigned : ∀ char ∈ (zeros ++ ('-' :: (gap ++ figures) ++ fraction)).head?,
        char ≠ '-' ∧ char ≠ '+' := unsigned_append leading (.inl zero)
    rw [← List.append_assoc] at unsigned
    have pointless : ∀ char ∈ zeros ++ '-' :: (gap ++ figures), char ≠ '.' := by
      have around := List.forall_mem_append.mp (pointless_append leading figured)
      refine List.forall_mem_append.mpr ⟨around.1, List.forall_mem_cons.mpr ⟨by decide, ?_⟩⟩
      refine List.forall_mem_append.mpr ⟨?_, around.2⟩
      rcases gapped with rfl | rfl
      · exact List.forall_mem_nil _
      · exact List.forall_mem_singleton.mpr (by decide)
    unfold whole?
    rw [sign_append signed unsigned]
    dsimp only
    rw [dropFraction?_append fractionless pointless, Option.bind_eq_bind, Option.bind_some,
      dropZeros?_inner leading zero gapped figured, Option.bind_eq_bind, Option.bind_some,
      figures?_eq_some_iff.mpr figured]
    rfl

theorem Sign.graphic {sign : List Char} (signed : Sign sign negative) :
    ∀ char ∈ sign, Graphic char ∧ char ≠ '_' := by
  cases signed with
  | nothing => exact List.forall_mem_nil _
  | plus => exact List.forall_mem_singleton.mpr (by decide)
  | minus => exact List.forall_mem_singleton.mpr (by decide)

theorem graphic_of_isDigit (digit : char.isDigit = true) : Graphic char := by
  obtain ⟨least, most⟩ : 48 ≤ char.toNat ∧ char.toNat ≤ 57 := Char.isDigit_iff_toNat.mp digit
  exact ⟨by omega, by omega⟩

theorem Whole.graphic {value : Int} (whole : Whole text value) : ∀ char ∈ text, Graphic char := by
  have ofLeading {zeros : List Char} (leading : Leading zeros) : ∀ char ∈ zeros, Graphic char := by
    intro char member
    rcases leading.eq_or_eq char member with rfl | rfl <;> decide
  have ofFigures {negative : Bool} {figures : List Char} {number : Nat}
      (figured : Figures negative figures number) : ∀ char ∈ figures, Graphic char := by
    intro char member
    rcases figured.isDigit_or_eq char member with digit | rfl
    · exact graphic_of_isDigit digit
    · decide
  have ofFraction {fraction : List Char} (fractionless : Fractionless fraction) :
      ∀ char ∈ fraction, Graphic char := by
    rcases fractionless with rfl | ⟨zeros, rfl, _, zero⟩
    · exact List.forall_mem_nil _
    · refine List.forall_mem_cons.mpr ⟨by decide, fun char member => ?_⟩
      rw [zero char member]
      decide
  cases whole with
  | outer signed leading figured fractionless =>
    simp only [List.forall_mem_append]
    exact ⟨fun char member => (signed.graphic char member).1,
      ⟨ofLeading leading, ofFigures figured⟩, ofFraction fractionless⟩
  | inner signed leading zero gapped figured fractionless =>
    simp only [List.forall_mem_append, List.forall_mem_cons]
    refine ⟨fun char member => (signed.graphic char member).1,
      ⟨ofLeading leading, by decide, ?_, ofFigures figured⟩, ofFraction fractionless⟩
    rcases gapped with rfl | rfl
    · exact List.forall_mem_nil _
    · exact List.forall_mem_singleton.mpr (by decide)

/-- A text is read as a whole number exactly if it is taken for this number. -/
theorem int?_eq_some_iff {value : Int} : int? text = some value ↔ SpellsInt text value := by
  constructor
  · intro read
    obtain ⟨before, after, blankBefore, blankAfter, whole⟩ := exists_trim text
    exact whole ▸ .of blankBefore (whole_of_whole? read) blankAfter
  · rintro ⟨blankBefore, whole, blankAfter⟩
    unfold int?
    rw [trim_append blankBefore whole.graphic blankAfter]
    exact whole?_of_whole whole

end ZeroFrame.Text

/-
This file shows which items are read from the text of a format.

The text is read from the left. Blanks are passed over, the digits of a count are collected,
and a letter ends an item. At each letter the reader knows how many bytes the items before it
take, and with that how many bytes of padding align it. The items are the parts of the format,
each after its padding, wherever in the text a reader begins.
-/

import ZeroFrame.Proofs.Layout.Packing
import ZeroFrame.Proofs.Layout.Refusal

namespace ZeroFrame.Packing

open Layout

/-! ### Items of a format -/

/-- What the letter says about how values are stored. -/
def Letter.code (native : Bool) : Letter → Code
  | pad => .pad
  | char => .char
  | truth => .bool
  | whole size signed => .integer (size.bytes native) signed
  | text => .text

def Part.item (native : Bool) (part : Part) : Item := ⟨part.count, part.letter.code native⟩

/-- An item of padding, unless it would be empty. -/
def padding (count : Nat) : List Item := if count = 0 then [] else [⟨count, .pad⟩]

/-- The items of some parts, the first of which comes at a place. -/
def itemsFrom (native : Bool) : Nat → List Part → List Item
  | _, [] => []
  | place, part :: parts =>
    let start := part.start native place
    padding (start - place) ++
      part.item native :: itemsFrom native (start + part.bytes native) parts

def Format.convention (format : Format) : Convention := ⟨format.endian, format.native⟩

def Format.layout (format : Format) : Layout :=
  ⟨format.convention, itemsFrom format.native 0 format.parts⟩

/-! ### Sizes and places -/

theorem Size.bytes_pos (native : Bool) (size : Size) : 0 < size.bytes native := by
  cases size <;> cases native <;> decide

theorem Letter.bytes_pos (native : Bool) (letter : Letter) : 0 < letter.bytes native := by
  cases letter with
  | whole size signed => exact size.bytes_pos native
  | _ => exact Nat.one_pos

@[simp] theorem Letter.size_code (native : Bool) (letter : Letter) :
    (letter.code native).size = letter.bytes native := by
  cases letter <;> rfl

@[simp] theorem Part.size_item (native : Bool) (part : Part) :
    (part.item native).size = part.bytes native := by
  rw [Item.size, Part.item, Letter.size_code, Part.bytes]

/-- What a place lacks to a multiple leads to the next multiple. -/
theorem add_lack {unit : Nat} (positive : 0 < unit) (place : Nat) :
    place + (unit - place % unit) % unit = alignUp place unit := by
  have whole := Nat.div_add_mod place unit
  have below := Nat.mod_lt place positive
  unfold alignUp
  rcases Nat.eq_zero_or_pos (place % unit) with aligned | past
  · have same : place + unit - 1 = unit - 1 + unit * (place / unit) := by omega
    rw [same, Nat.add_mul_div_left _ _ positive, Nat.div_eq_of_lt (by omega), Nat.zero_add, aligned,
      Nat.sub_zero, Nat.mod_self, Nat.mul_comm]
    omega
  · have next : place + unit - 1 = place % unit - 1 + unit * (place / unit + 1) := by
      rw [Nat.mul_succ]
      omega
    rw [next, Nat.add_mul_div_left _ _ positive, Nat.div_eq_of_lt (by omega), Nat.zero_add,
      Nat.mod_eq_of_lt (by omega), Nat.mul_comm, Nat.mul_succ]
    omega

/-- The gap before an item ends where the item begins. -/
theorem Part.add_gap (convention : Convention) (part : Part) (place : Nat) :
    place + (part.letter.code convention.native).gap convention place =
      part.start convention.native place := by
  rw [Code.gap, Letter.size_code, Part.start]
  split
  · exact add_lack (part.letter.bytes_pos _) place
  · rfl

/-! ### Characters -/

theorem Letter.ofLetter?_toChar (native : Bool) (letter : Letter) :
    Code.ofLetter? native letter.toChar = some (letter.code native) := by
  cases letter with
  | whole size signed => cases size <;> cases signed <;> rfl
  | _ => rfl

/-- The reader tells a letter from the digits and blanks before it, and from a mark. -/
theorem Letter.toChar_distinct (letter : Letter) :
    letter.toChar.isDigit = false ∧ Text.Hex.isBlank letter.toChar = false ∧
      Convention.ofChar? letter.toChar = none := by
  cases letter with
  | whole size signed => cases size <;> cases signed <;> exact ⟨rfl, rfl, rfl⟩
  | _ => exact ⟨rfl, rfl, rfl⟩

theorem Blank.toChar_distinct (blank : Blank) :
    blank.toChar.isDigit = false ∧ Text.Hex.isBlank blank.toChar = true ∧
      Convention.ofChar? blank.toChar = none := by
  cases blank <;> exact ⟨rfl, rfl, rfl⟩

theorem digitChar_distinct : ∀ digit : Fin 10,
    (digitChar digit).isDigit = true ∧ (digitChar digit).toNat - '0'.toNat = digit ∧
      Convention.ofChar? (digitChar digit) = none := by
  decide

/-- Only the first character of a text can be a mark. -/
theorem Part.ofChar?_of_mem_text {part : Part} {char : Char} (member : char ∈ part.text) :
    Convention.ofChar? char = none := by
  unfold Part.text at member
  rw [List.mem_append, List.mem_append, List.mem_map, List.mem_map, List.mem_singleton] at member
  rcases member with ⟨blank, _, rfl⟩ | ⟨digit, _, rfl⟩ | rfl
  · exact blank.toChar_distinct.2.2
  · exact (digitChar_distinct digit).2.2
  · exact part.letter.toChar_distinct.2.2

/-! ### Reading -/

variable {convention : Convention} {place : Nat} {rest : List Char} {items : List Item}

theorem readItems_blanks (blanks : List Blank) :
    readItems convention none place (blanks.map Blank.toChar ++ rest) =
      readItems convention none place rest := by
  induction blanks with
  | nil => rfl
  | cons blank blanks inductionHypothesis =>
    obtain ⟨plain, space, _⟩ := blank.toChar_distinct
    rw [List.map_cons, List.cons_append, readItems, plain, if_neg Bool.false_ne_true,
      if_pos ⟨rfl, space⟩, inductionHypothesis]

/-- What has been read of a count after one more of its digits. -/
def counted (count : Option Nat) (digit : Fin 10) : Option Nat :=
  some (withDigit (count.getD 0) digit)

/-- Unless the count becomes too large, digits are collected. -/
theorem of_readItems_digits {count : Option Nat} {digits : List (Fin 10)}
    (done : readItems convention count place (digits.map digitChar ++ rest) = .ok items) :
    readItems convention (digits.foldl counted count) place rest = .ok items := by
  induction digits generalizing count with
  | nil => exact done
  | cons digit digits inductionHypothesis =>
    obtain ⟨plain, value, _⟩ := digitChar_distinct digit
    rw [List.map_cons, List.cons_append, readItems, if_pos plain, value] at done
    dsimp only at done
    split at done
    · cases done
    · exact inductionHypothesis done

theorem foldl_counted (number : Nat) (digits : List (Fin 10)) :
    digits.foldl counted (some number) = some (digits.foldl withDigit number) := by
  induction digits generalizing number with
  | nil => rfl
  | cons digit digits inductionHypothesis => exact inductionHypothesis _

theorem Part.getD_foldl_counted (part : Part) :
    (part.digits.foldl counted none).getD 1 = part.count := by
  unfold Part.count decimal
  cases part.digits with
  | nil => rfl
  | cons digit digits =>
    rw [if_neg (List.cons_ne_nil _ _), List.foldl_cons, List.foldl_cons]
    exact congrArg (·.getD 1) (foldl_counted _ digits)

/-- What a reader that does not fail makes of the text of an item. -/
theorem of_readItems_part {part : Part}
    (done : readItems convention none place (part.text ++ rest) = .ok items) :
    let start := part.start convention.native place
    ∃ others,
      readItems convention none (start + part.bytes convention.native) rest = .ok others ∧
        items = padding (start - place) ++ part.item convention.native :: others := by
  intro start
  have gap := part.add_gap convention place
  unfold Part.text at done
  rw [List.append_assoc, List.append_assoc, readItems_blanks] at done
  have letter := of_readItems_digits done
  obtain ⟨plain, solid, _⟩ := part.letter.toChar_distinct
  have whole : (⟨(part.digits.foldl counted none).getD 1,
      part.letter.code convention.native⟩ : Item) = part.item convention.native :=
    congrArg (Item.mk · _) part.getD_foldl_counted
  rw [List.singleton_append, readItems, plain, if_neg Bool.false_ne_true, solid,
    if_neg (fun both => Bool.false_ne_true both.2), part.letter.ofLetter?_toChar] at letter
  dsimp only at letter
  rw [whole, gap, Part.size_item] at letter
  split at letter
  · cases letter
  · cases read : readItems convention none (start + part.bytes convention.native) rest with
    | error flaw =>
      rw [read] at letter
      cases letter
    | ok others =>
      rw [read] at letter
      refine ⟨others, rfl, (Except.ok.inj letter).symm.trans ?_⟩
      have missing : (part.letter.code convention.native).gap convention place = start - place := by
        omega
      rw [missing, padding]
      split <;> rfl

theorem eq_itemsFrom_of_readItems {parts : List Part} {blanks : List Blank}
    (done : readItems convention none place
      (parts.flatMap Part.text ++ blanks.map Blank.toChar) = .ok items) :
    items = itemsFrom convention.native place parts := by
  induction parts generalizing place items with
  | nil =>
    rw [List.flatMap_nil, List.nil_append, ← List.append_nil (blanks.map _),
      readItems_blanks] at done
    exact (Except.ok.inj done).symm
  | cons part parts inductionHypothesis =>
    rw [List.flatMap_cons, List.append_assoc] at done
    obtain ⟨others, read, rfl⟩ := of_readItems_part done
    rw [itemsFrom, inductionHypothesis read]

/-! ### Whole formats -/

namespace Format

theorem divide_text (format : Format) :
    divide format.text.toList = (format.convention,
      format.parts.flatMap Part.text ++ format.blanks.map Blank.toChar) := by
  obtain ⟨mark, parts, blanks⟩ := format
  unfold text convention endian native
  rw [String.toList_ofList]
  cases mark with
  | some mark => cases mark <;> rfl
  | none =>
    change divide (parts.flatMap Part.text ++ blanks.map Blank.toChar) = (standard, _)
    cases body : parts.flatMap Part.text ++ blanks.map Blank.toChar with
    | nil => rfl
    | cons first rest =>
      have member : first ∈ parts.flatMap Part.text ++ blanks.map Blank.toChar :=
        body ▸ List.mem_cons_self
      have unmarked : Convention.ofChar? first = none := by
        rcases List.mem_append.mp member with inside | after
        · obtain ⟨part, _, inside⟩ := List.mem_flatMap.mp inside
          exact Part.ofChar?_of_mem_text inside
        · obtain ⟨blank, _, rfl⟩ := List.mem_map.mp after
          exact blank.toChar_distinct.2.2
      unfold divide
      simp only [unmarked]

/-- A format that has a layout has the layout of its parts. -/
theorem eq_layout_of_ofFormat {format : Format} {layout : Layout}
    (done : ofFormat format.text = .ok layout) : layout = format.layout := by
  obtain ⟨items, read, rfl⟩ := of_ofFormat done
  rw [divide_text] at read ⊢
  rw [eq_itemsFrom_of_readItems read]
  rfl

end Format

end ZeroFrame.Packing

/-
This file shows that a layout takes out of a body what was written into it.

It goes from small to large: a number from its digits, a value from its bytes, the values of
an item from the bytes of the item. Every item has exactly the bytes that the layout takes for
it, so a body is taken apart where it was put together, and the bytes in between, those of
padding and alignment, are passed over whatever they are.
-/

import ZeroFrame.Proofs.Bytes.Numeral
import ZeroFrame.Proofs.Layout.Parsing
import ZeroFrame.Proofs.Message.Reading

namespace ZeroFrame.Packing

open Layout

/-! ### Numbers -/

@[simp] theorem length_digits (endian : Endian) (width : Nat) (number : Int) :
    (digits endian width number).length = width := by
  cases endian with
  | little => exact Bytes.length_toLittleEndian ..
  | big => exact (List.length_reverse ..).trans (Bytes.length_toLittleEndian ..)

theorem natOf_digits (endian : Endian) (width : Nat) (number : Int) :
    natOf endian (digits endian width number) = (number % 2 ^ (8 * width)).toNat := by
  have fits : (number % 2 ^ (8 * width)).toNat < 256 ^ width := by
    have below : number % 2 ^ (8 * width) < 2 ^ (8 * width) :=
      Int.emod_lt_of_pos _ (by positivity)
    rw [Int.toNat_lt' (by positivity), show (256 : Nat) = 2 ^ 8 from rfl, ← pow_mul]
    exact_mod_cast below
  have least := Bytes.ofLittleEndian_toLittleEndian_of_lt fits
  cases endian with
  | little => exact least
  | big =>
    unfold natOf digits
    rw [List.reverse_reverse]
    exact least

/-- A number in range is what its two's complement stands for. -/
theorem signedOf_toNat_emod {bits : Nat} (positive : 0 < bits) {number : Int}
    (least : -2 ^ (bits - 1) ≤ number) (most : number < 2 ^ (bits - 1)) :
    signedOf bits (number % 2 ^ bits).toNat = number := by
  have half : (2 : Int) ^ bits = 2 * 2 ^ (bits - 1) := by
    rw [← pow_succ', Nat.sub_add_cancel positive]
  have limit : ((Nat.pow 2 bits : Nat) : Int) = 2 ^ bits := Nat.cast_pow 2 bits
  unfold signedOf
  rcases lt_or_ge number 0 with negative | natural
  · have wrapped : number % 2 ^ bits = number + 2 ^ bits := by
      rw [← Int.add_emod_right, Int.emod_eq_of_lt] <;> omega
    rw [wrapped, if_neg] <;> omega
  · have same : number % 2 ^ bits = number := Int.emod_eq_of_lt natural (by omega)
    rw [same, if_pos] <;> omega

/-! ### Values -/

variable {native : Bool} {values : List Value} {letter : Letter} {count : Nat} {value : Value}

theorem Letter.length_write (endian : Endian) (fits : letter.Fits native count value)
    (other : letter ≠ .text) :
    (letter.write native endian value).length = letter.bytes native := by
  cases fits with
  | char single => exact single
  | truth value => rfl
  | whole range => exact length_digits ..
  | text sized => exact absurd rfl other

theorem Letter.read?_write (endian : Endian) (fits : letter.Fits native count value) :
    (letter.code native).read? endian (letter.write native endian value) = some value := by
  cases fits with
  | char single => rfl
  | truth value => cases endian <;> cases value <;> rfl
  | @whole size signed number range =>
    unfold write code Code.read?
    dsimp only
    rw [natOf_digits]
    cases signed with
    | true =>
      have positive : 0 < 8 * size.bytes native := Nat.mul_pos (by decide) (size.bytes_pos native)
      rw [if_pos rfl, signedOf_toNat_emod positive range.1 range.2]
    | false =>
      rw [if_neg Bool.false_ne_true, Int.emod_eq_of_lt range.1 range.2, Int.toNat_of_nonneg range.1]
  | text sized => rfl

/-! ### Items -/

@[simp] theorem length_fill (filler : Nat → UInt8) (place count : Nat) :
    (fill filler place count).length = count := by
  rw [fill, List.length_map, List.length_range]

/-- Bytes that were written in pieces of one width are taken apart into these. -/
theorem pieces_flatMap {write : Value → Bytes} {width : Nat}
    (sized : ∀ value ∈ values, (write value).length = width) :
    pieces width values.length (values.flatMap write) = values.map write := by
  induction values with
  | nil => rfl
  | cons value values inductionHypothesis =>
    obtain ⟨first, others⟩ := List.forall_mem_cons.mp sized
    rw [List.length_cons, pieces, List.flatMap_cons, List.take_left' first, List.drop_left' first,
      inductionHypothesis others, List.map_cons]

theorem length_flatMap_write {write : Value → Bytes} {width : Nat}
    (sized : ∀ value ∈ values, (write value).length = width) :
    (values.flatMap write).length = values.length * width := by
  rw [List.length_flatMap, List.map_congr_left sized, List.map_const', List.sum_replicate,
    smul_eq_mul]

theorem filterMap_map_write {write : Value → Bytes} {read? : Bytes → Option Value}
    (inverse : ∀ value ∈ values, read? (write value) = some value) :
    (values.map write).filterMap read? = values := by
  rw [List.filterMap_map]
  exact (List.filterMap_congr inverse).trans List.filterMap_some

/-- The values of an item of text are one byte string of the length that the count says. -/
theorem exists_of_text (arity : values.length = 1)
    (fits : ∀ value ∈ values, Letter.text.Fits native count value) :
    ∃ bytes : Bytes, bytes.length = count ∧ values = [.bytes bytes] := by
  obtain ⟨value, rfl⟩ := List.length_eq_one_iff.mp arity
  cases fits value List.mem_cons_self with
  | text sized => exact ⟨_, sized, rfl⟩

variable {endian : Endian} {filler : Nat → UInt8}

namespace Part

variable {part : Part} {place : Nat}

theorem pack_of_ne (valued : part.letter ≠ .pad) :
    part.pack native endian filler place values =
      values.flatMap (part.letter.write native endian) := by
  unfold pack
  cases letter : part.letter with
  | pad => exact absurd letter valued
  | _ => rfl

theorem arity_of_ne (valued : part.letter ≠ .pad) (other : part.letter ≠ .text) :
    part.arity = part.count := by
  unfold arity
  cases letter : part.letter with
  | pad => exact absurd letter valued
  | text => exact absurd letter other
  | _ => rfl

theorem pieces_item (valued : part.letter ≠ .pad) (other : part.letter ≠ .text) (bytes : Bytes) :
    (part.item native).pieces bytes = pieces (part.letter.bytes native) part.count bytes := by
  unfold item Item.pieces
  cases letter : part.letter with
  | pad => exact absurd letter valued
  | text => exact absurd letter other
  | _ => rfl

theorem length_pack (endian : Endian) (filler : Nat → UInt8) (place : Nat)
    (arity : values.length = part.arity)
    (fits : ∀ value ∈ values, part.letter.Fits native part.count value) :
    (part.pack native endian filler place values).length = part.bytes native := by
  by_cases blank : part.letter = .pad
  · unfold pack bytes
    rw [blank]
    exact (length_fill ..).trans (Nat.mul_one _).symm
  · rw [pack_of_ne blank]
    by_cases long : part.letter = .text
    · unfold Part.arity at arity
      rw [long] at arity fits
      obtain ⟨text, sized, rfl⟩ := exists_of_text arity fits
      unfold bytes
      rw [long, List.flatMap_singleton]
      exact sized.trans (Nat.mul_one _).symm
    · have sized := fun value member => Letter.length_write endian (fits value member) long
      rw [length_flatMap_write sized, arity, arity_of_ne blank long, bytes]

/-- An item takes the values out of its bytes that were written there. -/
theorem unpack_pack (arity : values.length = part.arity)
    (fits : ∀ value ∈ values, part.letter.Fits native part.count value) :
    (part.item native).unpack endian (part.pack native endian filler place values) = values := by
  by_cases blank : part.letter = .pad
  · unfold Part.arity at arity
    rw [blank] at arity
    rw [List.eq_nil_of_length_eq_zero arity]
    unfold item Item.unpack Item.pieces
    rw [blank]
    rfl
  · rw [pack_of_ne blank]
    by_cases long : part.letter = .text
    · unfold Part.arity at arity
      rw [long] at arity fits
      obtain ⟨text, sized, rfl⟩ := exists_of_text arity fits
      unfold item Item.unpack Item.pieces
      rw [long, List.flatMap_singleton]
      exact congrArg (fun piece => [Value.bytes piece]) (List.take_of_length_le sized.le)
    · have sized := fun value member => Letter.length_write endian (fits value member) long
      rw [Item.unpack, pieces_item blank long, ← arity_of_ne blank long, ← arity,
        pieces_flatMap sized]
      exact filterMap_map_write fun value member => Letter.read?_write endian (fits value member)

end Part

/-! ### Bodies -/

theorem unpackItems_cons_append {item : Item} {bytes : Bytes} (sized : bytes.length = item.size)
    (items : List Item) (others : Bytes) :
    unpackItems endian (item :: items) (bytes ++ others) =
      item.unpack endian bytes ++ unpackItems endian items others := by
  rw [unpackItems, unpack_item_append endian sized.ge, List.drop_left' sized]

/-- The bytes that align an item are passed over. -/
theorem unpackItems_padding (count place : Nat) (items : List Item) (others : Bytes) :
    unpackItems endian (padding count ++ items) (fill filler place count ++ others) =
      unpackItems endian items others := by
  unfold padding
  split
  case isTrue nothing =>
    subst nothing
    rfl
  case isFalse =>
    have sized : (fill filler place count).length = (Item.mk count .pad).size :=
      (length_fill ..).trans (Nat.mul_one _).symm
    rw [List.singleton_append, unpackItems_cons_append sized]
    rfl

theorem sizes_padding (count : Nat) (items : List Item) :
    ((padding count ++ items).map Item.size).foldr (· + ·) 0 =
      count + (items.map Item.size).foldr (· + ·) 0 := by
  unfold padding
  split
  case isTrue nothing => rw [nothing, List.nil_append, Nat.zero_add]
  case isFalse =>
    rw [List.singleton_append, List.map_cons, List.foldr_cons]
    exact congrArg (· + _) (Nat.mul_one count)

variable {parts : List Part}

/-- Written values take as many bytes as the items, wherever they begin. -/
theorem length_packFrom (place : Nat) (admitted : AdmitsFrom native parts values) :
    (packFrom native endian filler place parts values).length =
      ((itemsFrom native place parts).map Item.size).foldr (· + ·) 0 := by
  induction parts generalizing place values with
  | nil => rfl
  | cons part parts inductionHypothesis =>
    obtain ⟨enough, fits, others⟩ := admitted
    have sized := part.length_pack endian filler (part.start native place)
      (List.length_take_of_le enough) fits
    rw [packFrom, itemsFrom, List.length_append, List.length_append, length_fill, sized,
      inductionHypothesis _ others, sizes_padding, List.map_cons, List.foldr_cons, Part.size_item]

/-- What was written for some values is read back as these values, wherever it begins. -/
theorem unpackItems_packFrom (place : Nat) (admitted : AdmitsFrom native parts values) :
    unpackItems endian (itemsFrom native place parts)
      (packFrom native endian filler place parts values) = values := by
  induction parts generalizing place values with
  | nil => exact admitted.symm
  | cons part parts inductionHypothesis =>
    obtain ⟨enough, fits, others⟩ := admitted
    have arity := List.length_take_of_le enough
    have sized := part.length_pack endian filler (part.start native place) arity fits
    rw [← Part.size_item] at sized
    rw [packFrom, itemsFrom, unpackItems_padding, unpackItems_cons_append sized,
      Part.unpack_pack arity fits, inductionHypothesis _ others, List.take_append_drop]

namespace Format

variable {format : Format}

theorem length_pack (admitted : format.Admits values) :
    (format.pack filler values).length = format.layout.size :=
  length_packFrom 0 admitted

/-- A layout reads the values back that were written in its format. -/
theorem unpack_pack (admitted : format.Admits values) :
    format.layout.unpack (format.pack filler values) = values :=
  unpackItems_packFrom 0 admitted

end Format

end ZeroFrame.Packing

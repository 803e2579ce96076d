/-
This file takes a layout apart with a reader that can run out of bytes.

The reader of the library is total: it makes pieces of whatever bytes there are, short ones if
there are too few. The strict reader cuts a piece off only if all of its bytes are there, and it
hands the rest on to the next item. It gets through a layout exactly if there are as many bytes as
the size of the layout, and then the two readers agree. So the values of a layout are never made
of short pieces where the size has been checked, and there are always the same number of them.
-/

import ZeroFrame.Proofs.Message.Reading

namespace ZeroFrame.Layout

/-! ### The strict reader -/

/-- A piece of bytes at the front and the bytes after it, unless there are too few. -/
def cut? (width : Nat) (bytes : Bytes) : Option (Bytes × Bytes) :=
  if width ≤ bytes.length then some (bytes.take width, bytes.drop width) else none

/-- The first `count` pieces of `width` bytes each, and the bytes after them. -/
def pieces? (width : Nat) : Nat → Bytes → Option (List Bytes × Bytes)
  | 0, bytes => some ([], bytes)
  | count + 1, bytes => do
    let (piece, bytes) ← cut? width bytes
    let (pieces, bytes) ← pieces? width count bytes
    return (piece :: pieces, bytes)

/-- The pieces of an item, and the bytes after it. -/
def Item.pieces? (item : Item) (bytes : Bytes) : Option (List Bytes × Bytes) :=
  match item.code with
  | .pad => (cut? item.count bytes).map fun (_, bytes) => ([], bytes)
  | .text => (cut? item.count bytes).map fun (piece, bytes) => ([piece], bytes)
  | .counted => (cut? item.count bytes).map fun (piece, bytes) => ([piece], bytes)
  | code => Layout.pieces? code.size item.count bytes

/-- The values of items that follow each other, and the bytes after them. -/
def unpackItems? (endian : Endian) : List Item → Bytes → Option (List Value × Bytes)
  | [], bytes => some ([], bytes)
  | item :: items, bytes => do
    let (pieces, bytes) ← item.pieces? bytes
    let (values, bytes) ← unpackItems? endian items bytes
    return (pieces.filterMap (item.code.read? endian) ++ values, bytes)

/-- The values of a layout, unless the bytes end within it. -/
def unpack? (layout : Layout) (bytes : Bytes) : Option (List Value) :=
  (unpackItems? layout.convention.endian layout.items bytes).map Prod.fst

/-! ### Agreement of the two readers -/

theorem pieces?_eq (width count : Nat) (bytes : Bytes) :
    pieces? width count bytes =
      if count * width ≤ bytes.length then
        some (pieces width count bytes, bytes.drop (count * width))
      else none := by
  induction count generalizing bytes with
  | zero => simp only [pieces?, pieces, Nat.zero_mul, Nat.zero_le, if_true, List.drop_zero]
  | succ count inductionHypothesis =>
    rw [pieces?, cut?, Nat.succ_mul]
    by_cases first : width ≤ bytes.length
    · have others : count * width ≤ (bytes.drop width).length ↔
          count * width + width ≤ bytes.length := by
        rw [List.length_drop]
        omega
      rw [if_pos first]
      simp only [Option.bind_eq_bind, Option.bind_some, inductionHypothesis, others]
      split
      case isTrue =>
        rw [Option.bind_some, List.drop_drop, Nat.add_comm width, pieces]
        rfl
      case isFalse => rfl
    · rw [if_neg first, if_neg (by omega)]
      rfl

theorem Item.pieces?_eq (item : Item) (bytes : Bytes) :
    item.pieces? bytes =
      if item.size ≤ bytes.length then some (item.pieces bytes, bytes.drop item.size)
      else none := by
  obtain ⟨count, code⟩ := item
  have single : count * 1 = count := Nat.mul_one count
  cases code with
  | pad | text | counted =>
    simp only [Item.pieces?, Item.pieces, Item.size, Code.size, cut?, single]
    split <;> rfl
  | char | bool | integer | real => exact Layout.pieces?_eq ..

theorem unpackItems?_eq (endian : Endian) (items : List Item) (bytes : Bytes) :
    unpackItems? endian items bytes =
      if (items.map Item.size).foldr (· + ·) 0 ≤ bytes.length then
        some (unpackItems endian items bytes,
          bytes.drop ((items.map Item.size).foldr (· + ·) 0))
      else none := by
  induction items generalizing bytes with
  | nil => simp only [unpackItems?, unpackItems, List.map_nil, List.foldr_nil, Nat.zero_le,
      if_true, List.drop_zero]
  | cons item items inductionHypothesis =>
    rw [unpackItems?, Item.pieces?_eq, List.map_cons, List.foldr_cons]
    by_cases first : item.size ≤ bytes.length
    · have others : (items.map Item.size).foldr (· + ·) 0 ≤ (bytes.drop item.size).length ↔
          item.size + (items.map Item.size).foldr (· + ·) 0 ≤ bytes.length := by
        rw [List.length_drop]
        omega
      rw [if_pos first]
      simp only [Option.bind_eq_bind, Option.bind_some, inductionHypothesis, others]
      split
      case isTrue =>
        rw [Option.bind_some, List.drop_drop, unpackItems]
        rfl
      case isFalse => rfl
    · rw [if_neg first, if_neg (by omega)]
      rfl

/-- The strict reader runs out of bytes exactly if there are fewer than the size of the layout. -/
theorem unpack?_eq (layout : Layout) (bytes : Bytes) :
    layout.unpack? bytes =
      if layout.size ≤ bytes.length then some (layout.unpack bytes) else none := by
  rw [unpack?, unpackItems?_eq]
  by_cases enough : layout.size ≤ bytes.length
  · rw [if_pos enough]
    exact congrArg (Option.map Prod.fst) (if_pos enough)
  · rw [if_neg enough]
    exact congrArg (Option.map Prod.fst) (if_neg enough)

theorem unpack?_of_le {layout : Layout} {bytes : Bytes} (enough : layout.size ≤ bytes.length) :
    layout.unpack? bytes = some (layout.unpack bytes) := by
  rw [unpack?_eq, if_pos enough]

end ZeroFrame.Layout

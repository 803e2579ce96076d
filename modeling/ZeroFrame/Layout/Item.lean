/-
This file describes the items of a fixed-size byte layout.

A layout stores values one after another. Each item has a letter for how its values are
stored and a count: of most letters the count says how many values follow, of the two text
letters it is the number of bytes of one value, and of the padding letter it is the number
of bytes to pass over. A native layout also aligns items and knows a few more letters.
-/

import ZeroFrame.Number.Binary64

namespace ZeroFrame.Layout

open Number

/-! ### Conventions -/

/-- Which byte of a number comes first. -/
inductive Endian where
  | little
  | big
  deriving DecidableEq, Repr

/-- What the byte-order character of a format decides. -/
structure Convention where
  endian : Endian
  /-- Whether items are aligned and the letters have the sizes of the machine. -/
  native : Bool
  deriving DecidableEq, Repr

/-- The convention of a byte-order character: native for `@`, big-endian for `>` and `!`, and
little-endian for `<` and `=`. -/
def Convention.ofChar? : Char → Option Convention
  | '@' => some ⟨.little, true⟩
  | '=' => some ⟨.little, false⟩
  | '<' => some ⟨.little, false⟩
  | '>' => some ⟨.big, false⟩
  | '!' => some ⟨.big, false⟩
  | _ => none

/-! ### Letters -/

/-- How the values of an item are stored. -/
inductive Code where
  /-- Bytes without a value. -/
  | pad
  /-- One byte as it is. -/
  | char
  /-- One byte, false exactly when it is zero. -/
  | bool
  /-- A number in `width` bytes, in two's complement if it is signed. -/
  | integer (width : Nat) (signed : Bool)
  /-- A binary floating-point number. -/
  | real (precision : Precision)
  /-- All bytes of the item as one value. -/
  | text
  /-- A length byte and a text of at most the remaining bytes. -/
  | counted
  deriving DecidableEq, Repr

namespace Code

def ofLetter? (native : Bool) (letter : Char) : Option Code :=
  match letter with
  | 'x' => some .pad
  | 'c' => some .char
  | '?' => some .bool
  | 'b' => some (.integer 1 true)
  | 'B' => some (.integer 1 false)
  | 'h' => some (.integer 2 true)
  | 'H' => some (.integer 2 false)
  | 'i' => some (.integer 4 true)
  | 'I' => some (.integer 4 false)
  | 'l' => some (.integer (if native then 8 else 4) true)
  | 'L' => some (.integer (if native then 8 else 4) false)
  | 'q' => some (.integer 8 true)
  | 'Q' => some (.integer 8 false)
  | 'n' => if native then some (.integer 8 true) else none
  | 'N' => if native then some (.integer 8 false) else none
  | 'P' => if native then some (.integer 8 false) else none
  | 'e' => some (.real .half)
  | 'f' => some (.real .single)
  | 'd' => some (.real .double)
  | 's' => some .text
  | 'p' => some .counted
  | _ => none

/-- The number of bytes that one count of the code takes. -/
def size : Code → Nat
  | .integer width _ => width
  | .real precision => precision.size
  | _ => 1

/-- The number of bytes to pass over so that a value of the code starts at a multiple of its size
in a native layout. -/
def gap (code : Code) (convention : Convention) (offset : Nat) : Nat :=
  if convention.native then (code.size - offset % code.size) % code.size else 0

end Code

/-! ### Items -/

/-- A code with its count. -/
structure Item where
  count : Nat
  code : Code
  deriving DecidableEq, Repr

namespace Item

/-- The number of bytes of the item. -/
def size (item : Item) : Nat := item.count * item.code.size

/-- The number of values of the item. -/
def arity (item : Item) : Nat :=
  match item.code with
  | .pad => 0
  | .text => 1
  | .counted => 1
  | _ => item.count

/-- Whether the item is a counted text without room for its length byte. Its text would have fewer
bytes than none. -/
def isHollow (item : Item) : Bool := item.code = .counted ∧ item.count = 0

end Item

end ZeroFrame.Layout

namespace ZeroFrame

/-- The items of a fixed-size layout, with the gaps of a native layout as items of padding. -/
structure Layout where
  convention : Layout.Convention
  items : List Layout.Item
  deriving DecidableEq, Repr

namespace Layout

/-- The number of bytes of the layout. -/
def size (layout : Layout) : Nat := (layout.items.map Item.size).foldr (· + ·) 0

/-- The number of values of the layout. -/
def arity (layout : Layout) : Nat := (layout.items.map Item.arity).foldr (· + ·) 0

end Layout

end ZeroFrame

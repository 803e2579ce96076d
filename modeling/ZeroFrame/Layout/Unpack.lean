/-
This file takes the values of a layout out of bytes.

Every item owns a fixed stretch of the bytes, so the values of a layout do not depend on
what follows it, and how many there are does not depend on the bytes at all.
-/

import ZeroFrame.Layout.Item
import ZeroFrame.Value

namespace ZeroFrame.Layout

/-! ### Single values -/

/-- The number whose bytes are given in the order of a convention. -/
def natOf (endian : Endian) (bytes : Bytes) : Nat :=
  match endian with
  | .little => Bytes.ofLittleEndian bytes
  | .big => Bytes.ofLittleEndian bytes.reverse

/-- The number below `2 ^ bits` read in two's complement. -/
def signedOf (bits number : Nat) : Int :=
  if 2 * number < Nat.pow 2 bits then number else number - Nat.pow 2 bits

/-- The text that a length byte announces, or as much of it as there is. -/
def countedOf : Bytes → Bytes
  | [] => []
  | length :: rest => rest.take length.toNat

/-- The value of a piece of bytes under a code; padding has none. -/
def Code.read? (endian : Endian) (code : Code) (piece : Bytes) : Option Value :=
  match code with
  | .pad => none
  | .char => some (.bytes piece)
  | .bool => some (.bool (natOf endian piece ≠ 0))
  | .integer width signed =>
    let number := natOf endian piece
    some (.int (if signed then signedOf (8 * width) number else number))
  | .real precision => some (.real (Number.Binary64.ofBits precision (natOf endian piece)))
  | .text => some (.bytes piece)
  | .counted => some (.bytes (countedOf piece))

/-! ### Items and layouts -/

/-- The first `count` pieces of `width` bytes each. -/
def pieces (width count : Nat) (bytes : Bytes) : List Bytes :=
  match count with
  | 0 => []
  | count + 1 => bytes.take width :: pieces width count (bytes.drop width)

/-- The pieces of bytes that hold the values of an item. -/
def Item.pieces (item : Item) (bytes : Bytes) : List Bytes :=
  match item.code with
  | .pad => []
  | .text => [bytes.take item.count]
  | .counted => [bytes.take item.count]
  | code => Layout.pieces code.size item.count bytes

/-- The values of an item whose bytes stand at the front. -/
def Item.unpack (endian : Endian) (item : Item) (bytes : Bytes) : List Value :=
  (item.pieces bytes).filterMap (item.code.read? endian)

/-- The values of items that follow each other. -/
def unpackItems (endian : Endian) : List Item → Bytes → List Value
  | [], _ => []
  | item :: items, bytes =>
    item.unpack endian bytes ++ unpackItems endian items (bytes.drop item.size)

/-- The values of a layout whose bytes stand at the front. -/
def unpack (layout : Layout) (bytes : Bytes) : List Value :=
  unpackItems layout.convention.endian layout.items bytes

end ZeroFrame.Layout

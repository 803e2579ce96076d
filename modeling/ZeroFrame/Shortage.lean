/-
This file says what keeps bytes or values from being set aside.

A size is a number of 64 bits, one of them for the sign. A block of memory begins with a
header, so the largest sizes that can be named are sizes of no block. What there is memory for
beyond that depends on the machine and on what else it holds, so a memory is given from
outside. It is asked about sizes that a few characters can name; what is no larger than the
formats and the payloads that are handed over is taken to be available.
-/

import ZeroFrame.Layout.Item

namespace ZeroFrame

/-- Why something cannot be set aside. -/
inductive Shortage where
  /-- The number is too large to be a size. -/
  | number
  /-- The size is too large for a block with its header. -/
  | block
  /-- There is not so much memory. -/
  | memory
  deriving DecidableEq, Repr

/-- What a machine has memory for. -/
structure Memory where
  /-- Whether there is memory for a block with so many bytes after its header. -/
  holdsBlock : Nat → Bool
  /-- Whether there is memory for the values of a layout. -/
  holdsValues : Layout → Bool

namespace Memory

/-- The memory that has room for everything. -/
def boundless : Memory := ⟨fun _ => true, fun _ => true⟩

end Memory

namespace Shortage

/-- Sizes are numbers below this one. -/
def numberLimit : Nat := 0x8000000000000000

/-- The number of bytes that a block has besides those that are asked for. -/
def headerSize : Nat := 33

/-- What keeps a number from being a size. -/
def ofNumber? (number : Nat) : Option Shortage :=
  if number < numberLimit then none else some .number

/-- What keeps a block of so many bytes from being set aside. -/
def ofBlock? (memory : Memory) (size : Nat) : Option Shortage :=
  if numberLimit ≤ size then some .number
  else if numberLimit ≤ size + headerSize then some .block
  else if memory.holdsBlock size then none
  else some .memory

/-- What keeps the bytes of a layout, or its values, from being set aside. -/
def ofLayout? (memory : Memory) (layout : Layout) : Option Shortage :=
  match ofBlock? memory layout.size with
  | some shortage => some shortage
  | none => if memory.holdsValues layout then none else some .memory

/-- The wording of a shortage; that there is no memory is told by the kind of the fault alone. -/
def message : Shortage → String
  | number => "cannot fit 'int' into an index-sized integer"
  | block => "byte string is too large"
  | memory => ""

end Shortage

end ZeroFrame

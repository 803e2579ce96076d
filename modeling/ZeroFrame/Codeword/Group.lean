/-
This file describes the groups that a codeword is made of.

A group is a few literal bytes closed by one control byte. The control byte says how many
literals stand before it and where the zeros of the payload belong: a bitmap places up to
seven zeros among the literals, a run adds one zero after its literals, and a raw group
adds none. The number of literals depends on the control byte alone, so a codeword can be
cut into groups from its end and in no other way.
-/

import ZeroFrame.Bytes

namespace ZeroFrame.Codeword

/-! ### Control bytes -/

/-- What a control byte says about its group. -/
inductive Pattern where
  /-- Seven payload bytes; a set flag stands for a zero and a clear one for a literal. -/
  | bitmap (flags : List Bool)
  /-- The literals followed by one zero. -/
  | run (literals : Nat)
  /-- The literals alone. -/
  | raw
  deriving DecidableEq, Repr

/-- A bitmap describes this many payload bytes. -/
def bitmapSize : Nat := 7

/-- The number of literals before the control byte `0xff`, one more than the longest run has. -/
def rawSize : Nat := 134

/-- The flags of a bitmap, from the lowest bit up, in the order of the payload bytes. -/
def flags (control : UInt8) : List Bool :=
  (List.range bitmapSize).map control.toNat.testBit

/-- Below `0x80` a bitmap, up to `0xfe` a run of at least seven literals, and at `0xff` raw. -/
def Pattern.ofControl (control : UInt8) : Pattern :=
  if control < 0x80 then .bitmap (flags control)
  else if control < 0xff then .run (control.toNat - 0x80 + bitmapSize)
  else .raw

/-- The number of literals that a group of this pattern holds. -/
def Pattern.literalCount : Pattern → Nat
  | .bitmap flags => flags.count false
  | .run literals => literals
  | .raw => rawSize

/-- The number of literals that a control byte asks for. -/
def literalCount (control : UInt8) : Nat := (Pattern.ofControl control).literalCount

/-! ### Expansion -/

/-- Puts the literals where the flags are clear and a zero where a flag is set. -/
def fillFlags : List Bool → Bytes → Bytes
  | true :: flags, literals => separator :: fillFlags flags literals
  | false :: flags, literal :: literals => literal :: fillFlags flags literals
  | _, _ => []

/-- The payload bytes that literals stand for under a pattern. -/
def Pattern.expand : Pattern → Bytes → Bytes
  | .bitmap flags, literals => fillFlags flags literals
  | .run _, literals => literals ++ [separator]
  | .raw, literals => literals

/-! ### Groups -/

/-- A control byte, which is no separator, with exactly the literals that it asks for. -/
structure Group where
  literals : Bytes
  control : UInt8
  control_ne : control ≠ separator
  length_eq : literals.length = literalCount control
  deriving DecidableEq

namespace Group

/-- The bytes of a group as they stand in the codeword. -/
def bytes (group : Group) : Bytes := group.literals ++ [group.control]

def payload (group : Group) : Bytes := (Pattern.ofControl group.control).expand group.literals

end Group

/-- The codeword that a list of groups forms. -/
def bytesOf (groups : List Group) : Bytes := groups.flatMap Group.bytes

/-- The payload that a list of groups carries. -/
def payloadOf (groups : List Group) : Bytes := groups.flatMap Group.payload

end ZeroFrame.Codeword

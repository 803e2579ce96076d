/-
This file writes bytes as hexadecimal digits and reads them back.

There are two written forms: pairs of digits one after another, and pairs that a single
space keeps apart. The reader accepts both and more, since blanks may stand anywhere
between two pairs, and it names the place of the first character that it cannot use.
-/

import ZeroFrame.Bytes

namespace ZeroFrame.Text.Hex

/-! ### Digits -/

/-- The lower-case digit of a number below sixteen. -/
def digit (value : Nat) : Char :=
  Char.ofNat (if value < 10 then '0'.toNat + value else 'a'.toNat + (value - 10))

/-- The value of a digit of either case. -/
def value? (char : Char) : Option Nat :=
  if '0' ≤ char ∧ char ≤ '9' then some (char.toNat - '0'.toNat)
  else if 'a' ≤ char ∧ char ≤ 'f' then some (char.toNat - 'a'.toNat + 10)
  else if 'A' ≤ char ∧ char ≤ 'F' then some (char.toNat - 'A'.toNat + 10)
  else none

/-- The last `width` digits of a number. -/
def fixed (width number : Nat) : List Char :=
  match width with
  | 0 => []
  | width + 1 => fixed width (number / 16) ++ [digit (number % 16)]

/-! ### Writing -/

def pair (byte : UInt8) : List Char := fixed 2 byte.toNat

/-- The bytes as pairs of digits without a gap. -/
def packed (bytes : Bytes) : String := String.ofList (bytes.flatMap pair)

/-- The bytes as pairs of digits, one space between two pairs. -/
def spaced (bytes : Bytes) : String :=
  " ".intercalate (bytes.map fun byte => String.ofList (pair byte))

/-! ### Reading -/

/-- The blanks that may stand between two pairs: space, tab, line feed, vertical tab, form feed
and carriage return. -/
def isBlank (char : Char) : Bool := char = ' ' ∨ ('\x09' ≤ char ∧ char ≤ '\x0d')

/-- Reads pairs from the given position on; the error is the position of the first character that
is no digit where a digit belongs, or of the end if the last pair lacks its second digit. -/
def readFrom (position : Nat) : List Char → Except Nat Bytes
  | [] => .ok []
  | first :: rest =>
    if isBlank first then readFrom (position + 1) rest
    else match value? first, rest with
      | none, _ => .error position
      | some _, [] => .error (position + 1)
      | some high, second :: rest =>
        match value? second with
        | none => .error (position + 1)
        | some low => (readFrom (position + 2) rest).map (UInt8.ofNat (16 * high + low) :: ·)

/-- Reads a text of pairs. A character outside ASCII is reported before anything else. -/
def read (text : List Char) : Except Nat Bytes :=
  match text.findIdx? (fun char => 0x80 ≤ char.toNat) with
  | some position => .error position
  | none => readFrom 0 text

end ZeroFrame.Text.Hex

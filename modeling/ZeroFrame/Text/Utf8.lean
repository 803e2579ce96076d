/-
This file reads bytes as UTF-8.

The reader is strict: every character must be in its shortest form, surrogates and code
points past the last one are refused, and no character may be cut off.
-/

import ZeroFrame.Bytes

namespace ZeroFrame.Text.Utf8

/-- The six bits of a continuation byte. -/
def continuation? (byte : UInt8) : Option Nat :=
  if 0x80 ≤ byte ∧ byte < 0xc0 then some (byte.toNat - 0x80) else none

/-- The character of a code point that needs a form of more than `least` values. -/
def char? (least code : Nat) : Option Char :=
  if valid : code.isValidChar then
    if least ≤ code then some (Char.ofNatAux code valid) else none
  else none

def read? : Bytes → Option (List Char)
  | [] => some []
  | first :: rest =>
    if first < 0x80 then
      (read? rest).map (Char.ofNat first.toNat :: ·)
    else if first < 0xc0 then none
    else if first < 0xe0 then
      match rest with
      | second :: rest => do
        let low ← continuation? second
        let char ← char? 0x80 ((first.toNat - 0xc0) * 64 + low)
        (read? rest).map (char :: ·)
      | _ => none
    else if first < 0xf0 then
      match rest with
      | second :: third :: rest => do
        let middle ← continuation? second
        let low ← continuation? third
        let char ← char? 0x800 (((first.toNat - 0xe0) * 64 + middle) * 64 + low)
        (read? rest).map (char :: ·)
      | _ => none
    else if first < 0xf8 then
      match rest with
      | second :: third :: fourth :: rest => do
        let high ← continuation? second
        let middle ← continuation? third
        let low ← continuation? fourth
        let char ← char? 0x10000 ((((first.toNat - 0xf0) * 64 + high) * 64 + middle) * 64 + low)
        (read? rest).map (char :: ·)
      | _ => none
    else none

end ZeroFrame.Text.Utf8

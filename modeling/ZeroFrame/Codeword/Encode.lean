/-
This file writes a payload as a codeword.

The writer collects payload bytes into an open group and closes it as soon as its control
byte is settled: after seven bytes if one of them was a zero, otherwise at the next zero
or after `rawSize` bytes without one. At the end of the payload a group that is still open
is closed as if zeros followed, and those zeros come back when the codeword is read.
-/

import ZeroFrame.Codeword.Group

namespace ZeroFrame.Codeword

/-- What the writer knows of the open group: how many payload bytes it holds, and the zeros
among the first seven of them as the bits of a number, lowest bit first. -/
structure OpenGroup where
  size : Nat
  zeros : Nat
  deriving DecidableEq, Repr

namespace OpenGroup

/-- The group that has just been opened. -/
def fresh : OpenGroup := ⟨0, 0⟩

/-- The control byte of a run that is closed by a zero. -/
def runControl (openGroup : OpenGroup) : UInt8 :=
  UInt8.ofNat (0x80 + (openGroup.size - bitmapSize))

/-- The control byte that closes the group at the end of the payload, if the group holds anything:
the places that a bitmap has left over count as zeros. -/
def closing (openGroup : OpenGroup) : Bytes :=
  if openGroup.size = 0 then []
  else if openGroup.size < bitmapSize then
    [UInt8.ofNat (openGroup.zeros + (0x80 - Nat.pow 2 openGroup.size))]
  else [openGroup.runControl]

/-- Takes one payload byte: the bytes to write at once, and the group that is open afterwards. -/
def push (openGroup : OpenGroup) (byte : UInt8) : Bytes × OpenGroup :=
  let size := openGroup.size + 1
  if openGroup.size < bitmapSize then
    let zeros :=
      if byte = separator then openGroup.zeros + Nat.pow 2 openGroup.size else openGroup.zeros
    let literal := if byte = separator then [] else [byte]
    if size = bitmapSize ∧ zeros ≠ 0 then (literal ++ [UInt8.ofNat zeros], fresh)
    else (literal, ⟨size, zeros⟩)
  else if byte = separator then ([openGroup.runControl], fresh)
  else if size = rawSize then ([byte, 0xff], fresh)
  else ([byte], ⟨size, openGroup.zeros⟩)

end OpenGroup

/-- The rest of a codeword, for a payload that goes on after the open group. -/
def encodeAfter (openGroup : OpenGroup) : Bytes → Bytes
  | [] => openGroup.closing
  | byte :: payload =>
    (openGroup.push byte).1 ++ encodeAfter (openGroup.push byte).2 payload

def encode (payload : Bytes) : Bytes := encodeAfter .fresh payload

/-- The group that the last bytes of a payload leave open. -/
def openAfter (openGroup : OpenGroup) (payload : Bytes) : OpenGroup :=
  payload.foldl (fun openGroup byte => (openGroup.push byte).2) openGroup

/-- The number of payload bytes in the group that the end of the payload leaves open. -/
def openSize (payload : Bytes) : Nat := (openAfter .fresh payload).size

/-- The number of zeros that closing a group of this size adds to the payload. -/
def padding (size : Nat) : Nat :=
  if size = 0 then 0 else if size < bitmapSize then bitmapSize - size else 1

end ZeroFrame.Codeword

/-
This file reads a codeword back into its payload.

The control byte of a group stands at its end, so groups are cut off from the end of the
codeword. Cutting stops at a separator in the place of a control byte and at a control
byte that asks for more literals than there are bytes before it; whichever comes first
from the end is the fault of the whole codeword. Literals are not examined.
-/

import ZeroFrame.Codeword.Group

namespace ZeroFrame.Codeword

/-- Why a codeword cannot be cut into groups. -/
inductive Flaw where
  /-- A separator stands where a control byte belongs. -/
  | separator
  /-- The control byte asks for more literals than there are. -/
  | truncated (control : UInt8)
  deriving DecidableEq, Repr

/-- Cuts the last groups off a codeword that is given backwards; `later` are those already cut. -/
def cutGroups (reversed : Bytes) (later : List Group) : Except Flaw (List Group) :=
  match reversed with
  | [] => .ok later
  | control :: before =>
    if zero : control = separator then
      .error .separator
    else if enough : literalCount control ≤ before.length then
      cutGroups (before.drop (literalCount control))
        (⟨(before.take (literalCount control)).reverse, control, zero, by
          simp [enough]⟩ :: later)
    else
      .error (.truncated control)
termination_by reversed.length
decreasing_by
  simp only [List.length_drop, List.length_cons]
  omega

/-- The groups of a codeword, in their order. -/
def groups (codeword : Bytes) : Except Flaw (List Group) := cutGroups codeword.reverse []

def decode (codeword : Bytes) : Except Flaw Bytes := (groups codeword).map payloadOf

end ZeroFrame.Codeword

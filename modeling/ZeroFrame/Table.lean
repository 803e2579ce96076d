/-
This file says what a table is: that which makes frames out of payloads.

A table may keep a state of its own and change it with every payload. It tells how many
bytes of a payload it used. A payload that a receiver hands over is complete, so a table
that asks for more bytes has found the payload malformed.
-/

import ZeroFrame.Fault

namespace ZeroFrame

/-- Tables of type `τ` make frames of type `φ`. -/
class Table (τ : Type) (φ : outParam Type) where
  /-- Decodes a payload: the frame with the number of bytes used, and the table afterwards. -/
  decode : τ → Bytes → Except Fault (φ × Nat) × τ

namespace Table

variable {τ φ : Type} [Table τ φ]

/-- What a complete payload that ran out too early is reported as; other outcomes stay. -/
def delimit (size : Nat) : Except Fault (φ × Nat) → Except Fault φ
  | .ok (frame, _) => .ok frame
  | .error fault =>
    if fault.kind = .unexpectedEnd then .error (.truncatedPayload size fault) else .error fault

/-- Decodes a payload that is known to be complete. -/
def decodeDelimited (table : τ) (payload : Bytes) : Except Fault φ × τ :=
  let (outcome, table) := decode table payload
  (delimit payload.length outcome, table)

end Table

end ZeroFrame

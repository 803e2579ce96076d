/-
This file keeps the bytes that have arrived on a link and are not used up yet.

Pending bytes grow at the end when a chunk arrives and shrink at the front when a frame is
cut off. Both operations take care that pending bytes do not start with a separator, so a
run of separators is never mistaken for an empty frame.
-/

import ZeroFrame.Bytes
import ZeroFrame.Fault

namespace ZeroFrame.Pending

/-! ### Arrival -/

/-- The pending bytes after a chunk. If nothing was pending, the leading zeros of the chunk are
dropped. -/
def receive (pending chunk : Bytes) : Bytes :=
  if pending.isEmpty then chunk.dropZeros else pending ++ chunk

def separator? (pending : Bytes) : Option Nat := pending.findIdx? (· == separator)

/-! ### Cutting -/

/-- The pending bytes after everything before a place, and the zeros that follow, is dropped. -/
def dropFrame (pending : Bytes) (stop : Nat) : Bytes := Bytes.dropZeros (pending.drop stop)

theorem length_dropFrame_le (pending : Bytes) (stop : Nat) :
    (dropFrame pending stop).length ≤ pending.length - stop := by
  simpa [dropFrame] using Bytes.length_dropZeros_le (pending.drop stop)

/-- A separator is dropped with the bytes before it. -/
theorem length_dropFrame_lt {pending : Bytes} {stop : Nat}
    (found : separator? pending = some stop) :
    (dropFrame pending stop).length < pending.length := by
  obtain ⟨bound, zero, _⟩ := List.findIdx?_eq_some_iff_getElem.mp found
  have split : pending.drop stop = separator :: pending.drop (stop + 1) := by
    rw [List.drop_eq_getElem_cons bound, eq_of_beq zero]
  have shorter := Bytes.length_dropZeros_le (pending.drop (stop + 1))
  rw [dropFrame, split, Bytes.dropZeros_separator]
  simp only [List.length_drop] at shorter
  omega

/-! ### Cutting at any whole number -/

/-- The byte at a place, where negative places count from the end. -/
def byteAt? (pending : Bytes) (place : Int) : Option UInt8 :=
  if 0 ≤ place then pending[place.toNat]?
  else if 0 ≤ pending.length + place then pending[(pending.length + place).toNat]?
  else none

/-- Places are not below this number. -/
def lowestPlace : Int := -0x8000000000000000

/-- What is wrong with a place that lies before the first byte. -/
def placeFault (place : Int) : Fault := if place < lowestPlace then .farPosition else .position

/-- The first place from `place` up, past the end at most, that does not hold a zero. -/
def skipZeros (pending : Bytes) (place : Int) : Except Fault Int :=
  if _within : place < pending.length then
    match byteAt? pending place with
    | none => .error (placeFault place)
    | some byte => if byte = separator then skipZeros pending (place + 1) else .ok place
  else .ok place
termination_by (pending.length - place).toNat

/-- The bytes from a place on, where negative places count from the end and one before the first
byte counts as the first. -/
def dropTo (pending : Bytes) (place : Int) : Bytes :=
  if 0 ≤ place then pending.drop place.toNat else pending.drop (pending.length + place).toNat

/-- Cuts as `dropFrame` does, at any whole number. The search for the first byte to keep starts at
the number itself, and so counts up to the front before it goes on from there. -/
def dropFrameAt (pending : Bytes) (place : Int) : Except Fault Bytes :=
  match skipZeros pending place with
  | .error fault => .error fault
  | .ok stop => if pending.length ≤ stop then .ok [] else .ok (dropTo pending stop)

/-- Cuts the pending bytes in place, at any whole number. The search comes first, so a place that is
refused is refused before any byte goes. -/
def cutAt (place : Int) : EStateM Fault Bytes Unit := do
  let rest ← ofExcept (dropFrameAt (← get) place)
  set rest

/-! ### Cutting at every separator -/

/-- The places of the separators that are found one after the other, each in what the one before it
left, and the bytes that are left at the end. -/
def dropAll (pending : Bytes) : List Nat × Bytes :=
  match _found : separator? pending with
  | none => ([], pending)
  | some stop =>
    let (places, rest) := dropAll (dropFrame pending stop)
    (stop :: places, rest)
termination_by pending.length
decreasing_by exact length_dropFrame_lt (by assumption)

end ZeroFrame.Pending

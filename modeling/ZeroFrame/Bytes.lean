/-
This file fixes the bytes of a link and the one byte value with a meaning of its own.

A frame never contains the separator when it is written, so a run of separators only ends
frames and pads the space between them. Dropping a leading run is therefore the one
normalization that every buffer of this library goes through, and dropping a trailing run
is what removes the padding of a payload.
-/

namespace ZeroFrame

/-- A finite run of bytes, first byte first. -/
abbrev Bytes := List UInt8

/-- The byte that ends a frame on the wire. -/
def separator : UInt8 := 0

namespace Bytes

/-! ### Runs of zeros at either end -/

def dropZeros (bytes : Bytes) : Bytes := bytes.dropWhile (· == separator)

def stripZeros (bytes : Bytes) : Bytes := (dropZeros bytes.reverse).reverse

@[simp] theorem dropZeros_nil : dropZeros [] = [] := rfl

@[simp] theorem dropZeros_separator (bytes : Bytes) :
    dropZeros (separator :: bytes) = dropZeros bytes := rfl

theorem dropZeros_cons_of_ne {byte : UInt8} (literal : byte ≠ separator) (bytes : Bytes) :
    dropZeros (byte :: bytes) = byte :: bytes := by
  simp [dropZeros, literal]

/-- Dropping leading zeros never adds a byte. -/
theorem length_dropZeros_le (bytes : Bytes) : (dropZeros bytes).length ≤ bytes.length :=
  (List.dropWhile_suffix _).length_le

/-- What is left after dropping leading zeros does not start with a zero. -/
theorem head_dropZeros_ne {bytes rest : Bytes} {first : UInt8}
    (left : dropZeros bytes = first :: rest) : first ≠ separator := by
  induction bytes with
  | nil => simp at left
  | cons byte bytes inductionHypothesis =>
    by_cases zero : byte = separator
    · exact inductionHypothesis (by simpa [zero] using left)
    · rw [dropZeros_cons_of_ne zero] at left
      exact fun same => zero ((List.cons.inj left).1.trans same)

/-! ### Reading numbers -/

/-- The number whose base-256 digits are the bytes, least significant first. -/
def ofLittleEndian : Bytes → Nat
  | [] => 0
  | byte :: bytes => byte.toNat + 256 * ofLittleEndian bytes

/-- The `width` base-256 digits of a number, least significant first. -/
def toLittleEndian (width number : Nat) : Bytes :=
  match width with
  | 0 => []
  | width + 1 => UInt8.ofNat number :: toLittleEndian width (number / 256)

end Bytes

end ZeroFrame

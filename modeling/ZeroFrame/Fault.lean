/-
This file gathers everything that can go wrong.

A fault is a cause with the data that belongs to it. Its kind, by which callers tell faults
apart, its wording and the fault behind it are functions of the cause. Faults that come from
outside the library, out of a table or an observer of the caller, carry their kind and
wording with them.
-/

import ZeroFrame.Codeword.Decode
import ZeroFrame.Message.Acceptance
import ZeroFrame.Message.Schema
import ZeroFrame.Shortage

namespace ZeroFrame

/-- The kinds of faults. -/
inductive Fault.Kind where
  /-- Delimited bytes violate the encoding, or their payload does not parse. -/
  | malformed
  /-- There is not enough data yet. -/
  | unexpectedEnd
  /-- A frame cannot be produced, for a reason that is neither of the two above. -/
  | decode
  /-- The definition of a message is invalid. -/
  | schema
  /-- The configuration of a receiver is invalid. -/
  | config
  /-- Any other fault of this library. -/
  | general
  /-- The items of a format are wrong. -/
  | format
  /-- A text cannot be written in the encoding that it is needed in. -/
  | unencodable
  /-- A position lies outside the bytes. -/
  | position
  /-- A value is wrong. -/
  | value
  /-- Something went wrong while running. -/
  | runtime
  /-- Calls are nested too deeply. -/
  | nesting
  /-- A number is too large for what it is used for. -/
  | excess
  /-- There is not enough memory. -/
  | memory
  /-- An operation does not apply to what it is used on. -/
  | mismatch
  /-- An iteration has nothing more to give. -/
  | exhausted
  /-- The machinery below the library contradicts itself. -/
  | internal
  /-- Any other kind, by its name. -/
  | other (name : String)
  deriving DecidableEq, Repr

/-- What went wrong. -/
inductive Fault where
  /-- The encoded bytes of a frame are no codeword. -/
  | codeword (flaw : Codeword.Flaw)
  /-- More bytes are pending than the limit allows, and no separator is among them. -/
  | overflow (limit : Nat)
  /-- No frame is complete. -/
  | noSeparator
  /-- A payload of the given size ended before its table was satisfied. -/
  | truncatedPayload (size : Nat) (cause : Fault)
  /-- A payload is too short to hold an index. -/
  | shortIndex (size : Nat)
  | unknownIndex (index : Nat)
  /-- A payload is too short for the body that its index announces. -/
  | shortBody (name : String) (needed size : Nat)
  /-- The fields of a message do not accept the values of the body. -/
  | invalid (name : String) (failures : List Message.Failure)
  | schema (name : String) (flaw : Schema.Flaw)
  | format (flaw : Layout.Flaw)
  | unencodable (run : Layout.Foreign)
  | badLimit (limit : Int)
  /-- A place lies before the first byte. -/
  | position
  /-- A place is so far before the first byte that it is no place at all. -/
  | farPosition
  | nesting
  /-- Bytes or values cannot be set aside. -/
  | shortage (shortage : Shortage)
  /-- A text of the layout has a negative number of bytes. -/
  | negativeSize
  /-- There is no number to which the size of a chunk could be compared. -/
  | noChunkSize
  /-- A fault inside an iterator would be taken for its end. -/
  | exhausted (cause : Fault)
  /-- A fault of the caller. -/
  | raised (kind : Fault.Kind) (message : String)
  deriving Repr

namespace Fault

def kind : Fault → Kind
  | codeword _ => .malformed
  | overflow _ => .malformed
  | noSeparator => .unexpectedEnd
  | truncatedPayload _ _ => .malformed
  | shortIndex _ => .unexpectedEnd
  | unknownIndex _ => .malformed
  | shortBody _ _ _ => .unexpectedEnd
  | invalid _ _ => .malformed
  | schema _ _ => .schema
  | format _ => .format
  | unencodable _ => .unencodable
  | badLimit _ => .config
  | position => .position
  | farPosition => .position
  | nesting => .nesting
  | shortage .memory => .memory
  | shortage _ => .excess
  | negativeSize => .internal
  | noChunkSize => .mismatch
  | exhausted _ => .runtime
  | raised kind _ => kind

/-- Whether a fault says that a frame cannot be produced. -/
def isDecode (fault : Fault) : Bool :=
  fault.kind = .malformed ∨ fault.kind = .unexpectedEnd ∨ fault.kind = .decode

/-- The wording of a flaw of a codeword. -/
def codewordMessage : Codeword.Flaw → String
  | .separator => "Separator byte 0x00 inside encoded frame"
  | .truncated control =>
    "Truncated frame: control byte 0x" ++ String.ofList (Text.Hex.pair control) ++
      " needs more literal bytes"

/-- The wording of a message that was rejected with so many failures. Lines that repeat what the
failures hold follow it. -/
def invalidMessage (name : String) (failures : Nat) : String :=
  "Invalid " ++ name ++ ": " ++ toString failures ++ " validation error" ++
    (if failures = 1 then "" else "s") ++ " for " ++ name

def message : Fault → String
  | codeword flaw => codewordMessage flaw
  | overflow limit => "Buffer exceeded " ++ toString limit ++ " bytes"
  | noSeparator => "No frame separator received yet"
  | truncatedPayload size cause =>
    "Truncated payload (" ++ toString size ++ " bytes): " ++ cause.message
  | shortIndex size => "Payload too short for index: " ++ toString size ++ " bytes"
  | unknownIndex index => "Unknown message index " ++ toString index
  | shortBody name needed size =>
    name ++ ": need " ++ toString needed ++ " bytes, got " ++ toString size ++ " bytes"
  | invalid name failures => invalidMessage name failures.length
  | schema name flaw => flaw.message name
  | format flaw => flaw.message
  | unencodable run => run.message
  | badLimit limit => "max_buffer_size must be > 0, got " ++ toString limit
  | position => "bytearray index out of range"
  | farPosition => "cannot fit 'int' into an index-sized integer"
  | nesting => "maximum recursion depth exceeded"
  | shortage cause => cause.message
  | negativeSize => "Negative size passed to PyBytes_FromStringAndSize"
  | noChunkSize => "'<=' not supported between instances of 'list' and 'int'"
  | exhausted _ => "generator raised StopIteration"
  | raised _ message => message

/-- The fault that led to this one. -/
def cause? : Fault → Option Fault
  | truncatedPayload _ cause => some cause
  | schema _ (.badFormat _ flaw) => some (.format flaw)
  | exhausted cause => some cause
  | _ => none

end Fault

end ZeroFrame

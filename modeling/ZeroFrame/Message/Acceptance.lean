/-
This file says which values a field accepts and in what form it holds them.

A value of the type of the field is taken as it is. Some others are taken as well: whole
floating-point numbers as integers, integers as the nearest floating-point number, zero and
one and a few words as truth values, and byte strings as text and as the numbers that they
spell. A text counts as the bytes that encode it. The limits of the field are checked on the
form in which the field would hold the value.
-/

import ZeroFrame.Message.Field
import ZeroFrame.Text.Numeral
import ZeroFrame.Text.Utf8

namespace ZeroFrame.Message

open Number

/-! ### Conversion -/

/-- Whole numbers that are not stored as such are taken only strictly between this number and its
negative. -/
def wordLimit : Int := 0x8000000000000000

/-- The bytes that encode a text. -/
def encoding (text : String) : Bytes := text.toUTF8.data.toList

/-- The whole number that a text spells in bytes. -/
def intOfBytes (bytes : Bytes) : Except Rejection Int :=
  match Text.Utf8.read? bytes with
  | none => .error .notInt
  | some text =>
    match Text.Numeral.int? text with
    | some value => .ok value
    | none => .error (if Text.Numeral.isOverlong text then .tooLarge else .notInt)

/-- The floating-point number that a text spells in bytes. -/
def realOfBytes (bytes : Bytes) : Except Rejection Binary64 :=
  match (Text.Utf8.read? bytes).bind Text.Numeral.real? with
  | some value => .ok value
  | none => .error .notReal

/-- The whole number that a value stands for. -/
def toInt : Value → Except Rejection Int
  | .int value => .ok value
  | .bool value => .ok (if value then 1 else 0)
  | .real value =>
    match value.wholeness with
    | .unbounded => .error .notFinite
    | .fractional => .error .fractional
    | .whole value =>
      if -wordLimit < value ∧ value < wordLimit then .ok value else .error .tooLarge
  | .bytes bytes => intOfBytes bytes
  | .text text => intOfBytes (encoding text)

/-- The floating-point number that a value stands for. -/
def toReal : Value → Except Rejection Binary64
  | .real value => .ok value
  | .int value => .ok (.ofInt value)
  | .bool value => .ok (.ofInt (if value then 1 else 0))
  | .bytes bytes => realOfBytes bytes
  | .text text => realOfBytes (encoding text)

/-- The truth value that a number stands for. -/
def truthOfInt (value : Int) : Except Rejection Bool :=
  if value = 0 then .ok false
  else if value = 1 then .ok true
  else if -wordLimit ≤ value ∧ value < wordLimit then .error .unclearTruth
  else .error .notTruth

/-- The words for false. -/
def falseWords : List String := ["0", "f", "n", "no", "off", "false"]

/-- The words for true. -/
def trueWords : List String := ["1", "t", "y", "yes", "on", "true"]

/-- A byte with an ASCII capital letter replaced by the small one. -/
def lowerByte (byte : UInt8) : UInt8 := if 0x41 ≤ byte ∧ byte ≤ 0x5a then byte + 0x20 else byte

/-- The bytes of a word that has only ASCII characters. -/
def wordBytes (word : String) : Bytes := word.toList.map fun char => UInt8.ofNat char.toNat

/-- The truth value that a word stands for, whatever the case of its letters. -/
def truthOfWord (word : Bytes) : Except Rejection Bool :=
  let lower := word.map lowerByte
  if falseWords.any (wordBytes · = lower) then .ok false
  else if trueWords.any (wordBytes · = lower) then .ok true
  else .error .unclearTruth

/-- The truth value that a value stands for. -/
def toTruth : Value → Except Rejection Bool
  | .bool value => .ok value
  | .int value => truthOfInt value
  | .real value =>
    match value.wholeness with
    | .whole value =>
      if -wordLimit < value ∧ value < wordLimit then truthOfInt value else .error .notTruth
    | _ => .error .notTruth
  | .bytes word => truthOfWord word
  | .text text => truthOfWord (encoding text)

/-- The byte string that a value is. -/
def toBytes : Value → Except Rejection Bytes
  | .bytes value => .ok value
  | .text text => .ok (encoding text)
  | _ => .error .notBytes

/-- The characters that a value stands for. -/
def toText : Value → Except Rejection String
  | .text value => .ok value
  | .bytes value =>
    match Text.Utf8.read? value with
    | some chars => .ok (String.ofList chars)
    | none => .error .notUtf8
  | _ => .error .notText

/-! ### Acceptance -/

/-- The value as a field of the type holds it, or the first reason why it cannot. -/
def FieldType.accept : FieldType → Value → Except Rejection Value
  | .int range, value => do
    let value ← toInt value
    range.checkInt value
    return .int value
  | .real range, value => do
    let value ← toReal value
    range.checkReal value
    return .real value
  | .bool, value => (toTruth value).map .bool
  | .bytes extent, value => do
    let value ← toBytes value
    extent.check .bytes value.length
    return .bytes value
  | .text extent, value => do
    let value ← toText value
    extent.check .characters value.length
    return .text value

/-- A field that did not accept its value, and why. -/
structure Failure where
  field : String
  value : Value
  rejection : Rejection
  deriving DecidableEq, Repr

/-- What a field makes of a value. -/
def Field.accept (field : Field) (value : Value) : Except Failure (String × Value) :=
  match field.type.accept value with
  | .ok content => .ok (field.name, content)
  | .error rejection => .error ⟨field.name, value, rejection⟩

def failuresOf {α : Type} (results : List (Except Failure α)) : List Failure :=
  results.filterMap fun
    | .error failure => some failure
    | .ok _ => none

/-- The fields filled with the values in order, or all failures in the order of the fields. -/
def fill (fields : List Field) (values : List Value) :
    Except (List Failure) (List (String × Value)) :=
  let results := fields.zipWith Field.accept values
  match failuresOf results with
  | [] => .ok (results.filterMap (·.toOption))
  | failures => .error failures

end ZeroFrame.Message

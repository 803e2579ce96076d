/-
This file describes the fields of a message: their types and the limits on their values.

A limit belongs to the type it limits, so a field cannot ask for a length of a number or for
a bound on a text. Every limit is optional. A value that breaks several limits is reported
for one of them, and the order in which they are tried is fixed here.
-/

import ZeroFrame.Number.Shortest
import ZeroFrame.Value

namespace ZeroFrame.Message

open Number

/-! ### Types -/

/-- The bounds of a number. -/
structure Range (α : Type) where
  atMost : Option α
  below : Option α
  atLeast : Option α
  above : Option α
  deriving DecidableEq, Repr

/-- The bounds of a length. -/
structure Extent where
  atLeast : Option Nat
  atMost : Option Nat
  deriving DecidableEq, Repr

/-- What a field holds. -/
inductive FieldType where
  | int (range : Range Int)
  | real (range : Range Binary64)
  | bool
  | bytes (extent : Extent)
  | text (extent : Extent)
  deriving DecidableEq, Repr

/-- A named place for a value. -/
structure Field where
  name : String
  type : FieldType
  deriving DecidableEq, Repr

/-- Whether the field is private, which its name says by an underscore at the front. Messages carry
no private fields. -/
def Field.isPrivate (field : Field) : Bool := field.name.toList.head? = some '_'

/-! ### Rejections -/

/-- How a bound compares with the values that it lets through. -/
inductive Relation where
  | atMost
  | below
  | atLeast
  | above
  deriving DecidableEq, Repr

/-- The bound itself. -/
inductive Bound where
  | int (value : Int)
  | real (value : Binary64)
  deriving DecidableEq, Repr

/-- What a length counts. -/
inductive Measure where
  | bytes
  | characters
  deriving DecidableEq, Repr

/-- Why a value does not fit a field. -/
inductive Rejection where
  | notFinite
  | fractional
  | tooLarge
  | notInt
  | notReal
  /-- The value is of a type that can be a truth value, but it is not one of the known forms. -/
  | unclearTruth
  | notTruth
  | notBytes
  | notText
  | notUtf8
  | outOfRange (relation : Relation) (bound : Bound)
  | tooShort (measure : Measure) (least : Nat)
  | tooLong (measure : Measure) (most : Nat)
  deriving DecidableEq, Repr

def Bound.text : Bound → String
  | .int value => toString value
  | .real value => Shortest.text value

def Relation.slug : Relation → String
  | .atMost => "less_than_equal"
  | .below => "less_than"
  | .atLeast => "greater_than_equal"
  | .above => "greater_than"

def Relation.wording : Relation → String
  | .atMost => "less than or equal to "
  | .below => "less than "
  | .atLeast => "greater than or equal to "
  | .above => "greater than "

/-- A count with its unit; the unit is singular for one. -/
def Measure.counted (measure : Measure) (count : Nat) : String :=
  let unit := match measure with
    | .bytes => "byte"
    | .characters => "character"
  toString count ++ " " ++ unit ++ (if count = 1 then "" else "s")

def Measure.subject : Measure → String
  | .bytes => "Data"
  | .characters => "String"

namespace Rejection

def slug : Rejection → String
  | notFinite => "finite_number"
  | fractional => "int_from_float"
  | tooLarge => "int_parsing_size"
  | notInt => "int_parsing"
  | notReal => "float_parsing"
  | unclearTruth => "bool_parsing"
  | notTruth => "bool_type"
  | notBytes => "bytes_type"
  | notText => "string_type"
  | notUtf8 => "string_unicode"
  | outOfRange relation _ => relation.slug
  | tooShort .bytes _ => "bytes_too_short"
  | tooShort .characters _ => "string_too_short"
  | tooLong .bytes _ => "bytes_too_long"
  | tooLong .characters _ => "string_too_long"

def message : Rejection → String
  | notFinite => "Input should be a finite number"
  | fractional => "Input should be a valid integer, got a number with a fractional part"
  | tooLarge => "Unable to parse input string as an integer, exceeded maximum size"
  | notInt => "Input should be a valid integer, unable to parse string as an integer"
  | notReal => "Input should be a valid number, unable to parse string as a number"
  | unclearTruth => "Input should be a valid boolean, unable to interpret input"
  | notTruth => "Input should be a valid boolean"
  | notBytes => "Input should be a valid bytes"
  | notText => "Input should be a valid string"
  | notUtf8 => "Input should be a valid string, unable to parse raw data as a unicode string"
  | outOfRange relation bound => "Input should be " ++ relation.wording ++ bound.text
  | tooShort measure least =>
    measure.subject ++ " should have at least " ++ measure.counted least
  | tooLong measure most => measure.subject ++ " should have at most " ++ measure.counted most

end Rejection

/-! ### Limits -/

/-- Refuses with a rejection unless the condition holds of the limit, if there is one. -/
def require {α : Type} (limit : Option α) (holds : α → Bool) (rejection : α → Rejection) :
    Except Rejection Unit :=
  match limit with
  | none => .ok ()
  | some limit => if holds limit then .ok () else .error (rejection limit)

/-- Checks a whole number against its bounds. -/
def Range.checkInt (range : Range Int) (value : Int) : Except Rejection Unit := do
  require range.atMost (value ≤ ·) (.outOfRange .atMost <| .int ·)
  require range.below (value < ·) (.outOfRange .below <| .int ·)
  require range.atLeast (· ≤ value) (.outOfRange .atLeast <| .int ·)
  require range.above (· < value) (.outOfRange .above <| .int ·)

/-- Checks a floating-point number against its bounds; a NaN breaks every bound. -/
def Range.checkReal (range : Range Binary64) (value : Binary64) : Except Rejection Unit := do
  require range.atMost value.le (.outOfRange .atMost <| .real ·)
  require range.below value.lt (.outOfRange .below <| .real ·)
  require range.atLeast (·.le value) (.outOfRange .atLeast <| .real ·)
  require range.above (·.lt value) (.outOfRange .above <| .real ·)

def Extent.check (extent : Extent) (measure : Measure) (length : Nat) : Except Rejection Unit := do
  require extent.atLeast (· ≤ length) (.tooShort measure)
  require extent.atMost (length ≤ ·) (.tooLong measure)

end ZeroFrame.Message

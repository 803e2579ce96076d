/-
This file lists the values that a frame can carry.

Numbers, truth values and byte strings come straight out of a layout. A text only arises
when a byte string is put into a field that asks for characters.
-/

import ZeroFrame.Bytes
import ZeroFrame.Number.Binary64

namespace ZeroFrame

/-- A value of a message field. -/
inductive Value where
  | int (value : Int)
  | real (value : Number.Binary64)
  | bool (value : Bool)
  | bytes (value : Bytes)
  | text (value : String)
  deriving DecidableEq, Repr

end ZeroFrame

/-
This file writes a text between quotes, so that it can be told apart from its surroundings.

The quotes are single unless the text holds a single quote and no double one. The quote in
use and the backslash are escaped, three blanks have short escapes of their own, and every
other character without a printed form is written by its code point.
-/

import ZeroFrame.Text.Hex
import ZeroFrame.Text.Printable

namespace ZeroFrame.Text

/-- A character by its code point, in two, four or eight hexadecimal digits. -/
def escapeCode (char : Char) : List Char :=
  if char.toNat < 0x100 then '\\' :: 'x' :: Hex.fixed 2 char.toNat
  else if char.toNat < 0x10000 then '\\' :: 'u' :: Hex.fixed 4 char.toNat
  else '\\' :: 'U' :: Hex.fixed 8 char.toNat

/-- A character as it stands between quotes of the given kind. -/
def escape (quote char : Char) : List Char :=
  if char = quote ∨ char = '\\' then ['\\', char]
  else if char = '\t' then ['\\', 't']
  else if char = '\n' then ['\\', 'n']
  else if char = '\r' then ['\\', 'r']
  else if isPrintable char then [char]
  else escapeCode char

/-- The kind of quote that a text is put between. -/
def quoteOf (text : List Char) : Char :=
  if text.contains '\x27' ∧ ¬ text.contains '"' then '"' else '\x27'

def quoted (text : String) : String :=
  let quote := quoteOf text.toList
  String.ofList (quote :: text.toList.flatMap (escape quote) ++ [quote])

end ZeroFrame.Text

/-
This file reads a whole number from a text that someone typed.

Blanks around the number are dropped, one sign may stand before the digits, and single
underscores may stand between two digits. Digits of every script count.
-/

import ZeroFrame.Text.DecimalDigit

namespace ZeroFrame.Text.Integer

/-- The blanks that may surround a number. -/
def isBlank (char : Char) : Bool :=
  char = ' ' ∨ ('\x09' ≤ char ∧ char ≤ '\x0d') ∨ char = '\x85' ∨ char = '\xa0' ∨
    char = '\u1680' ∨ ('\u2000' ≤ char ∧ char ≤ '\u200a') ∨ char = '\u2028' ∨
    char = '\u2029' ∨ char = '\u202f' ∨ char = '\u205f' ∨ char = '\u3000'

/-- The text without the blanks at both ends. -/
def trim (text : List Char) : List Char :=
  ((text.dropWhile isBlank).reverse.dropWhile isBlank).reverse

/-- The text without its underscores, each of which must stand between two other characters. -/
def ungap? : List Char → Option (List Char)
  | [] => none
  | first :: rest =>
    if first = '_' then none
    else match rest with
      | [] => some [first]
      | '_' :: rest => (ungap? rest).map (first :: ·)
      | rest => (ungap? rest).map (first :: ·)

/-- A numeral of more digits than this is refused. -/
def digitLimit : Nat := 4300

/-- The number with the given decimal digits, the first one first. -/
def ofDigits (digits : List Nat) : Nat := digits.foldl (fun number digit => 10 * number + digit) 0

/-- The number that a numeral without a sign denotes. -/
def magnitude? (text : List Char) : Option Nat := do
  let digits ← (← ungap? text).mapM decimalValue?
  if digits.length ≤ digitLimit then some (ofDigits digits) else none

/-- Whether a text starts with a minus, and what follows its sign. -/
def sign : List Char → Bool × List Char
  | '-' :: rest => (true, rest)
  | '+' :: rest => (false, rest)
  | rest => (false, rest)

/-- A whole number by its sign and its magnitude. -/
def signed (negative : Bool) (magnitude : Nat) : Int := if negative then -magnitude else magnitude

def read? (text : String) : Option Int :=
  let (negative, rest) := sign (trim text.toList)
  (magnitude? rest).map (signed negative)

end ZeroFrame.Text.Integer

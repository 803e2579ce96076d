/-
This file reads numbers from texts that stand where numbers are asked for.

Blanks around a number are dropped, and only ASCII digits count. A whole number may have
zeros before its figures, with underscores among them, and a fraction of zeros after them;
its figures may be held apart by underscores. A real number may be written with a point and a
power of ten, or as a word; if it has underscores, no blanks may stand around it.
-/

import ZeroFrame.Number.Binary64
import ZeroFrame.Text.Integer

namespace ZeroFrame.Text.Numeral

open Integer Number

/-! ### Digits -/

def digitValue? (char : Char) : Option Nat :=
  if char.isDigit then some (char.toNat - '0'.toNat) else none

/-- The number that digits spell, of which there must be one. -/
def number? (text : List Char) : Option Nat :=
  if text = [] then none else (text.mapM digitValue?).map ofDigits

/-! ### Whole numbers -/

/-- A whole number has at most so many figures; a minus counts as one of them. -/
def room (negative : Bool) : Nat := if negative then digitLimit - 1 else digitLimit

/-- The number with the given figures. They must be few enough, and a zero may only stand in front
if it is the only one. -/
def figures? (room : Nat) (text : List Char) : Option Nat := do
  let figures ← ungap? text
  if figures.length ≤ room ∧ (figures.head? = some '0' → figures = ['0']) then number? figures
  else none

/-- The text without a fraction of zeros, if it has a fraction. -/
def dropFraction? (text : List Char) : Option (List Char) :=
  match text.dropWhile (· ≠ '.') with
  | [] => some text
  | _ :: zeros =>
    if zeros ≠ [] ∧ zeros.all (· = '0') then some (text.takeWhile (· ≠ '.')) else none

/-- Whether a character may follow the first zero before the figures. -/
def isFiller (char : Char) : Bool := char = '0' ∨ char = '_'

/-- The sign of a number and its figures, without the zeros before them. A minus may also stand
after these zeros if there is none before. -/
def dropZeros? (negative : Bool) : List Char → Option (Bool × List Char)
  | '0' :: rest =>
    match rest.dropWhile isFiller with
    | [] => some (negative, [rest.getLastD '0'])
    | '-' :: '_' :: figures => if negative then none else some (true, figures)
    | '-' :: figures => if negative then none else some (true, figures)
    | figures => some (negative, figures)
  | figures => some (negative, figures)

def whole? (text : List Char) : Option Int := do
  let (negative, rest) := sign text
  let (negative, figures) ← dropZeros? negative (← dropFraction? rest)
  (figures? (room negative) figures).map (signed negative)

def int? (text : List Char) : Option Int := whole? (trim text)

/-- Whether a text begins with more figures than there is room for. Such a text is no whole number,
whatever follows. -/
def isOverlong (text : List Char) : Bool :=
  let negative : Bool := text.head? = some '-'
  let figures := (if negative then text.tail else text).takeWhile Char.isDigit
  room negative < figures.length ∧ figures.head? ≠ some '0'

/-! ### Real numbers -/

/-- The power of ten that the rest of a decimal asks for. -/
def exponent? : List Char → Option Int
  | [] => some 0
  | mark :: rest =>
    if mark = 'e' ∨ mark = 'E' then
      let (negative, digits) := sign rest
      (number? digits).map (signed negative)
    else none

/-- The digits after a point and what follows them. -/
def fraction : List Char → List Char × List Char
  | '.' :: rest => (rest.takeWhile Char.isDigit, rest.dropWhile Char.isDigit)
  | rest => ([], rest)

/-- The number nearest to a decimal without a sign of its own. -/
def decimal? (negative : Bool) (text : List Char) : Option Binary64 := do
  let (places, rest) := fraction (text.dropWhile Char.isDigit)
  let mantissa ← number? (text.takeWhile Char.isDigit ++ places)
  let exponent ← exponent? rest
  some (.ofScientific negative mantissa (exponent - places.length))

def plain? (text : List Char) : Option Binary64 :=
  let (negative, rest) := sign text
  let word := rest.map Char.toLower
  if word = ['n', 'a', 'n'] then some (.ofMagnitude negative Binary64.nanBits)
  else if word = ['i', 'n', 'f'] ∨ word = ['i', 'n', 'f', 'i', 'n', 'i', 't', 'y'] then
    some (.ofMagnitude negative Binary64.infinityBits)
  else decimal? negative rest

def real? (text : List Char) : Option Binary64 :=
  match plain? (trim text) with
  | some number => some number
  | none => (ungap? text).bind plain?

end ZeroFrame.Text.Numeral

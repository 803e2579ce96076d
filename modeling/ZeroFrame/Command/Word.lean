/-
This file tells the words of a command line apart.

A word is an option, a value or the divider after which every word is a value. An option may
be shortened as long as one option only can be meant, and may have a text attached to it,
after an equals sign or, if its name is short, directly. A word that looks like a negative
number, or holds a space, is a value unless it is an option all the same.
-/

import ZeroFrame.Command.Page
import ZeroFrame.Text.DecimalDigit

namespace ZeroFrame.Command

/-! ### Marks -/

/-- A way to read a word as an option: the option, the name that is meant, and the text that is
attached to it. -/
structure Reading where
  switch : Switch
  name : String
  attached : Option (List Char)
  deriving DecidableEq, Repr

/-- What a word is. -/
inductive Mark where
  | value
  | divider
  | option (reading : Reading)
  /-- It is written like an option, but the page has none of that name. -/
  | unknown
  deriving DecidableEq, Repr

/-- Whether the word may stand among operands. -/
def Mark.isOperand : Mark → Bool
  | value => true
  | divider => true
  | _ => false

/-- A word with its mark. -/
structure Word where
  text : String
  mark : Mark
  deriving DecidableEq, Repr

/-! ### Forms -/

/-- The word after which every word is a value. -/
def divider : String := "--"

/-- Whether the name of an option starts with two dashes. -/
def isLong (name : String) : Bool := name.toList.take 2 = ['-', '-']

/-- A word in two parts around its first equals sign. -/
def splitEquals (text : List Char) : Option (List Char × List Char) :=
  match text.dropWhile (· ≠ '=') with
  | [] => none
  | _ :: right => some (text.takeWhile (· ≠ '='), right)

/-- Whether every character is a decimal digit. -/
def allDigits (text : List Char) : Bool := text.all fun char => (Text.decimalValue? char).isSome

/-- Whether a text is a negative number without an exponent; a line feed may follow it. -/
def isNegative (text : List Char) : Bool :=
  match text with
  | '-' :: digits =>
    let digits := if digits.getLast? = some '\n' then digits.dropLast else digits
    match digits.dropWhile (· ≠ '.') with
    | [] => digits ≠ [] ∧ allDigits digits
    | _ :: places => allDigits (digits.takeWhile (· ≠ '.')) ∧ places ≠ [] ∧ allDigits places
  | _ => false

/-! ### Reading words -/

namespace Page

def find? (page : Page) (name : String) : Option Switch := page.names.lookup name

/-- The ways to read a word that starts with two dashes as a shortened option. -/
def longReadings (page : Page) (text : List Char) : List Reading :=
  let (start, attached) := match splitEquals text with
    | none => (text, none)
    | some (left, right) => (left, some right)
  page.names.filterMap fun (name, switch) =>
    if start.isPrefixOf name.toList then some ⟨switch, name, attached⟩ else none

/-- The ways to read a word that starts with one dash as a short option with more behind it. -/
def shortReadings (page : Page) (text : List Char) : List Reading :=
  page.names.filterMap fun (name, switch) =>
    if name.toList = text.take 2 then some ⟨switch, name, some (text.drop 2)⟩
    else if text.isPrefixOf name.toList then some ⟨switch, name, none⟩
    else none

/-- The ways to read a word that is not the exact name of an option. -/
def readings (page : Page) (text : List Char) : List Reading :=
  match text with
  | '-' :: '-' :: _ => page.longReadings text
  | _ => page.shortReadings text

/-- The reading of a word whose part before the equals sign is the exact name of an option. -/
def assignment? (page : Page) (text : List Char) : Option Reading := do
  let (left, right) ← splitEquals text
  let switch ← page.find? (String.ofList left)
  return ⟨switch, String.ofList left, some right⟩

/-- The mark of a word that starts with a dash and has more characters. -/
def markDashed (page : Page) (text : String) : Except Stop Mark :=
  match page.readings text.toList with
  | first :: second :: others =>
    let names := (first :: second :: others).map Reading.name
    .error (.mistake page
      ("ambiguous option: " ++ text ++ " could match " ++ ", ".intercalate names))
  | [reading] => .ok (.option reading)
  | [] =>
    if isNegative text.toList ∨ text.toList.contains ' ' then .ok .value else .ok .unknown

/-- The mark of a word before the divider. -/
def mark (page : Page) (text : String) : Except Stop Mark :=
  match page.find? text, page.assignment? text.toList with
  | some switch, _ => .ok (.option ⟨switch, text, none⟩)
  | none, some reading => .ok (.option reading)
  | none, none =>
    match text.toList with
    | '-' :: _ :: _ => page.markDashed text
    | _ => .ok .value

/-- The words of a command line with their marks. -/
def words (page : Page) : List String → Except Stop (List Word)
  | [] => .ok []
  | text :: rest =>
    if text = divider then .ok (⟨text, .divider⟩ :: rest.map (⟨·, .value⟩))
    else do
      let mark ← page.mark text
      return ⟨text, mark⟩ :: (← page.words rest)

end Page

end ZeroFrame.Command

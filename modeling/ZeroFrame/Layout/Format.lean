/-
This file reads the format text of a layout.

A format may start with a byte-order character, and one without is read as if it started
with `<`. The rest is a row of letters, each after an optional count; blanks may stand
between items but not inside one. Faults are found from the left, after two checks of the
whole text: it must be ASCII, and it must not hold a null character.
-/

import ZeroFrame.Layout.Item
import ZeroFrame.Text.Hex
import ZeroFrame.Text.Quoted

namespace ZeroFrame.Layout

/-! ### Faults -/

/-- What is wrong with an ASCII format. -/
inductive Flaw where
  /-- A character is neither a letter, a digit nor a blank. -/
  | unknownLetter
  /-- The text ends after a count. -/
  | missingLetter
  /-- A count or the size passes `sizeLimit`. -/
  | tooLong
  /-- The text holds a null character. -/
  | nullCharacter
  deriving DecidableEq, Repr

def Flaw.message : Flaw → String
  | .unknownLetter => "bad char in struct format"
  | .missingLetter => "repeat count given without format specifier"
  | .tooLong => "total struct size too long"
  | .nullCharacter => "embedded null character"

/-- A run of characters outside ASCII: its first character, its place and its length. -/
structure Foreign where
  first : Char
  position : Nat
  length : Nat
  deriving DecidableEq, Repr

/-- The wording of a run that cannot be written in ASCII. -/
def Foreign.message (foreign : Foreign) : String :=
  let place :=
    if foreign.length ≤ 1 then
      "character '" ++ String.ofList (Text.escapeCode foreign.first) ++ "' in position " ++
        toString foreign.position
    else
      "characters in position " ++ toString foreign.position ++ "-" ++
        toString (foreign.position + foreign.length - 1)
  "'ascii' codec can't encode " ++ place ++ ": ordinal not in range(128)"

/-- Why a format has no layout. -/
inductive FormatFault where
  | foreign (run : Foreign)
  | flaw (flaw : Flaw)
  deriving DecidableEq, Repr

/-! ### Reading -/

/-- Neither a count nor the size of a layout may pass this number. -/
def sizeLimit : Nat := 0x7fffffffffffffff

/-- The items of the rest of a format, after `offset` bytes and a count that has been read. -/
def readItems (convention : Convention) (count : Option Nat) (offset : Nat) :
    List Char → Except Flaw (List Item)
  | [] => if count.isSome then .error .missingLetter else .ok []
  | char :: rest =>
    if char.isDigit then
      let count := 10 * count.getD 0 + (char.toNat - '0'.toNat)
      if sizeLimit < count then .error .tooLong
      else readItems convention (some count) offset rest
    else if count.isNone ∧ Text.Hex.isBlank char then
      readItems convention none offset rest
    else match Code.ofLetter? convention.native char with
      | none => .error .unknownLetter
      | some code =>
        let gap := code.gap convention offset
        let item : Item := ⟨count.getD 1, code⟩
        let offset := offset + gap + item.size
        if sizeLimit < offset then .error .tooLong
        else
          let before : List Item := if gap = 0 then [item] else [⟨gap, .pad⟩, item]
          (readItems convention none offset rest).map (before ++ ·)

/-- The convention of a format that has no byte-order character. -/
def standard : Convention := ⟨.little, false⟩

/-- The convention of a format, and the items after its byte-order character. -/
def divide (format : List Char) : Convention × List Char :=
  match format with
  | [] => (standard, [])
  | first :: rest =>
    match Convention.ofChar? first with
    | some convention => (convention, rest)
    | none => (standard, format)

/-- The format with its byte-order character, which is `<` unless the text starts with one. -/
def complete (format : List Char) : List Char :=
  match format with
  | [] => ['<']
  | first :: _ => if (Convention.ofChar? first).isSome then format else '<' :: format

def isForeign (char : Char) : Bool := 0x80 ≤ char.toNat

/-- The first run of characters outside ASCII. -/
def foreign? (format : List Char) : Option Foreign :=
  match format.dropWhile (!isForeign ·) with
  | [] => none
  | first :: rest =>
    some ⟨first, (format.takeWhile (!isForeign ·)).length, (rest.takeWhile isForeign).length + 1⟩

/-- The layout of a format. Places are counted in the complete format. -/
def ofFormat (format : String) : Except FormatFault Layout :=
  match foreign? (complete format.toList) with
  | some run => .error (.foreign run)
  | none =>
    if format.toList.contains '\x00' then .error (.flaw .nullCharacter)
    else
      let (convention, body) := divide format.toList
      match readItems convention none 0 body with
      | .error flaw => .error (.flaw flaw)
      | .ok items => .ok ⟨convention, items⟩

end ZeroFrame.Layout

/-
This file says how values are written in a format, as the documentation of formats has it.

A format is a row of letters with counts, blanks between them and possibly a character for the
order of the bytes in front. What is written for a value depends on its letter: a byte string
as it is, a truth value as one byte, a whole number by its digits to base 256, a negative one
in two's complement. The bytes of padding, and those that a native format puts in front of a
number to align it, can be any. Floating-point numbers and counted texts are left out.

Nothing here looks at how a format is read. What a format reads back is shown elsewhere.
-/

import Mathlib
import ZeroFrame.Layout.Item
import ZeroFrame.Message.Field
import ZeroFrame.Value

namespace ZeroFrame.Packing

open Layout Message

/-! ### Formats -/

/-- How many bytes a whole number takes, by the name of its letter. -/
inductive Size where
  | byte
  | short
  | int
  | long
  | quad
  deriving DecidableEq, Repr

inductive Letter where
  | pad
  | char
  | truth
  | whole (size : Size) (signed : Bool)
  | text
  deriving DecidableEq, Repr

/-- A blank between two items. -/
inductive Blank where
  | space
  | tab
  | newline
  | verticalTab
  | formFeed
  | carriageReturn
  deriving DecidableEq, Repr

/-- The character in front of a format. -/
inductive Mark where
  | native
  | host
  | little
  | big
  | network
  deriving DecidableEq, Repr

def Letter.toChar : Letter → Char
  | pad => 'x'
  | char => 'c'
  | truth => '?'
  | text => 's'
  | whole .byte signed => if signed then 'b' else 'B'
  | whole .short signed => if signed then 'h' else 'H'
  | whole .int signed => if signed then 'i' else 'I'
  | whole .long signed => if signed then 'l' else 'L'
  | whole .quad signed => if signed then 'q' else 'Q'

def Blank.toChar : Blank → Char
  | space => ' '
  | tab => '\t'
  | newline => '\n'
  | verticalTab => '\x0b'
  | formFeed => '\x0c'
  | carriageReturn => '\r'

def Mark.toChar : Mark → Char
  | native => '@'
  | host => '='
  | little => '<'
  | big => '>'
  | network => '!'

def digitChar (digit : Fin 10) : Char := Char.ofNat (0x30 + digit)

/-- A letter with the blanks before it and the digits of its count, if it has one. -/
structure Part where
  blanks : List Blank
  digits : List (Fin 10)
  letter : Letter
  deriving DecidableEq, Repr

/-- A format with the blanks at its end. -/
structure Format where
  mark : Option Mark
  parts : List Part
  blanks : List Blank
  deriving DecidableEq, Repr

def Part.text (part : Part) : List Char :=
  part.blanks.map Blank.toChar ++ (part.digits.map digitChar ++ [part.letter.toChar])

def Format.text (format : Format) : String :=
  String.ofList <| (format.mark.map Mark.toChar).toList ++
    (format.parts.flatMap Part.text ++ format.blanks.map Blank.toChar)

/-- A number with one more decimal digit at its end. -/
def withDigit (number : Nat) (digit : Fin 10) : Nat := 10 * number + digit

/-- The number of a row of decimal digits. -/
def decimal (digits : List (Fin 10)) : Nat := digits.foldl withDigit 0

/-- A letter without a count stands for one. -/
def Part.count (part : Part) : Nat := if part.digits = [] then 1 else decimal part.digits

/-! ### Conventions -/

/-- Only `@` asks for alignment and for the long numbers of the machine. -/
def Format.native (format : Format) : Bool := format.mark = some .native

/-- The most significant byte comes first after `>` and `!`, otherwise the least significant one. -/
def Format.endian (format : Format) : Endian :=
  if format.mark = some .big ∨ format.mark = some .network then .big else .little

def Size.bytes (native : Bool) : Size → Nat
  | byte => 1
  | short => 2
  | int => 4
  | long => if native then 8 else 4
  | quad => 8

/-- The number of bytes that one count of the letter takes. -/
def Letter.bytes (native : Bool) : Letter → Nat
  | whole size _ => size.bytes native
  | _ => 1

/-- The number of values of an item: none of padding, one of a text, whatever its count. -/
def Part.arity (part : Part) : Nat :=
  match part.letter with
  | .pad => 0
  | .text => 1
  | _ => part.count

def Part.bytes (native : Bool) (part : Part) : Nat := part.count * part.letter.bytes native

/-! ### Values -/

/-- The range of whole numbers of a size. -/
def Size.InRange (native signed : Bool) (size : Size) (number : Int) : Prop :=
  if signed then
    -2 ^ (8 * size.bytes native - 1) ≤ number ∧ number < 2 ^ (8 * size.bytes native - 1)
  else 0 ≤ number ∧ number < 2 ^ (8 * size.bytes native)

/-- Which values can be written for a letter with a count. -/
inductive Letter.Fits (native : Bool) (count : Nat) : Letter → Value → Prop where
  | char {bytes : Bytes} (single : bytes.length = 1) : Fits native count .char (.bytes bytes)
  | truth (value : Bool) : Fits native count .truth (.bool value)
  | whole {size : Size} {signed : Bool} {number : Int}
      (range : size.InRange native signed number) :
      Fits native count (.whole size signed) (.int number)
  | text {bytes : Bytes} (sized : bytes.length = count) : Fits native count .text (.bytes bytes)

/-- The digits of a whole number, a negative one in two's complement. -/
def digits (endian : Endian) (width : Nat) (number : Int) : Bytes :=
  let least := Bytes.toLittleEndian width (number % 2 ^ (8 * width)).toNat
  match endian with
  | .little => least
  | .big => least.reverse

/-- What is written for a value that fits. -/
def Letter.write (native : Bool) (endian : Endian) : Letter → Value → Bytes
  | whole size _, .int number => digits endian (size.bytes native) number
  | truth, .bool value => [if value then 1 else 0]
  | _, .bytes bytes => bytes
  | _, _ => []

/-- The type of a field for the values of a letter, without any limits. -/
def Letter.fieldType : Letter → FieldType
  | whole _ _ => .int ⟨none, none, none, none⟩
  | truth => .bool
  | _ => .bytes ⟨none, none⟩

/-! ### Bodies -/

/-- So many bytes from a place on; `filler` has a byte for every place. -/
def fill (filler : Nat → UInt8) (place count : Nat) : Bytes :=
  (List.range count).map fun further => filler (place + further)

/-- The first multiple of a unit that is not before a place. -/
def alignUp (place unit : Nat) : Nat := (place + unit - 1) / unit * unit

/-- Where the bytes of an item begin in a body, if those of the item before end at a place. -/
def Part.start (native : Bool) (part : Part) (place : Nat) : Nat :=
  if native then alignUp place (part.letter.bytes native) else place

/-- The bytes of an item with its values. -/
def Part.pack (native : Bool) (endian : Endian) (filler : Nat → UInt8) (part : Part) (place : Nat)
    (values : List Value) : Bytes :=
  match part.letter with
  | .pad => fill filler place part.count
  | letter => values.flatMap (letter.write native endian)

/-- The bytes of some items from a place on, with the values of all of them in order. -/
def packFrom (native : Bool) (endian : Endian) (filler : Nat → UInt8) :
    Nat → List Part → List Value → Bytes
  | _, [], _ => []
  | place, part :: parts, values =>
    let start := part.start native place
    fill filler place (start - place) ++
      (part.pack native endian filler start (values.take part.arity) ++
        packFrom native endian filler (start + part.bytes native) parts (values.drop part.arity))

/-- The body of a message with these values; `filler` gives the bytes of padding and alignment. -/
def Format.pack (format : Format) (filler : Nat → UInt8) (values : List Value) : Bytes :=
  packFrom format.native format.endian filler 0 format.parts values

/-- Whether there is a value for each place of some items, and each fits its letter. -/
def AdmitsFrom (native : Bool) : List Part → List Value → Prop
  | [], values => values = []
  | part :: parts, values =>
    part.arity ≤ values.length ∧
      (∀ value ∈ values.take part.arity, part.letter.Fits native part.count value) ∧
      AdmitsFrom native parts (values.drop part.arity)

def Format.Admits (format : Format) (values : List Value) : Prop :=
  AdmitsFrom format.native format.parts values

/-- The types of fields for the values of a format, in order. -/
def Format.fieldTypes (format : Format) : List FieldType :=
  format.parts.flatMap fun part => List.replicate part.arity part.letter.fieldType

end ZeroFrame.Packing

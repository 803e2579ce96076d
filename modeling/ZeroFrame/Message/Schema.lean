/-
This file describes the messages that a registry can know.

A schema has a name, the index that announces it on the wire, the format of its body and its
fields. A definition may leave parts out and take them from a schema that it extends; the
fields of that schema come first, and a field of the same name is replaced in its place. The
private fields of a definition are not part of the schema.
-/

import ZeroFrame.Layout.Format
import ZeroFrame.Layout.Unpack
import ZeroFrame.Message.Field

namespace ZeroFrame

open Message

/-- A kind of message. -/
structure Schema where
  name : String
  index : Option Int
  format : String
  fields : List Field
  deriving DecidableEq, Repr

namespace Schema

/-- The schema that every definition extends in the end. -/
def base : Schema := ⟨"", none, "", []⟩

/-! ### Definitions -/

/-- The parts of a schema that are written down; the others are taken from the extended one. -/
structure Definition where
  name : String
  index : Option (Option Int)
  format : Option String
  fields : List Field
  /-- The place of the extended schema among those that come before. -/
  extended : Option Nat
  deriving DecidableEq, Repr

/-- Puts a field in the place of one with the same name, or after all others. -/
def placeField (fields : List Field) (field : Field) : List Field :=
  if fields.any (·.name = field.name) then
    fields.map fun other => if other.name = field.name then field else other
  else fields ++ [field]

/-- The schema of a definition, given the schema that it extends. -/
def Definition.over (definition : Definition) (extended : Schema) : Schema :=
  ⟨definition.name, definition.index.getD extended.index, definition.format.getD extended.format,
    (definition.fields.filter (!·.isPrivate)).foldl placeField extended.fields⟩

/-- Adds the schema of a definition to those that come before it. -/
def define (earlier : List Schema) (definition : Definition) : List Schema :=
  let extended := definition.extended.bind fun place => earlier[place]?
  earlier ++ [definition.over (extended.getD base)]

/-- The schemas of definitions, each of which may extend one that comes before it. -/
def ofDefinitions (definitions : List Definition) : List Schema := definitions.foldl define []

/-! ### Flaws -/

/-- Why a schema cannot be registered. -/
inductive Flaw where
  | noIndex
  | indexRange (index : Int)
  | indexTaken (index : Nat) (owner : String)
  | badFormat (format : String) (flaw : Layout.Flaw)
  | arity (format : String) (values fields : Nat)
  deriving DecidableEq, Repr

/-- The wording of a flaw of the schema with the given name. -/
def Flaw.message (name : String) : Flaw → String
  | .noIndex => name ++ " has no rz_index"
  | .indexRange index => name ++ ": rz_index must be 0-65535, got " ++ toString index
  | .indexTaken index owner =>
    name ++ ": index " ++ toString index ++ " already used by " ++ owner
  | .badFormat text flaw =>
    name ++ ": invalid rz_format " ++ Text.quoted text ++ ": " ++ flaw.message
  | .arity text values fields =>
    name ++ ": rz_format " ++ Text.quoted text ++ " yields " ++ toString values ++
      " values for " ++ toString fields ++ " fields"

end Schema

end ZeroFrame

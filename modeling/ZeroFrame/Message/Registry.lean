/-
This file holds the schemas that a link can carry, each under its index.

A payload starts with the index of its message in two bytes, least significant first; the
body follows in the layout of the schema, and bytes past the body are left alone. A schema
enters the registry only if its index is free and its layout yields one value for each of
its fields, so a payload of sufficient length always fills every field.
-/

import ZeroFrame.Fault

namespace ZeroFrame

/-- A message that arrived: the name of its schema and its fields in order. -/
structure Message where
  name : String
  fields : List (String × Value)
  deriving DecidableEq, Repr

/-- The layout of the body of a schema's messages. -/
def Schema.layout (schema : Schema) : Except Fault Layout :=
  match Layout.ofFormat schema.format with
  | .ok layout => .ok layout
  | .error (.foreign run) => .error (.unencodable run)
  | .error (.flaw flaw) => .error (.schema schema.name (.badFormat schema.format flaw))

/-- A schema in a registry, with the index and the layout that were found for it. -/
structure Registry.Entry where
  index : Nat
  schema : Schema
  layout : Layout
  deriving DecidableEq, Repr

/-- The schemas in use, in the order in which they were registered. -/
structure Registry where
  entries : List Registry.Entry
  deriving DecidableEq, Repr

namespace Registry

/-! ### Content -/

def empty : Registry := ⟨[]⟩

def find? (registry : Registry) (index : Nat) : Option Entry :=
  registry.entries.find? (·.index = index)

/-- Whether a schema is registered under a number. -/
def contains (registry : Registry) (index : Int) : Bool :=
  registry.entries.any fun entry => (entry.index : Int) = index

def size (registry : Registry) : Nat := registry.entries.length

/-! ### Registration -/

/-- The largest index that two bytes can hold. -/
def indexLimit : Nat := 0xffff

/-- The index of a schema, if it can be written in two bytes. -/
def indexOf (schema : Schema) : Except Fault Nat :=
  match schema.index with
  | none => .error (.schema schema.name .noIndex)
  | some index =>
    if 0 ≤ index ∧ index ≤ indexLimit then .ok index.toNat
    else .error (.schema schema.name (.indexRange index))

/-- The entry of a schema under an index that is free. A body of zeros is unpacked on trial: there
must be memory for it, every value must have a size, and there must be as many values as fields. -/
def entryAt (memory : Memory) (index : Nat) (schema : Schema) : Except Fault Entry :=
  match schema.layout with
  | .error fault => .error fault
  | .ok layout =>
    if let some shortage := Shortage.ofLayout? memory layout then .error (.shortage shortage)
    else if layout.items.any Layout.Item.isHollow then .error .negativeSize
    else if layout.arity = schema.fields.length then .ok ⟨index, schema, layout⟩
    else .error (.schema schema.name (.arity schema.format layout.arity schema.fields.length))

/-- The entry that a schema would get. -/
def entryFor (registry : Registry) (memory : Memory) (schema : Schema) : Except Fault Entry :=
  match indexOf schema with
  | .error fault => .error fault
  | .ok index =>
    match registry.find? index with
    | some owner => .error (.schema schema.name (.indexTaken index owner.schema.name))
    | none => entryAt memory index schema

def register (registry : Registry) (memory : Memory) (schema : Schema) : Except Fault Registry :=
  (registry.entryFor memory schema).map fun entry => ⟨registry.entries ++ [entry]⟩

/-- The registry of some schemas, registered in order. -/
def ofSchemas (memory : Memory) (schemas : List Schema) : Except Fault Registry :=
  schemas.foldlM (·.register memory ·) empty

/-! ### Reading payloads -/

/-- The number of bytes of an index. -/
def indexSize : Nat := 2

/-- The message that an entry makes of a payload, and how many bytes of the payload it took. -/
def Entry.decode (entry : Entry) (payload : Bytes) : Except Fault (Message × Nat) :=
  let needed := indexSize + entry.layout.size
  if payload.length < needed then
    .error (.shortBody entry.schema.name needed payload.length)
  else
    match Message.fill entry.schema.fields (entry.layout.unpack (payload.drop indexSize)) with
    | .error failures => .error (.invalid entry.schema.name failures)
    | .ok fields => .ok (⟨entry.schema.name, fields⟩, needed)

/-- The message that a payload holds, and how many bytes of the payload it took. -/
def decode (registry : Registry) (payload : Bytes) : Except Fault (Message × Nat) :=
  if payload.length < indexSize then .error (.shortIndex payload.length)
  else
    let index := Bytes.ofLittleEndian (payload.take indexSize)
    match registry.find? index with
    | none => .error (.unknownIndex index)
    | some entry => entry.decode payload

end Registry

end ZeroFrame

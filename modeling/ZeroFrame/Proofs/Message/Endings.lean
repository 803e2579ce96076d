/-
This file shows how the registration of a schema can end.

The checks of a registration come one after the other, and each ending has its own condition, so
exactly one of them holds. Some endings are faults that do not name the schema. A format with a
character outside ASCII is refused before it is read. A body of zeros may be too large to be set
aside, or there may be no memory for it or for its values, and a counted text without a byte for
its count has a negative size. All of them take an index that is free, for the index is checked
first.
-/

import ZeroFrame.Proofs.Layout.Refusal
import ZeroFrame.Proofs.Message.Registration

namespace ZeroFrame

/-! ### Room for bodies -/

/-- There is memory for the bytes of a layout, in a block with a header, and for its values. -/
structure Memory.Holds (memory : Memory) (layout : Layout) : Prop where
  named : layout.size + 33 < 0x8000000000000000
  block : memory.holdsBlock layout.size = true
  values : memory.holdsValues layout = true

namespace Shortage

variable {memory : Memory} {layout : Layout}

end Shortage

/-! ### Layouts of schemas -/

namespace Schema

/-- The layout of a schema is that of its format. If there is none, the fault is the first run of
characters outside ASCII, or it names the schema and a flaw of the ASCII text. -/
inductive LayoutEnding (schema : Schema) : Except Fault Layout → Prop
  | unencodable {run : Layout.Foreign}
      (leads : run.IsFirstOf (Layout.complete schema.format.toList)) :
      LayoutEnding schema (.error (.unencodable run))
  | badFormat {flaw : Layout.Flaw} (refused : Layout.ofFormat schema.format = .error (.flaw flaw)) :
      LayoutEnding schema (.error (.schema schema.name (.badFormat schema.format flaw)))
  | laid {layout : Layout} (read : Layout.ofFormat schema.format = .ok layout) :
      LayoutEnding schema (.ok layout)

variable {schema : Schema} {ending : Except Fault Layout}

end Schema

/-! ### Registrations -/

namespace Registry

variable {registry : Registry} {memory : Memory} {schema : Schema} {index : Nat}
  {ending : Except Fault Registry}

/-- The index of a schema can be written in two bytes, and no entry has it. -/
structure Vacant (registry : Registry) (schema : Schema) (index : Nat) : Prop where
  own : schema.index = some (index : Int)
  range : index ≤ 65535
  free : registry.find? index = none

/-- The ways a registration can end, each with its condition. -/
inductive Ending (registry : Registry) (memory : Memory) (schema : Schema) :
    Except Fault Registry → Prop
  | noIndex (missing : schema.index = none) :
      Ending registry memory schema (.error (.schema schema.name .noIndex))
  | indexRange {number : Int} (own : schema.index = some number)
      (outside : number < 0 ∨ 65535 < number) :
      Ending registry memory schema (.error (.schema schema.name (.indexRange number)))
  | indexTaken {index : Nat} {owner : Entry} (own : schema.index = some (index : Int))
      (range : index ≤ 65535) (taken : registry.find? index = some owner) :
      Ending registry memory schema
        (.error (.schema schema.name (.indexTaken index owner.schema.name)))
  | noLayout {index : Nat} {fault : Fault} (vacant : registry.Vacant schema index)
      (refused : schema.LayoutEnding (.error fault)) :
      Ending registry memory schema (.error fault)
  /-- The body is too large for a block of memory with its header. -/
  | noBlock {index : Nat} {layout : Layout} (vacant : registry.Vacant schema index)
      (laid : schema.LayoutEnding (.ok layout)) (unnamed : 0x8000000000000000 ≤ layout.size + 33) :
      Ending registry memory schema (.error (.shortage .block))
  | noMemory {index : Nat} {layout : Layout} (vacant : registry.Vacant schema index)
      (laid : schema.LayoutEnding (.ok layout)) (named : layout.size + 33 < 0x8000000000000000)
      (lacking : memory.holdsBlock layout.size = false ∨ memory.holdsValues layout = false) :
      Ending registry memory schema (.error (.shortage .memory))
  /-- A counted text has not even the byte that counts it. -/
  | negativeSize {index : Nat} {layout : Layout} (vacant : registry.Vacant schema index)
      (laid : schema.LayoutEnding (.ok layout)) (held : memory.Holds layout)
      (hollow : ⟨0, .counted⟩ ∈ layout.items) :
      Ending registry memory schema (.error .negativeSize)
  | arity {index : Nat} {layout : Layout} (vacant : registry.Vacant schema index)
      (laid : schema.LayoutEnding (.ok layout)) (held : memory.Holds layout)
      (solid : ⟨0, .counted⟩ ∉ layout.items) (unlike : layout.arity ≠ schema.fields.length) :
      Ending registry memory schema
        (.error (.schema schema.name (.arity schema.format layout.arity schema.fields.length)))
  | registered {index : Nat} {layout : Layout} (vacant : registry.Vacant schema index)
      (laid : schema.LayoutEnding (.ok layout)) (held : memory.Holds layout)
      (solid : ⟨0, .counted⟩ ∉ layout.items) (alike : layout.arity = schema.fields.length) :
      Ending registry memory schema (.ok ⟨registry.entries ++ [⟨index, schema, layout⟩]⟩)

/-- A counted text without a byte for its count is laid out, but it cannot be unpacked. -/
example : empty.register .boundless ⟨"Label", some 1, "0p", [⟨"text", .text ⟨none, none⟩⟩]⟩ =
    .error .negativeSize := rfl

end Registry

end ZeroFrame

/-
This file brings the tables of the library under one type, with one type of frames.

A link that does not know beforehand which table it will use works with this one. A frame
may be absent, since a rehearsed table can answer with nothing.
-/

import ZeroFrame.Message.Registry
import ZeroFrame.Table.Rehearsed
import ZeroFrame.Table.Verbatim

namespace ZeroFrame

/-- A frame of any table. -/
inductive Frame where
  | verbatim (payload : Bytes)
  | message (message : Message)
  deriving DecidableEq, Repr

/-- The registry as a table; decoding does not change it. -/
instance : Table Registry Message where
  decode registry payload := (registry.decode payload, registry)

/-- A table of any kind. -/
inductive AnyTable where
  | verbatim (table : Verbatim)
  | rehearsed (table : Rehearsed)
  | messages (registry : Registry)
  deriving Repr

namespace AnyTable

/-- An outcome with its frame put into another type. -/
def mapFrame {φ ψ : Type} (change : φ → ψ) : Except Fault (φ × Nat) → Except Fault (ψ × Nat) :=
  Except.map fun (frame, used) => (change frame, used)

instance : Table AnyTable (Option Frame) where
  decode
    | .verbatim table, payload =>
      let (outcome, table) := Table.decode table payload
      (mapFrame (fun frame => some (.verbatim frame)) outcome, .verbatim table)
    | .rehearsed table, payload =>
      let (outcome, table) := Table.decode table payload
      (mapFrame (·.map .verbatim) outcome, .rehearsed table)
    | .messages registry, payload =>
      let (outcome, registry) := Table.decode registry payload
      (mapFrame (fun frame => some (.message frame)) outcome, .messages registry)

end AnyTable

end ZeroFrame

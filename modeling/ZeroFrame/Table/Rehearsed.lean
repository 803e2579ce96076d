/-
This file gives a table that follows a script.

The table counts the payloads that it is given. For some of them the script has an entry:
a fault to raise, or no frame at all. Every other payload comes back as it is. Such a table
shows what a receiver makes of any outcome, whatever the payload.
-/

import ZeroFrame.Table

namespace ZeroFrame

/-- What the script has for one payload. -/
inductive Rehearsed.Reply where
  | nothing
  | raise (fault : Fault)
  deriving Repr

/-- A script, and the number of payloads so far. -/
structure Rehearsed where
  script : List (Nat × Rehearsed.Reply)
  calls : Nat
  deriving Repr

namespace Rehearsed

/-- What the table makes of the payload with the given number. -/
def answer (script : List (Nat × Reply)) (call : Nat) (payload : Bytes) :
    Except Fault (Option Bytes × Nat) :=
  match script.lookup call with
  | none => .ok (some payload, payload.length)
  | some .nothing => .ok (none, 0)
  | some (.raise fault) => .error fault

instance : Table Rehearsed (Option Bytes) where
  decode table payload :=
    (answer table.script table.calls payload, { table with calls := table.calls + 1 })

end Rehearsed

end ZeroFrame

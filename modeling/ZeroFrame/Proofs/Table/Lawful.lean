/-
This file singles out the tables that are functions of the payload.

A table may keep a state, but a lawful one does not let it show: whatever payloads it has
decoded before, it gives a payload the same answer, and its faults concern the payload only.
What becomes of a frame is then determined by its bytes. Since the payload of a frame is
complete, a table that asks for more of it has found the frame malformed.
-/

import ZeroFrame.Proofs.Message.Reading
import ZeroFrame.Table.Any

namespace ZeroFrame

variable {τ φ : Type}

namespace Table

/-- The table after it has decoded some payloads. -/
def after [Table τ φ] (table : τ) (payloads : List Bytes) : τ :=
  payloads.foldl (fun table payload => (Table.decode table payload).2) table

/-- A table that answers every payload by itself, whatever it has decoded before. -/
def Answers [Table τ φ] (table : τ) (answer : Bytes → Except Fault (φ × Nat)) : Prop :=
  ∀ payloads payload, (Table.decode (after table payloads) payload).1 = answer payload

/-- A table that answers every payload by itself and whose faults are about the payload. -/
structure Lawful [Table τ φ] (table : τ) (answer : Bytes → Except Fault (φ × Nat)) : Prop where
  answers : ∀ payloads payload, (Table.decode (after table payloads) payload).1 = answer payload
  isDecode : ∀ payload fault, answer payload = .error fault → fault.isDecode = true

namespace Answers

variable [Table τ φ] {table : τ} {answer : Bytes → Except Fault (φ × Nat)}

theorem decode_eq (answers : Answers table answer) (payload : Bytes) :
    (Table.decode table payload).1 = answer payload := answers [] payload

/-- A payload does not show in the later answers. -/
theorem next (answers : Answers table answer) (payload : Bytes) :
    Answers (Table.decode table payload).2 answer := fun payloads => answers (payload :: payloads)

end Answers

namespace Lawful

variable [Table τ φ] {table : τ} {answer : Bytes → Except Fault (φ × Nat)}

/-- A table that no payload changes is lawful if its faults are. -/
theorem of_steady (steady : ∀ payload, Table.decode table payload = (answer payload, table))
    (isDecode : ∀ payload fault, answer payload = .error fault → fault.isDecode = true) :
    Lawful table answer := by
  refine ⟨fun payloads payload => ?_, isDecode⟩
  induction payloads with
  | nil => exact congrArg Prod.fst (steady payload)
  | cons first payloads inductionHypothesis =>
    rw [after, List.foldl_cons, steady first]
    exact inductionHypothesis

end Lawful

end Table

/-! ### The outcome of a frame -/

/-- A complete payload never lacks data. -/
theorem Table.kind_of_delimit {size : Nat} {outcome : Except Fault (φ × Nat)} {fault : Fault}
    (failed : Table.delimit size outcome = .error fault) : fault.kind ≠ .unexpectedEnd := by
  cases outcome with
  | ok frame => cases failed
  | error cause =>
    rw [delimit] at failed
    split at failed
    · obtain rfl := Except.error.inj failed
      nofun
    · obtain rfl := Except.error.inj failed
      assumption

/-- What becomes of the encoded bytes of a frame: the codec reads them, and the table answers the
payload, which is known to be complete. -/
def frameOf (answer : Bytes → Except Fault (φ × Nat)) (raw : Bytes) : Except Fault φ :=
  match Codeword.decode raw with
  | .error flaw => .error (.codeword flaw)
  | .ok payload => Table.delimit payload.length (answer payload)

/-- The size of the payload of a frame, zero if the codec refuses its bytes. -/
def decodedSize (raw : Bytes) : Nat :=
  match Codeword.decode raw with
  | .error _ => 0
  | .ok payload => payload.length

theorem frameOf_of_decode {raw payload : Bytes} (read : Codeword.decode raw = .ok payload)
    (answer : Bytes → Except Fault (φ × Nat)) :
    frameOf answer raw = Table.delimit payload.length (answer payload) := by
  rw [frameOf, read]

/-- A complete frame never lacks data. -/
theorem kind_of_frameOf {answer : Bytes → Except Fault (φ × Nat)}
    (isDecode : ∀ payload fault, answer payload = .error fault → fault.isDecode = true)
    {raw : Bytes} {fault : Fault} (failed : frameOf answer raw = .error fault) :
    fault.isDecode = true ∧ fault.kind ≠ .unexpectedEnd := by
  cases read : Codeword.decode raw with
  | error flaw =>
    rw [frameOf, read] at failed
    obtain rfl := Except.error.inj failed
    exact ⟨rfl, nofun⟩
  | ok payload =>
    rw [frameOf_of_decode read] at failed
    refine ⟨?_, Table.kind_of_delimit failed⟩
    cases found : answer payload with
    | ok frame => simp [found, Table.delimit] at failed
    | error cause =>
      simp only [found, Table.delimit] at failed
      split at failed
      · obtain rfl := Except.error.inj failed
        rfl
      · obtain rfl := Except.error.inj failed
        exact isDecode payload cause found

/-! ### Lawful tables of the library -/

theorem Verbatim.lawful (table : Verbatim) :
    Table.Lawful table fun payload => .ok (table.frame payload, (table.frame payload).length) :=
  .of_steady (fun _ => rfl) nofun

theorem Registry.lawful (registry : Registry) : Table.Lawful registry registry.decode :=
  .of_steady (fun _ => rfl) fun _ _ failed => isDecode_of_decode failed

end ZeroFrame

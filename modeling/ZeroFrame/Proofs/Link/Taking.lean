/-
This file says what a receiver makes of the frame in front of its pending bytes.

The frame can be decoded or reported. Both ways cut it off at the same separator and come to
the same outcome, the one that the codec and the table have for its bytes; they differ in
what they hand out and in what they record. With a lawful table the outcome depends on the
bytes alone. An observer that only listens changes nothing: it can stop a run of reports,
but the frame is gone.
-/

import ZeroFrame.Proofs.Link.Judging

namespace ZeroFrame

variable {τ φ : Type} [Table τ φ] {answer : Bytes → Except Fault (φ × Nat)}

/-! ### Decoding -/

namespace Receiver

variable {receiver : Receiver τ} {stop : Nat}

theorem cut?_of_separator? (found : Pending.separator? receiver.pending = some stop) :
    receiver.cut? = some (.frame stop) := by
  rw [cut?, found]

theorem cut?_of_unlimited (unlimited : receiver.limit = none)
    (none : Pending.separator? receiver.pending = none) : receiver.cut? = .none := by
  rw [cut?, none, unlimited]

/-- A frame is judged by its bytes alone, and the table answers as before. -/
theorem judge_frame (answers : Table.Answers receiver.table answer) (stop : Nat) :
    (receiver.judge (.frame stop)).1 = frameOf answer (receiver.pending.take stop) ∧
      Table.Answers (receiver.judge (φ := φ) (.frame stop)).2 answer := by
  cases read : Codeword.decode (receiver.pending.take stop) with
  | error flaw =>
    rw [judge, Cut.payload, frameOf, Cut.stop, read]
    exact ⟨rfl, answers⟩
  | ok payload =>
    rw [judge, Cut.payload, frameOf_of_decode read, Cut.stop, read, ← answers.decode_eq payload]
    exact ⟨rfl, answers.next payload⟩

/-- A complete frame is decoded and gone. -/
theorem decode_of_separator? (lawful : Table.Lawful receiver.table answer)
    (found : Pending.separator? receiver.pending = some stop) :
    ∃ table, Table.Lawful table answer ∧ receiver.decode =
      (frameOf answer (receiver.pending.take stop),
        { receiver.dropFrame stop with
          table := table
          log := receiver.log ++ dropRecords (frameOf answer (receiver.pending.take stop)) }) := by
  obtain ⟨outcome, answers⟩ := judge_frame lawful.answers stop
  refine ⟨_, ⟨answers, lawful.isDecode⟩, ?_⟩
  rw [decode_of_cut? (cut?_of_separator? found), outcome, Cut.records, List.append_nil]
  rfl

theorem decode_of_none (unlimited : receiver.limit = none)
    (none : Pending.separator? receiver.pending = none) :
    receiver.decode (φ := φ) = (.error .noSeparator, receiver) :=
  decode_of_cut?_eq_none (cut?_of_unlimited unlimited none)

end Receiver

/-! ### Reporting to a listener -/

/-- An observer that leaves the receiver alone. From what it has heard it decides whether to raise a
fault. -/
def Listener (φ : Type) : Type := List (Event φ) → Option Fault

/-- The listener that raises no fault. -/
def Listener.silent (φ : Type) : Listener φ := fun _ => none

def Listener.observer (listener : Listener φ) : Observer φ := fun heard =>
  match listener heard with
  | none => .done
  | some fault => .raise fault

/-- How the report ends that a listener has heard last. -/
def Listener.verdict (listener : Listener φ) (heard : List (Event φ)) : Except Fault Bool :=
  match listener heard with
  | none => .ok true
  | some fault => .error fault

theorem Listener.verdict_ne_false (listener : Listener φ) (heard : List (Event φ)) :
    listener.verdict heard ≠ .ok false := by
  rw [Listener.verdict]
  cases listener heard with
  | none => simp
  | some fault => simp

namespace Exchange

variable {exchange : Exchange τ φ} {stop : Nat}

theorem react_listener (report : Exchange τ φ → Except Fault Bool × Exchange τ φ) (call : Nat)
    (listener : Listener φ) (heard : List (Event φ)) (exchange : Exchange τ φ) :
    (react report call (listener.observer heard) exchange).1.map (fun _ => true) =
        listener.verdict heard ∧
      (react report call (listener.observer heard) exchange).2 = exchange := by
  rw [Listener.observer, Listener.verdict]
  cases listener heard with
  | none => exact ⟨rfl, rfl⟩
  | some fault => exact ⟨rfl, rfl⟩

/-- A listener leaves the receiver as it finds it, so the frame is dropped where it was cut. -/
theorem reportNext_listener {cut : Cut} (found : exchange.receiver.cut? = some cut)
    (listener : Listener φ) (depth : Nat) :
    exchange.reportNext listener.observer (depth + 1) =
      match reported (exchange.receiver.judge (φ := φ) cut).1 with
      | .error fault => (.error fault, exchange.refused cut)
      | .ok frame => (listener.verdict (exchange.told cut frame).heard,
          (exchange.told cut frame).dropFrame cut.stop) := by
  cases outcome : reported (exchange.receiver.judge (φ := φ) cut).1 with
  | error fault => exact reportNext_of_refused found outcome listener.observer depth
  | ok frame =>
    obtain ⟨verdict, same⟩ := react_listener (reportNext listener.observer depth)
      exchange.reports listener (exchange.told cut frame).heard (exchange.told cut frame)
    rw [reportNext_of_reported found outcome]
    exact Prod.ext verdict (congrArg (Exchange.dropFrame · cut.stop) same)

/-- A listener that raises no fault lets the receiver go on. -/
theorem reportNext_silent {cut : Cut} {frame : Option φ}
    (found : exchange.receiver.cut? = some cut)
    (isReported : reported (exchange.receiver.judge (φ := φ) cut).1 = .ok frame) (depth : Nat) :
    exchange.reportNext (Listener.silent φ).observer (depth + 1) =
      (.ok true, (exchange.told cut frame).dropFrame cut.stop) := by
  rw [reportNext_listener found, isReported]
  rfl

/-! ### Reports of a lawful table -/

/-- The report of the bytes before a place. -/
def reportAt (answer : Bytes → Except Fault (φ × Nat)) (receiver : Receiver τ) (stop : Nat) :
    Report φ :=
  let raw := receiver.pending.take stop
  ⟨raw, (frameOf answer raw).toOption, decodedSize raw, receiver.pending⟩

theorem reported_frameOf
    (isDecode : ∀ payload fault, answer payload = .error fault → fault.isDecode = true)
    (raw : Bytes) : reported (frameOf answer raw) = .ok (frameOf answer raw).toOption := by
  cases outcome : frameOf answer raw with
  | ok frame => rfl
  | error fault => exact if_pos (kind_of_frameOf isDecode outcome).1

/-- With a lawful table, whatever is cut off is for the observer. -/
theorem reported_judge {receiver : Receiver τ} (lawful : Table.Lawful receiver.table answer)
    (cut : Cut) : reported (receiver.judge (φ := φ) cut).1 =
      .ok (receiver.judge (φ := φ) cut).1.toOption := by
  cases cut with
  | frame stop =>
    rw [(Receiver.judge_frame lawful.answers stop).1]
    exact reported_frameOf lawful.isDecode _
  | overflow size limit => rfl

theorem payloadSize_frame (raw : Bytes) :
    payloadSize ((Cut.frame stop).payload raw) = decodedSize raw := by
  rw [Cut.payload, decodedSize]
  cases Codeword.decode raw <;> rfl

/-- A complete frame is reported and gone, whether or not the listener raises a fault. -/
theorem reportNext_of_separator? (lawful : Table.Lawful exchange.receiver.table answer)
    (found : Pending.separator? exchange.receiver.pending = some stop) (listener : Listener φ)
    (depth : Nat) :
    ∃ table, Table.Lawful table answer ∧
      exchange.reportNext listener.observer (depth + 1) =
        (listener.verdict (.report (reportAt answer exchange.receiver stop) :: exchange.heard),
          ⟨{ exchange.receiver.dropFrame stop with
              table := table
              log := exchange.receiver.log ++ missRecords
                (exchange.receiver.pending.take stop).length
                (frameOf answer (exchange.receiver.pending.take stop)) },
            .report (reportAt answer exchange.receiver stop) :: exchange.heard⟩) := by
  obtain ⟨outcome, answers⟩ := Receiver.judge_frame lawful.answers stop
  have told : reportOf exchange.receiver (.frame stop)
      (frameOf answer (exchange.receiver.pending.take stop)).toOption =
        reportAt answer exchange.receiver stop := by
    rw [reportOf, payloadSize_frame]
    rfl
  refine ⟨_, ⟨answers, lawful.isDecode⟩, ?_⟩
  rw [reportNext_listener (Receiver.cut?_of_separator? found), outcome,
    reported_frameOf lawful.isDecode]
  simp only [Exchange.told, told, outcome, Cut.records, List.append_nil]
  rfl

theorem reportNext_of_none (unlimited : exchange.receiver.limit = none)
    (none : Pending.separator? exchange.receiver.pending = none) (observer : Observer φ)
    (depth : Nat) : exchange.reportNext observer (depth + 1) = (.ok false, exchange) :=
  reportNext_of_cut?_eq_none (Receiver.cut?_of_unlimited unlimited none) observer depth

end Exchange

end ZeroFrame

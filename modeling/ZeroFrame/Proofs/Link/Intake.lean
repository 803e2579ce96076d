/-
This file describes the use of a receiver that gets its frames one at a time.

A frame is got by decoding it or by a report to an observer that only listens. Either way the
answer is that there is none yet, or it says what became of the bytes that were cut off. An
extraction keeps these bytes with the answer. The table may raise any fault: one that does not
concern the frame is an answer like the others, and the frame is gone.
-/

import ZeroFrame.Proofs.Link.Calls

namespace ZeroFrame

variable {τ φ : Type}

/-! ### Getting one frame -/

/-- A way to get the next frame from a receiver. -/
inductive Pull (φ : Type) where
  | decode
  | reportNext (listener : Listener φ)

namespace Pull

def call : Pull φ → Call φ
  | decode => .decode
  | reportNext listener => .reportNext listener

/-- The answer if there is no frame. -/
def lack : Pull φ → Answer φ
  | decode => .decoded (.error .noSeparator)
  | reportNext _ => .reported [] (.ok false)

/-- The answer if a frame with these bytes came to an outcome; `size` is that of its payload. -/
def answer (pull : Pull φ) (raw pending : Bytes) (outcome : Except Fault φ) (size : Nat) :
    Answer φ :=
  match pull with
  | decode => .decoded outcome
  | reportNext listener =>
    match Exchange.reported outcome with
    | .error fault => .reported [] (.error fault)
    | .ok frame =>
      let heard := [.report ⟨raw, frame, size, pending⟩]
      .reported heard (listener.verdict heard)

/-- What is recorded about the frame. -/
def records (pull : Pull φ) (raw : Bytes) (outcome : Except Fault φ) : List Record :=
  match pull with
  | decode => Receiver.dropRecords outcome
  | reportNext _ =>
    match Exchange.reported outcome with
    | .error _ => []
    | .ok _ => Exchange.missRecords raw.length outcome

variable [Table τ φ] {receiver : Receiver τ} {cut : Cut}

theorem run_of_lack (pull : Pull φ) (none : receiver.cut? = none) :
    pull.call.run receiver = (pull.lack, receiver) := by
  cases pull with
  | decode =>
    rw [call, Call.run, Receiver.decode_of_cut?_eq_none none]
    rfl
  | reportNext listener =>
    have begun : (Exchange.start receiver : Exchange τ φ).receiver.cut? = .none := none
    rw [call, Call.run, Exchange.reportNext_of_cut?_eq_none begun]
    rfl

/-- A frame is judged and gone, whichever way it is got. -/
theorem run_of_cut? (pull : Pull φ) (found : receiver.cut? = some cut) :
    pull.call.run receiver =
      (pull.answer (receiver.pending.take cut.stop) receiver.pending (receiver.judge cut).1
          (Exchange.payloadSize (cut.payload (receiver.pending.take cut.stop))),
        { receiver.dropFrame cut.stop with
          table := (receiver.judge (φ := φ) cut).2
          log := receiver.log ++ cut.records ++
            pull.records (receiver.pending.take cut.stop) (receiver.judge (φ := φ) cut).1 }) := by
  cases pull with
  | decode =>
    rw [call, Call.run, Receiver.decode_of_cut? found]
    rfl
  | reportNext listener =>
    have begun : (Exchange.start receiver : Exchange τ φ).receiver.cut? = some cut := found
    rw [call, Call.run, Exchange.reportNext_listener begun, answer, records]
    cases outcome : Exchange.reported (receiver.judge (φ := φ) cut).1 with
    | error fault =>
      simp only [Exchange.start, outcome, List.append_nil]
      rfl
    | ok frame =>
      simp only [Exchange.start, outcome]
      rfl

end Pull

/-! ### Extractions -/

/-- Whether an answer says that a frame has gone. -/
def Answer.extracts : Answer φ → Bool
  | .decoded (.error fault) => fault.kind ≠ .unexpectedEnd
  | .reported _ (.ok more) => more
  | _ => true

theorem Pull.extracts_lack (pull : Pull φ) : pull.lack.extracts = false := by
  cases pull <;> rfl

theorem Pull.extracts_answer (pull : Pull φ) (raw pending : Bytes) {outcome : Except Fault φ}
    (complete : ∀ fault, outcome = .error fault → fault.kind ≠ .unexpectedEnd) (size : Nat) :
    (pull.answer raw pending outcome size).extracts = true := by
  cases pull with
  | decode =>
    cases outcome with
    | ok frame => rfl
    | error fault => exact decide_eq_true (complete fault rfl)
  | reportNext listener =>
    rw [Pull.answer]
    cases Exchange.reported outcome with
    | error fault => rfl
    | ok frame =>
      simp only [Listener.verdict]
      split <;> rfl

/-- The answer tells whether there was a frame. -/
theorem Pull.extracts_run [Table τ φ] (pull : Pull φ) (receiver : Receiver τ) :
    (pull.call.run receiver).1.extracts = receiver.cut?.isSome := by
  cases found : receiver.cut? with
  | none => rw [pull.run_of_lack found, pull.extracts_lack, Option.isSome_none]
  | some cut =>
    rw [pull.run_of_cut? found, Option.isSome_some]
    exact pull.extracts_answer _ _ (fun _ => Receiver.kind_judge_ne) _

/-- A frame that was got: how, the bytes that were cut off, the bytes that were pending before, and
the answer. -/
structure Extraction (φ : Type) where
  pull : Pull φ
  raw : Bytes
  pending : Bytes
  answer : Answer φ

/-- The answer is what the codec and the answers of the table make of the bytes that were cut off,
and of nothing else. -/
def Extraction.Alone (answer : Bytes → Except Fault (φ × Nat)) (extraction : Extraction φ) : Prop :=
  extraction.answer = extraction.pull.answer extraction.raw extraction.pending
    (frameOf answer extraction.raw) (decodedSize extraction.raw)

/-! ### Runs -/

/-- A step in the use of a receiver: a chunk arrives, or the next frame is asked for. -/
inductive Feed (φ : Type) where
  | receive (chunk : Bytes)
  | pull (pull : Pull φ)

def Feed.chunk : Feed φ → Bytes
  | receive chunk => chunk
  | pull _ => []

/-- Everything that arrives in some steps. -/
def fed (feeds : List (Feed φ)) : Bytes := feeds.flatMap Feed.chunk

/-- A receiver with the extractions that were made. -/
structure Intake (τ φ : Type) where
  receiver : Receiver τ
  extracted : List (Extraction φ)

namespace Intake

def start (receiver : Receiver τ) : Intake τ φ := ⟨receiver, []⟩

variable [Table τ φ]

def step (intake : Intake τ φ) : Feed φ → Intake τ φ
  | .receive chunk => { intake with receiver := intake.receiver.receive chunk }
  | .pull pull =>
    let (answer, receiver) := pull.call.run intake.receiver
    ⟨receiver,
      if answer.extracts then
        intake.extracted ++ [⟨pull, intake.receiver.nextRaw, intake.receiver.pending, answer⟩]
      else intake.extracted⟩

def run (intake : Intake τ φ) (feeds : List (Feed φ)) : Intake τ φ := feeds.foldl step intake

variable {intake : Intake τ φ} {cut : Cut}

theorem step_of_lack (none : intake.receiver.cut? = none) (pull : Pull φ) :
    intake.step (.pull pull) = intake := by
  rw [step]
  simp only [pull.run_of_lack none, pull.extracts_lack]
  rfl

theorem step_of_cut? (found : intake.receiver.cut? = some cut) (pull : Pull φ) :
    intake.step (.pull pull) =
      ⟨(pull.call.run intake.receiver).2,
        intake.extracted ++ [⟨pull, intake.receiver.pending.take cut.stop,
          intake.receiver.pending, (pull.call.run intake.receiver).1⟩]⟩ := by
  have raw : intake.receiver.nextRaw = intake.receiver.pending.take cut.stop := by
    rw [Receiver.nextRaw, found]
  rw [step, ← raw]
  simp only [pull.extracts_run, found, Option.isSome_some, if_true]

end Intake

end ZeroFrame

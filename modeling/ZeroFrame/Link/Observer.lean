/-
This file lets an observer watch the frames of a receiver.

An observer is told about every frame that is cut off, also about those without a payload or
without a frame in the table's sense. While it is told, the frame is still pending, and the
observer may use the receiver: it may hand it more bytes, take frames or ask for the next
report. What it does may depend on everything that it has heard so far. The place where the
reported frame ends was found before the observer acted, and the receiver cuts its pending
bytes off at that place afterwards, whatever they have become; it does so even if the
observer raises a fault.
-/

import ZeroFrame.Link.Receiver

namespace ZeroFrame

/-! ### What an observer hears -/

/-- What an observer is told about a frame. -/
structure Report (φ : Type) where
  /-- The bytes of the frame, still encoded. -/
  raw : Bytes
  /-- The frame, unless the bytes are malformed or the table refused the payload. -/
  frame : Option φ
  /-- The size of the payload, zero if the bytes are malformed. -/
  size : Nat
  /-- The bytes that are pending while the observer is told. -/
  pending : Bytes
  deriving Repr

/-- Something that an observer has heard. -/
inductive Event (φ : Type) where
  | report (report : Report φ)
  /-- The frame that the observer took while it was told report number `call`. -/
  | taken (call : Nat) (outcome : Except Fault φ)
  /-- Whether a further frame was reported while the observer was told report number `call`. -/
  | nested (call : Nat) (outcome : Except Fault Bool)

def Event.isReport {φ : Type} : Event φ → Bool
  | report _ => true
  | _ => false

/-! ### What an observer does -/

/-- What an observer does when it is told about a frame. -/
inductive Reaction (φ : Type) where
  /-- It lets the receiver go on. -/
  | done
  | raise (fault : Fault)
  | receive (chunk : Bytes) (rest : Reaction φ)
  /-- It takes a frame from the receiver and goes on from the outcome. -/
  | decode (rest : Except Fault φ → Reaction φ)
  /-- It asks for the next report and goes on from the outcome. -/
  | reportNext (rest : Except Fault Bool → Reaction φ)

/-- An observer decides from what it has heard, the latest event first. -/
def Observer (φ : Type) : Type := List (Event φ) → Reaction φ

/-- The observer that only listens. -/
def Observer.silent (φ : Type) : Observer φ := fun _ => .done

/-- A receiver with everything that its observer has heard, the latest event first. -/
structure Exchange (τ φ : Type) where
  receiver : Receiver τ
  heard : List (Event φ)

namespace Exchange

variable {τ φ : Type}

def start (receiver : Receiver τ) : Exchange τ φ := ⟨receiver, []⟩

def reports (exchange : Exchange τ φ) : Nat := exchange.heard.countP Event.isReport

def tell (exchange : Exchange τ φ) (event : Event φ) : Exchange τ φ :=
  { exchange with heard := event :: exchange.heard }

/-- Cuts the pending bytes off at a place. -/
def dropFrame (exchange : Exchange τ φ) (stop : Nat) : Exchange τ φ :=
  { exchange with receiver := exchange.receiver.dropFrame stop }

/-- Carries out the reaction to report number `call`; `report` makes the next report. -/
def react [Table τ φ] (report : Exchange τ φ → Except Fault Bool × Exchange τ φ) (call : Nat) :
    Reaction φ → Exchange τ φ → Except Fault Unit × Exchange τ φ
  | .done, exchange => (.ok (), exchange)
  | .raise fault, exchange => (.error fault, exchange)
  | .receive chunk rest, exchange =>
    react report call rest { exchange with receiver := exchange.receiver.receive chunk }
  | .decode rest, exchange =>
    let (outcome, receiver) := exchange.receiver.decode
    react report call (rest outcome)
      ({ exchange with receiver := receiver }.tell (.taken call outcome))
  | .reportNext rest, exchange =>
    let (outcome, exchange) := report exchange
    react report call (rest outcome) (exchange.tell (.nested call outcome))

/-- What an observer is told in place of a frame; a fault that does not concern the frame is not for
the observer. -/
def reported : Except Fault φ → Except Fault (Option φ)
  | .ok frame => .ok (some frame)
  | .error fault => if fault.isDecode then .ok none else .error fault

/-- What a receiver records when there is no frame to report. -/
def missRecords (size : Nat) : Except Fault φ → List Record
  | .ok _ => []
  | .error fault =>
    [⟨.debug, "Frame of " ++ toString size ++ " encoded bytes did not decode: " ++ fault.message⟩]

/-- The size of a payload, zero if there is none. -/
def payloadSize : Except Fault Bytes → Nat
  | .ok payload => payload.length
  | .error _ => 0

/-- Reports the next frame to the observer, and tells whether there was one. Reports may be nested
`depth` deep. -/
def reportNext [Table τ φ] (observer : Observer φ) :
    Nat → Exchange τ φ → Except Fault Bool × Exchange τ φ
  | 0, exchange => (.error .nesting, exchange)
  | depth + 1, exchange =>
    match exchange.receiver.cut? with
    | none => (.ok false, exchange)
    | some cut =>
      let raw := exchange.receiver.pending.take cut.stop
      let payload := cut.payload raw
      let (outcome, receiver) := (exchange.receiver.record cut.records).resolve payload
      match reported outcome with
      | .error fault =>
        (.error fault, { exchange with receiver := receiver }.dropFrame cut.stop)
      | .ok frame =>
        let receiver := receiver.record (missRecords raw.length outcome)
        let told := { exchange with receiver := receiver }.tell
          (.report ⟨raw, frame, payloadSize payload, receiver.pending⟩)
        let (outcome, after) := react (reportNext observer depth) exchange.reports
          (observer told.heard) told
        (outcome.map fun _ => true, after.dropFrame cut.stop)

/-! ### All frames -/

/-- How reporting all frames came to an end. -/
inductive Ending where
  /-- No frame was left after so many reports. -/
  | finished (count : Nat)
  | failed (fault : Fault)
  /-- The rounds were used up first. -/
  | unfinished
  deriving Repr

/-- Reports frames until none is left, in at most `rounds` rounds after `count` reports. -/
def reportFrom [Table τ φ] (observer : Observer φ) (depth : Nat) (rounds count : Nat)
    (exchange : Exchange τ φ) : Ending × Exchange τ φ :=
  match rounds with
  | 0 => (.unfinished, exchange)
  | rounds + 1 =>
    match exchange.reportNext observer depth with
    | (.ok true, after) => reportFrom observer depth rounds (count + 1) after
    | (.ok false, after) => (.finished count, after)
    | (.error fault, after) => (.failed fault, after)

def reportAll [Table τ φ] (observer : Observer φ) (depth rounds : Nat) (exchange : Exchange τ φ) :
    Ending × Exchange τ φ :=
  reportFrom observer depth rounds 0 exchange

end Exchange

end ZeroFrame

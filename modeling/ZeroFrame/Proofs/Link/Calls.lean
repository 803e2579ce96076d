/-
This file describes the use of a receiver as a run of calls, and what the calls take from it.

Calls hand bytes over and take frames off, one or many at a time and in any order. Which
frames they took is read off their answers: an outcome of decoding counts unless it only
says that there is no frame yet, and every report counts. The encoded bytes of a decoded
frame are those that the receiver was about to cut off.
-/

import ZeroFrame.Link.Session
import ZeroFrame.Proofs.Link.Taking

namespace ZeroFrame

variable {τ φ : Type}

/-! ### Calls and what they take -/

/-- A call on a receiver whose observers only listen. -/
inductive Call (φ : Type) where
  | receive (chunk : Bytes)
  | decode
  | reportNext (listener : Listener φ)
  | reportAll (listener : Listener φ)

def Call.chunk : Call φ → Bytes
  | .receive chunk => chunk
  | .decode => []
  | .reportNext _ => []
  | .reportAll _ => []

/-- Everything that some calls hand over. -/
def supply (calls : List (Call φ)) : Bytes := calls.flatMap Call.chunk

/-- Carries a call out. A listener nests no reports, so one level is enough for it, and each round
of reports uses up a pending byte. -/
def Call.run [Table τ φ] (call : Call φ) (receiver : Receiver τ) : Answer φ × Receiver τ :=
  match call with
  | .receive chunk => (.done, receiver.receive chunk)
  | .decode =>
    let (outcome, receiver) := receiver.decode
    (.decoded outcome, receiver)
  | .reportNext listener =>
    let (outcome, exchange) := (Exchange.start receiver).reportNext listener.observer 1
    (.reported exchange.heard.reverse outcome, exchange.receiver)
  | .reportAll listener =>
    let (ending, exchange) := (Exchange.start receiver).reportAll listener.observer 1
      (receiver.pending.length + 1)
    (.reportedAll exchange.heard.reverse ending, exchange.receiver)

theorem Call.run_reportAll [Table τ φ] (receiver : Receiver τ) {listener : Listener φ}
    {ending : Exchange.Ending} {after : Exchange τ φ}
    (ended : (Exchange.start receiver).reportFrom listener.observer 1 (receiver.pending.length + 1)
      0 = (ending, after)) :
    (Call.reportAll listener).run receiver =
      (.reportedAll after.heard.reverse ending, after.receiver) := by
  rw [Call.run, Exchange.reportAll, ended]

/-- A frame that was taken off the pending bytes. -/
inductive Taking (φ : Type) where
  | decoded (raw : Bytes) (outcome : Except Fault φ)
  | reported (report : Report φ)

namespace Taking

def raw : Taking φ → Bytes
  | decoded raw _ => raw
  | reported report => report.raw

/-- Whether what was handed out is this outcome; a report does not tell why there is no frame. -/
def Shows (outcome : Except Fault φ) : Taking φ → Prop
  | decoded _ seen => seen = outcome
  | reported report => report.frame = outcome.toOption

/-- Whether the frame came to what the codec and the answers of the table make of its bytes. -/
def Agrees (answer : Bytes → Except Fault (φ × Nat)) : Taking φ → Prop
  | decoded raw outcome => outcome = frameOf answer raw
  | reported report => report.frame = (frameOf answer report.raw).toOption ∧
      report.size = decodedSize report.raw

theorem Agrees.shows {answer : Bytes → Except Fault (φ × Nat)} {taking : Taking φ}
    (agrees : taking.Agrees answer) : taking.Shows (frameOf answer taking.raw) := by
  cases taking with
  | decoded raw outcome => exact agrees
  | reported report => exact agrees.1

/-- What a receiver records about the frame. -/
def records (answer : Bytes → Except Fault (φ × Nat)) : Taking φ → List Record
  | decoded raw _ => Receiver.dropRecords (frameOf answer raw)
  | reported report => Exchange.missRecords report.raw.length (frameOf answer report.raw)

end Taking

/-- The report in an event. -/
def Event.report? : Event φ → Option (Report φ)
  | .report heard => some heard
  | _ => none

/-- The frames that a call has taken, judging by its answer: there is one for every report, and one
for an outcome that is not the lack of data. The bytes of the latter are `raw`. -/
def Answer.takings (raw : Bytes) : Answer φ → List (Taking φ)
  | .decoded (.ok frame) => [.decoded raw (.ok frame)]
  | .decoded (.error fault) =>
    if fault.kind = .unexpectedEnd then [] else [.decoded raw (.error fault)]
  | .reported heard _ => (heard.filterMap Event.report?).map .reported
  | .reportedAll heard _ => (heard.filterMap Event.report?).map .reported
  | _ => []

/-- The bytes that the next frame is cut off as. -/
def Receiver.nextRaw (receiver : Receiver τ) : Bytes :=
  match receiver.cut? with
  | none => []
  | some cut => receiver.pending.take cut.stop

/-- A receiver with all frames that were taken from it. -/
structure Progress (τ φ : Type) where
  receiver : Receiver τ
  taken : List (Taking φ)

namespace Progress

/-- A receiver without a limit that has received nothing. -/
def start (table : τ) : Progress τ φ := ⟨Receiver.fresh none table, []⟩

/-- Carries a call out and keeps what it takes. -/
def step [Table τ φ] (progress : Progress τ φ) (call : Call φ) : Progress τ φ :=
  let (answer, receiver) := call.run progress.receiver
  ⟨receiver, progress.taken ++ answer.takings progress.receiver.nextRaw⟩

def run [Table τ φ] (progress : Progress τ φ) (calls : List (Call φ)) : Progress τ φ :=
  calls.foldl step progress

end Progress

/-! ### Answers and what they take -/

theorem Answer.takings_decoded {answer : Bytes → Except Fault (φ × Nat)}
    (isDecode : ∀ payload fault, answer payload = .error fault → fault.isDecode = true)
    (raw : Bytes) :
    (Answer.decoded (frameOf answer raw)).takings raw = [.decoded raw (frameOf answer raw)] := by
  cases outcome : frameOf answer raw with
  | ok frame => rfl
  | error fault => exact if_neg (kind_of_frameOf isDecode outcome).2

theorem filterMap_report? (reports : List (Report φ)) :
    (reports.map Event.report).filterMap Event.report? = reports := by
  rw [List.filterMap_map]
  exact List.filterMap_some

theorem Receiver.nextRaw_of_separator? {receiver : Receiver τ} {stop : Nat}
    (found : Pending.separator? receiver.pending = some stop) :
    receiver.nextRaw = receiver.pending.take stop := by
  rw [nextRaw, cut?_of_separator? found]
  rfl

end ZeroFrame

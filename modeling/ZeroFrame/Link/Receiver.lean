/-
This file turns the bytes of a link into frames.

A receiver keeps the bytes that are pending and cuts one frame at a time off their front. A
frame is complete when its separator has arrived. If a limit is set and more bytes than that
are pending without a separator, all of them are given up as one malformed frame. Whatever
becomes of a frame, its bytes and the separators after it are gone afterwards, so a bad
frame never stalls the link; only when no frame is complete do the bytes stay.
-/

import ZeroFrame.Codeword.Decode
import ZeroFrame.Link.Pending
import ZeroFrame.Table

namespace ZeroFrame

/-! ### Configuration -/

/-- The limit of a receiver, which must be positive if it is given. -/
def limitOf (limit : Option Int) : Except Fault (Option Nat) :=
  match limit with
  | none => .ok none
  | some limit => if 0 < limit then .ok (some limit.toNat) else .error (.badLimit limit)

/-! ### Reports for the operator -/

/-- How much attention a record asks for. -/
inductive Level where
  | debug
  | warning
  deriving DecidableEq, Repr

/-- A line for the operator. -/
structure Record where
  level : Level
  text : String
  deriving DecidableEq, Repr

/-! ### Receivers -/

/-- One end of a link. -/
structure Receiver (τ : Type) where
  /-- How many bytes may be pending without a separator. -/
  limit : Option Nat
  pending : Bytes
  table : τ
  /-- The records so far, the first one first. -/
  log : List Record
  deriving Repr

/-- Where the next frame ends. -/
inductive Cut where
  /-- At the separator at `stop`. -/
  | frame (stop : Nat)
  /-- At the end of the `size` pending bytes, which are more than the limit. -/
  | overflow (size limit : Nat)
  deriving DecidableEq, Repr

namespace Cut

/-- The number of bytes that are cut off. -/
def stop : Cut → Nat
  | frame stop => stop
  | overflow size _ => size

/-- What a receiver records when it finds the cut. -/
def records : Cut → List Record
  | frame _ => []
  | overflow size limit =>
    [⟨.warning, "Discarding " ++ toString size ++ " buffered bytes without a separator (limit " ++
      toString limit ++ ")"⟩]

/-- The payload of the bytes that are cut off. -/
def payload (cut : Cut) (raw : Bytes) : Except Fault Bytes :=
  match cut with
  | frame _ => (Codeword.decode raw).mapError .codeword
  | overflow _ limit => .error (.overflow limit)

end Cut

namespace Receiver

variable {τ φ : Type}

def fresh (limit : Option Nat) (table : τ) : Receiver τ := ⟨limit, [], table, []⟩

/-- Adds a chunk to the pending bytes. -/
def receive (receiver : Receiver τ) (chunk : Bytes) : Receiver τ :=
  { receiver with pending := Pending.receive receiver.pending chunk }

def record (receiver : Receiver τ) (records : List Record) : Receiver τ :=
  { receiver with log := receiver.log ++ records }

/-- Cuts the pending bytes off at a place. -/
def dropFrame (receiver : Receiver τ) (stop : Nat) : Receiver τ :=
  { receiver with pending := Pending.dropFrame receiver.pending stop }

/-- Where the next frame ends, if there is one. -/
def cut? (receiver : Receiver τ) : Option Cut :=
  match Pending.separator? receiver.pending with
  | some stop => some (.frame stop)
  | none =>
    match receiver.limit with
    | none => none
    | some limit =>
      if limit < receiver.pending.length then some (.overflow receiver.pending.length limit)
      else none

/-- Cutting the next frame off uses up some pending byte. -/
theorem length_dropFrame_lt {receiver : Receiver τ} {cut : Cut} (found : receiver.cut? = some cut) :
    (receiver.dropFrame cut.stop).pending.length < receiver.pending.length := by
  unfold cut? at found
  split at found
  case h_1 stop separated =>
    obtain rfl := Option.some.inj found
    exact Pending.length_dropFrame_lt separated
  case h_2 =>
    split at found
    case h_1 => cases found
    case h_2 limit _ =>
      split at found
      case isTrue beyond =>
        obtain rfl := Option.some.inj found
        have shorter := Pending.length_dropFrame_le receiver.pending receiver.pending.length
        simp only [dropFrame, Cut.stop]
        omega
      case isFalse => cases found

/-! ### Single frames -/

/-- What became of a frame, after the table has seen its payload. -/
def resolve [Table τ φ] (receiver : Receiver τ) (payload : Except Fault Bytes) :
    Except Fault φ × Receiver τ :=
  match payload with
  | .error fault => (.error fault, receiver)
  | .ok payload =>
    let (outcome, table) := Table.decodeDelimited receiver.table payload
    (outcome, { receiver with table := table })

/-- What a receiver records when a frame was dropped. -/
def dropRecords : Except Fault φ → List Record
  | .ok _ => []
  | .error fault =>
    if fault.kind = .malformed then [⟨.debug, "Dropped malformed frame: " ++ fault.message⟩] else []

/-- Takes the next frame. The bytes of the frame are gone afterwards, whether the table accepted its
payload or not; without a complete frame nothing changes. -/
def decode [Table τ φ] (receiver : Receiver τ) : Except Fault φ × Receiver τ :=
  match receiver.cut? with
  | none => (.error .noSeparator, receiver)
  | some cut =>
    let payload := cut.payload (receiver.pending.take cut.stop)
    let (outcome, receiver) := ((receiver.record cut.records).dropFrame cut.stop).resolve payload
    (outcome, receiver.record (dropRecords outcome))

/-- The receiver after the table has seen a payload has the same bytes pending. -/
@[simp] theorem pending_resolve [Table τ φ] (receiver : Receiver τ) (payload : Except Fault Bytes) :
    (resolve (φ := φ) receiver payload).2.pending = receiver.pending := by
  cases payload <;> rfl

/-- Taking a frame uses up some pending byte. -/
theorem length_decode_lt [Table τ φ] {receiver : Receiver τ} {cut : Cut}
    (found : receiver.cut? = some cut) :
    (receiver.decode (φ := φ)).2.pending.length < receiver.pending.length := by
  have shorter := length_dropFrame_lt found
  simpa [decode, found, record, dropFrame] using shorter

/-! ### All frames -/

/-- A frame was taken only if pending bytes were used up. -/
theorem length_lt_of_decode_ok [Table τ φ] {receiver next : Receiver τ} {frame : φ}
    (taken : receiver.decode = (.ok frame, next)) :
    next.pending.length < receiver.pending.length := by
  cases found : receiver.cut? with
  | none => simp [decode, found] at taken
  | some cut =>
    have shorter := length_decode_lt (φ := φ) found
    rwa [taken] at shorter

/-- The fault that interrupts a run of frames; that there is no further one is no fault. A table's
fault that would be taken for the end of the run comes wrapped. -/
def interruption (fault : Fault) : Option Fault :=
  if fault.kind = .unexpectedEnd then none
  else if fault.kind = .exhausted then some (.exhausted fault)
  else some fault

/-- Takes frames until none is complete or one is at fault. The frames come in order, with the fault
that interrupted them, if any. -/
def collect [Table τ φ] (receiver : Receiver τ) : List φ × Option Fault × Receiver τ :=
  match _taken : receiver.decode with
  | (.error fault, next) => ([], interruption fault, next)
  | (.ok frame, next) =>
    let (frames, fault, last) := collect next
    (frame :: frames, fault, last)
termination_by receiver.pending.length
decreasing_by exact length_lt_of_decode_ok (by assumption)

/-! ### Iterators -/

/-- What an iterator gives. -/
inductive Item (φ : Type) where
  | frame (frame : φ)
  | finished
  | fault (fault : Fault)

/-- Takes one frame from an iterator. The flag says whether the iterator is live: one that has ended
or met a fault stays ended, whatever arrives afterwards. -/
def next [Table τ φ] (receiver : Receiver τ) (live : Bool) : Item φ × Bool × Receiver τ :=
  if live then
    match receiver.decode with
    | (.ok frame, receiver) => (.frame frame, true, receiver)
    | (.error fault, receiver) =>
      match interruption fault with
      | none => (.finished, false, receiver)
      | some fault => (.fault fault, false, receiver)
  else (.finished, false, receiver)

end Receiver

end ZeroFrame

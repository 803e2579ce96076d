/-
This file says what a receiver makes of its next frame, whatever the table and the limit.

Taking a frame and reporting it find the same cut and judge its bytes alike: the codec reads
them, unless they overflow the limit, and the table answers the payload. The judgement
depends on the bytes and the table alone. What the two ways do around it is different: the one
drops the frame before the table is asked, the other after the observer was told.
-/

import ZeroFrame.Link.Observer
import ZeroFrame.Proofs.Link.Stream
import ZeroFrame.Proofs.Table.Lawful

namespace ZeroFrame

variable {τ φ : Type} [Table τ φ]

/-! ### Faults of a complete frame -/

/-- Bytes that were cut off and have no payload are malformed. -/
theorem Cut.kind_of_payload {cut : Cut} {raw : Bytes} {fault : Fault}
    (failed : cut.payload raw = .error fault) : fault.kind = .malformed := by
  cases cut with
  | frame stop =>
    rw [payload] at failed
    cases read : Codeword.decode raw with
    | error flaw =>
      rw [read] at failed
      obtain rfl := Except.error.inj failed
      rfl
    | ok payload =>
      rw [read] at failed
      cases failed
  | overflow size limit =>
    obtain rfl := Except.error.inj failed
    rfl

/-! ### Where the next frame ends -/

namespace Receiver

omit [Table τ φ] in
/-- There is no frame, or one that a separator ends, or more than the limit allows. -/
theorem cut?_cases (receiver : Receiver τ) :
    (receiver.cut? = none ∧ separator ∉ receiver.pending ∧
        ∀ bound, receiver.limit = some bound → receiver.pending.length ≤ bound) ∨
      (∃ stop, receiver.cut? = some (.frame stop) ∧
        Pending.separator? receiver.pending = some stop) ∨
      ∃ bound, receiver.cut? = some (.overflow receiver.pending.length bound) ∧
        separator ∉ receiver.pending ∧ receiver.limit = some bound ∧
        bound < receiver.pending.length := by
  rw [cut?]
  cases found : Pending.separator? receiver.pending with
  | some stop => exact Or.inr (Or.inl ⟨stop, rfl, rfl⟩)
  | none =>
    rw [Pending.separator?_eq_none_iff] at found
    cases limited : receiver.limit with
    | none => exact Or.inl ⟨rfl, found, nofun⟩
    | some bound =>
      by_cases beyond : bound < receiver.pending.length
      · exact Or.inr (Or.inr ⟨bound, if_pos beyond, found, rfl, beyond⟩)
      · refine Or.inl ⟨if_neg beyond, found, fun other same => ?_⟩
        obtain rfl := Option.some.inj same
        exact Nat.le_of_not_lt beyond

omit [Table τ φ] in
/-- A cut is at a separator or gives all pending bytes up. -/
theorem cases_of_cut? {receiver : Receiver τ} {cut : Cut} (found : receiver.cut? = some cut) :
    (∃ stop, cut = .frame stop ∧ Pending.separator? receiver.pending = some stop) ∨
      ∃ bound, cut = .overflow receiver.pending.length bound ∧ separator ∉ receiver.pending ∧
        receiver.limit = some bound ∧ bound < receiver.pending.length := by
  rcases receiver.cut?_cases with ⟨none, _⟩ | ⟨stop, isFrame, separated⟩ | ⟨bound, isOver, given⟩
  · rw [found] at none
    cases none
  · exact Or.inl ⟨stop, Option.some.inj (found.symm.trans isFrame), separated⟩
  · exact Or.inr ⟨bound, Option.some.inj (found.symm.trans isOver), given⟩

omit [Table τ φ] in
/-- Without a cut no separator is pending, and the limit is kept. -/
theorem of_cut?_eq_none {receiver : Receiver τ} (lack : receiver.cut? = none) :
    separator ∉ receiver.pending ∧
      ∀ bound, receiver.limit = some bound → receiver.pending.length ≤ bound := by
  rcases receiver.cut?_cases with ⟨_, within⟩ | ⟨stop, found, _⟩ | ⟨bound, found, _⟩
  · exact within
  · rw [lack] at found
    cases found
  · rw [lack] at found
    cases found

end Receiver

/-! ### Judgements -/

namespace Receiver

variable {receiver : Receiver τ} {cut : Cut}

/-- What becomes of the bytes that are cut off, and the table afterwards. -/
def judge (receiver : Receiver τ) (cut : Cut) : Except Fault φ × τ :=
  match cut.payload (receiver.pending.take cut.stop) with
  | .error fault => (.error fault, receiver.table)
  | .ok payload => Table.decodeDelimited receiver.table payload

/-- Whatever else has changed meanwhile, resolving the payload of a cut is judging the cut. -/
theorem resolve_eq_judge (receiver later : Receiver τ) (cut : Cut)
    (sameTable : later.table = receiver.table) :
    later.resolve (cut.payload (receiver.pending.take cut.stop)) =
      ((receiver.judge cut).1, { later with table := (receiver.judge (φ := φ) cut).2 }) := by
  rw [judge]
  cases cut.payload (receiver.pending.take cut.stop) with
  | error fault => rw [resolve, ← sameTable]
  | ok payload => rw [resolve, sameTable]

/-- A frame that was judged is complete, so it never lacks data. -/
theorem kind_judge_ne {fault : Fault} (failed : (receiver.judge (φ := φ) cut).1 = .error fault) :
    fault.kind ≠ .unexpectedEnd := by
  rw [judge] at failed
  cases read : cut.payload (receiver.pending.take cut.stop) with
  | error flaw =>
    rw [read] at failed
    obtain rfl := Except.error.inj failed
    rw [Cut.kind_of_payload read]
    decide
  | ok payload =>
    rw [read] at failed
    exact Table.kind_of_delimit failed

/-! ### Taking a frame -/

theorem decode_of_cut?_eq_none (none : receiver.cut? = none) :
    receiver.decode (φ := φ) = (.error .noSeparator, receiver) := by
  rw [decode, none]

theorem decode_of_cut? (found : receiver.cut? = some cut) :
    receiver.decode (φ := φ) =
      ((receiver.judge cut).1,
        { receiver.dropFrame cut.stop with
          table := (receiver.judge (φ := φ) cut).2
          log := receiver.log ++ cut.records ++ dropRecords (receiver.judge (φ := φ) cut).1 }) := by
  rw [decode, found]
  dsimp only
  rw [resolve_eq_judge receiver]
  · rfl
  · rfl

/-- Only the lack of a frame looks like it: no frame that is cut off comes to such a fault. -/
theorem cut?_of_decode_lack {fault : Fault}
    (failed : (receiver.decode (φ := φ)).1 = .error fault) (lack : fault.kind = .unexpectedEnd) :
    receiver.cut? = none ∧ (receiver.decode (φ := φ)).2 = receiver := by
  cases found : receiver.cut? with
  | none => exact ⟨rfl, by rw [decode_of_cut?_eq_none found]⟩
  | some cut =>
    rw [decode_of_cut? found] at failed
    exact absurd lack (kind_judge_ne failed)

theorem interruption_eq_none_iff {fault : Fault} :
    interruption fault = none ↔ fault.kind = .unexpectedEnd := by
  unfold interruption
  split
  case isTrue lack => exact iff_of_true rfl lack
  case isFalse other =>
    refine iff_of_false ?_ other
    split
    case isTrue => exact nofun
    case isFalse => exact nofun

/-! ### Asking an iterator -/

def Item.isFrame : Item φ → Bool
  | .frame _ => true
  | .finished => false
  | .fault _ => false

/-- What an iterator makes of an outcome of decoding. The lack of a frame is its end, and a fault
that looks like an end comes as a fault of the iterator itself, with the other as its cause. -/
def Item.ofOutcome : Except Fault φ → Item φ
  | .ok taken => .frame taken
  | .error cause =>
    if cause.kind = .unexpectedEnd then .finished
    else if cause.kind = .exhausted then .fault (.exhausted cause)
    else .fault cause

omit [Table τ φ] in
theorem Item.exists_ofOutcome_error {cause : Fault} (other : cause.kind ≠ .unexpectedEnd) :
    ∃ fault, (ofOutcome (.error cause) : Item φ) = .fault fault := by
  rw [ofOutcome, if_neg other]
  split
  case isTrue => exact ⟨_, rfl⟩
  case isFalse => exact ⟨_, rfl⟩

omit [Table τ φ] in
theorem Item.ofOutcome_eq_finished_iff {outcome : Except Fault φ} :
    ofOutcome outcome = .finished ↔
      ∃ fault, outcome = .error fault ∧ fault.kind = .unexpectedEnd := by
  cases outcome with
  | ok taken => simp [ofOutcome]
  | error cause =>
    by_cases lack : cause.kind = .unexpectedEnd
    · simp [ofOutcome, lack]
    · obtain ⟨fault, given⟩ := exists_ofOutcome_error (φ := φ) lack
      simp [given, lack]

/-- A live iterator decodes, and goes on after a frame only. -/
theorem next_true (receiver : Receiver τ) :
    receiver.next (φ := φ) true =
      (.ofOutcome receiver.decode.1, (Item.ofOutcome (receiver.decode (φ := φ)).1).isFrame,
        (receiver.decode (φ := φ)).2) := by
  cases taken : receiver.decode (φ := φ) with
  | mk outcome after =>
    cases outcome with
    | ok frame => simp [next, taken, Item.ofOutcome, Item.isFrame]
    | error fault =>
      by_cases lack : fault.kind = .unexpectedEnd
      · simp [next, taken, interruption, lack, Item.ofOutcome, Item.isFrame]
      · by_cases exhausted : fault.kind = .exhausted
        · simp [next, taken, interruption, exhausted, Item.ofOutcome, Item.isFrame]
        · simp [next, taken, interruption, lack, exhausted, Item.ofOutcome, Item.isFrame]

end Receiver

/-! ### Reporting a frame -/

namespace Exchange

variable {exchange : Exchange τ φ} {cut : Cut} {fault : Fault} {frame : Option φ}

omit [Table τ φ] in
/-- A fault that is not for the observer does not concern the frame. -/
theorem of_reported_eq_error {outcome : Except Fault φ}
    (isRefused : reported outcome = .error fault) :
    outcome = .error fault ∧ fault.isDecode = false := by
  unfold reported at isRefused
  split at isRefused
  case h_1 => cases isRefused
  case h_2 other =>
    split at isRefused
    case isTrue => cases isRefused
    case isFalse foreign =>
      cases isRefused
      exact ⟨rfl, Bool.eq_false_iff.mpr foreign⟩

/-- The exchange after a fault that is not for the observer. -/
def refused (exchange : Exchange τ φ) (cut : Cut) : Exchange τ φ :=
  { exchange with
    receiver :=
      { exchange.receiver.dropFrame cut.stop with
        table := (exchange.receiver.judge (φ := φ) cut).2
        log := exchange.receiver.log ++ cut.records } }

/-- What the observer is told about a cut. -/
def reportOf (receiver : Receiver τ) (cut : Cut) (frame : Option φ) : Report φ :=
  let raw := receiver.pending.take cut.stop
  ⟨raw, frame, payloadSize (cut.payload raw), receiver.pending⟩

/-- The exchange when the observer is told about a cut, which is still pending. -/
def told (exchange : Exchange τ φ) (cut : Cut) (frame : Option φ) : Exchange τ φ :=
  tell
    { exchange with
      receiver :=
        { exchange.receiver with
          table := (exchange.receiver.judge (φ := φ) cut).2
          log := exchange.receiver.log ++ cut.records ++
            missRecords (exchange.receiver.pending.take cut.stop).length
              (exchange.receiver.judge (φ := φ) cut).1 } }
    (.report (reportOf exchange.receiver cut frame))

theorem reportNext_of_cut?_eq_none (none : exchange.receiver.cut? = none) (observer : Observer φ)
    (depth : Nat) : exchange.reportNext observer (depth + 1) = (.ok false, exchange) := by
  rw [reportNext, none]

theorem reportNext_of_refused (found : exchange.receiver.cut? = some cut)
    (isRefused : reported (exchange.receiver.judge (φ := φ) cut).1 = .error fault)
    (observer : Observer φ) (depth : Nat) :
    exchange.reportNext observer (depth + 1) = (.error fault, exchange.refused cut) := by
  rw [reportNext, found]
  dsimp only
  rw [Receiver.resolve_eq_judge exchange.receiver]
  · simp only [isRefused]
    rfl
  · rfl

theorem reportNext_of_reported (found : exchange.receiver.cut? = some cut)
    (isReported : reported (exchange.receiver.judge (φ := φ) cut).1 = .ok frame)
    (observer : Observer φ) (depth : Nat) :
    exchange.reportNext observer (depth + 1) =
      let (outcome, after) := react (reportNext observer depth) exchange.reports
        (observer (exchange.told cut frame).heard) (exchange.told cut frame)
      (outcome.map fun _ => true, after.dropFrame cut.stop) := by
  rw [reportNext, found]
  dsimp only
  rw [Receiver.resolve_eq_judge exchange.receiver]
  · simp only [isReported]
    rfl
  · rfl

end Exchange

end ZeroFrame

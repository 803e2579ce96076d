/-
This file shows that no fault makes a receiver stall or hand a frame out a second time.

A frame is gone once it was asked for, also if the codec refuses its bytes, if the table raises
a fault of any kind, or if the listener does. A fault is passed on as it is, with one
exception: a table that asks for more bytes of a complete payload has found it malformed, so
nobody is told to wait for bytes that would not help. A run of reports that a fault
interrupts has used up the frame that the fault came with and the frames before it, and the
next call goes on with the one after.
-/

import ZeroFrame.Proofs.Link.Agreement
import ZeroFrame.Proofs.Link.Intake
import ZeroFrame.Proofs.Link.Queue

namespace ZeroFrame

variable {τ φ : Type} [Table τ φ]

/-! ### Faults of the table -/

/-- The table is asked about the payload of the next frame and raises a fault. -/
structure Receiver.Fails (receiver : Receiver τ) (raw payload : Bytes) (cause : Fault) :
    Prop where
  complete : ∃ rest, receiver.pending = raw ++ separator :: rest
  zeroFree : separator ∉ raw
  read : Codeword.decode raw = .ok payload
  raised : (Table.decode (φ := φ) receiver.table payload).1 = .error cause

namespace Receiver.Fails

variable {receiver : Receiver τ} {raw payload : Bytes} {cause : Fault}

/-- The next frame is cut off, and what it is judged to is the fault, as that of a complete
payload. -/
theorem exists_cut? (fails : Fails (φ := φ) receiver raw payload cause) :
    ∃ cut, receiver.cut? = some cut ∧ raw = receiver.pending.take cut.stop ∧
      (receiver.judge (φ := φ) cut).1 = Table.delimit payload.length (.error cause) ∧
      Exchange.payloadSize (cut.payload raw) = payload.length := by
  obtain ⟨rest, split⟩ := fails.complete
  obtain ⟨cut, found, taken, judged, size⟩ :=
    Fate.exists_cut?_of_decode (φ := φ) split fails.zeroFree fails.read
  rw [fails.raised] at judged
  exact ⟨cut, found, taken, judged.symm, size.symm⟩

/-- A fault that past the judgement does not concern the frame was raised by the table. -/
theorem of_judge {cut : Cut} (found : receiver.cut? = some cut)
    (judged : (receiver.judge (φ := φ) cut).1 = .error cause) (foreign : cause.isDecode = false) :
    ∃ payload, Fails (φ := φ) receiver (receiver.pending.take cut.stop) payload cause := by
  have fate := Fate.of_cut? (φ := φ) found
  rw [judged] at fate
  generalize receiver.pending.take cut.stop = raw at fate ⊢
  generalize Exchange.payloadSize (cut.payload raw) = size at fate
  cases fate with
  | overflow zeroFree limited beyond => cases foreign
  | malformed split zeroFree read => cases foreign
  | short split zeroFree read answered more => cases foreign
  | rejected split zeroFree read answered enough =>
    exact ⟨_, ⟨_, split⟩, zeroFree, read, answered⟩

end Receiver.Fails

/-! ### One call -/

/-- The answer if the call raises a fault before anything was told. -/
def Pull.raises (cause : Fault) : Pull φ → Answer φ
  | decode => .decoded (.error cause)
  | reportNext _ => .reported [] (.error cause)

/-- What asking for the next frame comes to, whatever the table and the listener do. -/
structure Dismissal (receiver : Receiver τ) : Prop where
  /-- However the call ends, the frame is gone with the zeros after it. -/
  gone : ∀ place, receiver.EndsAt place → ∀ pull : Pull φ,
    (pull.call.run receiver).2.pending = Bytes.dropZeros (receiver.pending.drop place)
  next : ∀ place, receiver.EndsAt place →
    receiver.frames.head? = some (receiver.pending.take place)
  /-- A frame that was cut off does not lack data. -/
  complete : ∀ place, receiver.EndsAt place → ∀ fault,
    (receiver.decode (φ := φ)).1 = .error fault → fault.kind ≠ .unexpectedEnd
  /-- A fault of the table that does not concern the frame is raised as it is. -/
  foreign : ∀ raw payload cause, receiver.Fails (φ := φ) raw payload cause →
    cause.isDecode = false → ∀ pull : Pull φ, (pull.call.run receiver).1 = pull.raises cause
  /-- A table that asks for more bytes has found the payload malformed, and there is no frame. -/
  short : ∀ raw payload cause, receiver.Fails (φ := φ) raw payload cause →
    cause.kind = .unexpectedEnd →
    (∃ fault, (receiver.decode (φ := φ)).1 = .error fault ∧ fault.kind = .malformed ∧
      fault.cause? = some cause) ∧
    ∀ listener : Listener φ,
      let heard := [.report ⟨raw, none, payload.length, receiver.pending⟩]
      ((Pull.reportNext listener).call.run receiver).1 = .reported heard (listener.verdict heard)
  /-- A fault of the listener is raised as it is. -/
  listener : ∀ (listener : Listener φ) heard outcome,
    ((Pull.reportNext listener).call.run receiver).1 = .reported heard outcome → heard ≠ [] →
    outcome = listener.verdict heard.reverse
  /-- If no frame ends, the table is not asked, nothing is told and nothing changes. -/
  lack : (∀ place, ¬receiver.EndsAt place) → ∀ pull : Pull φ,
    pull.call.run receiver = (pull.lack, receiver)

theorem Receiver.Trimmed.dismissal {receiver : Receiver τ} (trimmed : receiver.Trimmed) :
    Dismissal (φ := φ) receiver := by
  constructor
  case gone =>
    intro place ends pull
    obtain ⟨cut, found, rfl⟩ := Receiver.endsAt_iff.mp ends
    rw [pull.run_of_cut? found]
    rfl
  case next =>
    intro place ends
    obtain ⟨cut, found, rfl⟩ := Receiver.endsAt_iff.mp ends
    obtain ⟨_, order⟩ :=
      Receiver.Leaves.of_cut? trimmed found (receiver.dropFrame cut.stop) rfl rfl
    rw [order, List.head?_cons]
  case complete =>
    intro place ends fault failed
    obtain ⟨cut, found, rfl⟩ := Receiver.endsAt_iff.mp ends
    rw [Receiver.decode_of_cut? found] at failed
    exact Receiver.kind_judge_ne failed
  case foreign =>
    intro raw payload cause fails foreign pull
    obtain ⟨cut, found, taken, judged, _⟩ := fails.exists_cut?
    have unlike : cause.kind ≠ .unexpectedEnd := by
      intro lacks
      unfold Fault.isDecode at foreign
      simp [lacks] at foreign
    rw [Table.delimit, if_neg unlike] at judged
    rw [pull.run_of_cut? found, judged]
    cases pull with
    | decode => rfl
    | reportNext listener =>
      simp only [Pull.answer, Exchange.reported, foreign]
      rfl
  case short =>
    intro raw payload cause fails lacks
    obtain ⟨cut, found, taken, judged, size⟩ := fails.exists_cut?
    rw [Table.delimit, if_pos lacks] at judged
    constructor
    · rw [Receiver.decode_of_cut? found, judged]
      exact ⟨_, rfl, rfl, rfl⟩
    · intro listener heard
      rw [Pull.run_of_cut? _ found, judged, ← taken, size]
      rfl
  case listener =>
    intro listener heard outcome answered told
    cases found : receiver.cut? with
    | none =>
      rw [Pull.run_of_lack _ found] at answered
      cases answered
      exact absurd rfl told
    | some cut =>
      rw [Pull.run_of_cut? _ found] at answered
      simp only [Pull.answer] at answered
      split at answered
      case h_1 =>
        cases answered
        exact absurd rfl told
      case h_2 =>
        cases answered
        rfl
  case lack =>
    intro nowhere pull
    exact pull.run_of_lack (Receiver.cut?_eq_none_iff.mpr nowhere)

/-! ### Runs of reports -/

/-- The payloads that the table is asked about when these frames are cut off. -/
def payloadsOf (raws : List Bytes) : List Bytes :=
  raws.filterMap fun raw => (Codeword.decode raw).toOption

/-- How a run of reports of a receiver ends that has told of some frames: with which fault, if any,
and how many frames are then gone. -/
inductive Halt (receiver : Receiver τ) (listener : Listener φ) (heard : List (Event φ))
    (raws : List Bytes) : Option Fault → Nat → Prop where
  | finished (all : raws = receiver.frames) : Halt receiver listener heard raws none raws.length
  /-- The listener raises a fault when it is told of the last one. -/
  | raised {fault : Fault} (told : raws ≠ []) (raises : listener heard = some fault) :
    Halt receiver listener heard raws (some fault) raws.length
  /-- The table raises a fault at the frame after these, which is not told. -/
  | refused {raw payload : Bytes} {fault : Fault} (next : receiver.frames[raws.length]? = some raw)
    (read : Codeword.decode raw = .ok payload)
    (answered : (Table.decode (φ := φ) (Table.after receiver.table (payloadsOf raws)) payload).1 =
      .error fault)
    (foreign : fault.isDecode = false) :
    Halt receiver listener heard raws (some fault) (raws.length + 1)

/-- The end of a run of so many reports. -/
def Exchange.Ending.of (count : Nat) : Option Fault → Exchange.Ending
  | none => .finished count
  | some fault => .failed fault

/-- A run of reports tells of the first frames, in order and each once, and takes these, or one more
if the table raises a fault there. -/
structure Drained (receiver : Receiver τ) (listener : Listener φ) (heard : List (Event φ))
    (reports : List (Report φ)) (interruption : Option Fault) (after : Receiver τ) : Prop where
  told : reports.map Report.raw <+: receiver.frames
  left : ∃ gone, Halt receiver listener heard (reports.map Report.raw) interruption gone ∧
    receiver.Leaves gone after

namespace Drained

variable {receiver next after : Receiver τ} {cut : Cut} {listener : Listener φ}
  {heard : List (Event φ)} {reports : List (Report φ)} {interruption : Option Fault}

/-- After a frame is cut off, the table has been asked about its payload, if it has one. -/
theorem table_of_cut? (found : receiver.cut? = some cut) (more : next.frames ≠ [])
    (pending : next.pending = Pending.dropFrame receiver.pending cut.stop) :
    (receiver.judge (φ := φ) cut).2 =
      Table.after receiver.table (payloadsOf [receiver.pending.take cut.stop]) := by
  obtain ⟨stop, rfl, _⟩ | ⟨bound, rfl, _⟩ := Receiver.cases_of_cut? found
  · unfold Receiver.judge payloadsOf Cut.payload
    rw [Cut.stop]
    cases read : Codeword.decode (receiver.pending.take stop) with
    | error flaw => simp [Except.mapError, Except.toOption, Table.after, read]
    | ok payload =>
      simp [Except.mapError, Except.toOption, Table.after, read, Table.decodeDelimited]
  · refine absurd ?_ more
    rw [Cut.stop, Pending.dropFrame, List.drop_length] at pending
    unfold Receiver.frames excess
    rw [pending]
    cases next.limit <;> rfl

/-- Without a frame there is nothing to tell. -/
theorem finished (trimmed : receiver.Trimmed) (none : receiver.cut? = .none)
    (listener : Listener φ) (heard : List (Event φ)) :
    Drained receiver listener heard [] .none receiver := by
  have nothing := Receiver.frames_of_cut?_eq_none none
  exact ⟨List.nil_prefix, 0, .finished nothing.symm, .refl trimmed rfl rfl⟩

/-- The table raises a fault at the first frame. -/
theorem refused (trimmed : receiver.Trimmed) (found : receiver.cut? = some cut) {fault : Fault}
    (isRefused : Exchange.reported (receiver.judge (φ := φ) cut).1 = .error fault)
    (listener : Listener φ) (heard : List (Event φ)) (last : Receiver τ)
    (limit : last.limit = receiver.limit)
    (pending : last.pending = Pending.dropFrame receiver.pending cut.stop) :
    Drained receiver listener heard [] (some fault) last := by
  obtain ⟨judged, foreign⟩ := Exchange.of_reported_eq_error isRefused
  obtain ⟨payload, fails⟩ := Receiver.Fails.of_judge found judged foreign
  obtain ⟨first, order⟩ := Receiver.Leaves.of_cut? trimmed found last limit pending
  refine ⟨List.nil_prefix, 1, ?_, first⟩
  exact .refused (congrArg (·[0]?) order) fails.read fails.raised foreign

/-- The listener raises a fault at the first frame. -/
theorem raised (trimmed : receiver.Trimmed) (found : receiver.cut? = some cut) {fault : Fault}
    (raises : listener heard = some fault) {report : Report φ}
    (raw : report.raw = receiver.pending.take cut.stop) (last : Receiver τ)
    (limit : last.limit = receiver.limit)
    (pending : last.pending = Pending.dropFrame receiver.pending cut.stop) :
    Drained receiver listener heard [report] (some fault) last := by
  obtain ⟨first, order⟩ := Receiver.Leaves.of_cut? trimmed found last limit pending
  refine ⟨?_, 1, .raised (List.cons_ne_nil _ _) raises, first⟩
  rw [order, List.map_singleton, raw]
  exact List.cons_prefix_cons.mpr ⟨rfl, List.nil_prefix⟩

/-- One more report in front. -/
theorem cons (drained : Drained next listener heard reports interruption after)
    (trimmed : receiver.Trimmed) (found : receiver.cut? = some cut)
    (limit : next.limit = receiver.limit)
    (pending : next.pending = Pending.dropFrame receiver.pending cut.stop)
    (table : next.table = (receiver.judge (φ := φ) cut).2) {report : Report φ}
    (raw : report.raw = receiver.pending.take cut.stop) :
    Drained receiver listener heard (report :: reports) interruption after := by
  obtain ⟨first, order⟩ := Receiver.Leaves.of_cut? trimmed found next limit pending
  obtain ⟨told, gone, halt, leaves⟩ := drained
  have whole : (report :: reports).map Report.raw =
      receiver.pending.take cut.stop :: reports.map Report.raw := by
    rw [List.map_cons, raw]
  refine ⟨?_, gone + 1, ?_, Nat.add_comm 1 gone ▸ first.trans leaves⟩
  · rw [whole, order]
    exact List.cons_prefix_cons.mpr ⟨rfl, told⟩
  · rw [whole]
    cases halt with
    | finished all => exact .finished (all ▸ order.symm)
    | raised _ raises => exact .raised (List.cons_ne_nil _ _) raises
    | refused here read answered foreign =>
      have more : next.frames ≠ [] := by
        intro nothing
        rw [nothing] at here
        cases here
      refine .refused ?_ read ?_ foreign
      · rwa [order]
      · rw [table, table_of_cut? found more pending] at answered
        have both : payloadsOf (receiver.pending.take cut.stop :: reports.map Report.raw) =
            payloadsOf [receiver.pending.take cut.stop] ++ payloadsOf (reports.map Report.raw) := by
          unfold payloadsOf
          rw [← List.filterMap_append, List.singleton_append]
        rw [both, Table.after, List.foldl_append]
        exact answered

end Drained

/-- Each round takes the next frame, or ends the run. The rounds that are left stay enough, since
every cut uses up a pending byte. -/
theorem Exchange.reportFrom_drained {exchange : Exchange τ φ}
    (trimmed : exchange.receiver.Trimmed) (listener : Listener φ) (depth : Nat) {rounds : Nat}
    (enough : exchange.receiver.pending.length < rounds) (count : Nat) :
    ∃ (reports : List (Report φ)) (interruption : Option Fault) (after : Exchange τ φ),
      exchange.reportFrom listener.observer (depth + 1) rounds count =
        (.of (count + reports.length) interruption, after) ∧
      after.heard = (reports.map Event.report).reverse ++ exchange.heard ∧
      Drained exchange.receiver listener after.heard reports interruption after.receiver := by
  induction rounds generalizing exchange count with
  | zero => exact absurd enough (Nat.not_lt_zero _)
  | succ rounds inductionHypothesis =>
    rw [reportFrom]
    cases found : exchange.receiver.cut? with
    | none =>
      rw [reportNext_of_cut?_eq_none found]
      exact ⟨[], none, exchange, rfl, rfl, .finished trimmed found listener _⟩
    | some cut =>
      rw [reportNext_listener found]
      cases outcome : reported (exchange.receiver.judge (φ := φ) cut).1 with
      | error fault =>
        exact ⟨[], some fault, exchange.refused cut, rfl, rfl,
          .refused trimmed found outcome listener _ _ rfl rfl⟩
      | ok frame =>
        have shorter := Receiver.length_dropFrame_lt found
        simp only [Listener.verdict]
        cases raises : listener (exchange.told cut frame).heard with
        | some fault =>
          exact ⟨[reportOf exchange.receiver cut frame], some fault, _, rfl, rfl,
            .raised trimmed found raises rfl _ rfl rfl⟩
        | none =>
          have begun : ((exchange.told cut frame).dropFrame cut.stop).receiver.Trimmed :=
            Bytes.head?_dropZeros _
          obtain ⟨reports, interruption, after, finished, heard, drained⟩ := inductionHypothesis
            begun (Nat.lt_of_lt_of_le shorter (Nat.le_of_lt_succ enough)) (count + 1)
          refine ⟨reportOf exchange.receiver cut frame :: reports, interruption, after, ?_, ?_,
            drained.cons trimmed found rfl rfl rfl rfl⟩
          · rw [List.length_cons, Nat.add_comm reports.length, ← Nat.add_assoc]
            exact finished
          · rw [heard, List.map_cons, List.reverse_cons, List.append_assoc]
            rfl

/-- A frame is gone as soon as it was asked for, whatever the codec, the table and the listener
make of it, and each fault is passed on as it is, except that a complete frame never lacks
data. Without a frame nothing changes. So a run of reports that a fault interrupts has taken
the frame that the fault came with and those before it, and it is with the one after that
another call goes on. -/
theorem frame_dismissed_despite_faults (limit : Option Nat) (table : τ) (uses : List (Use φ)) :
    let receiver := ((History.start limit table).run uses).receiver
    Dismissal (φ := φ) receiver ∧ ∀ listener : Listener φ,
      ∃ (reports : List (Report φ)) (interruption : Option Fault) (after : Receiver τ),
        (Call.reportAll listener).run receiver =
          (.reportedAll (reports.map .report) (.of reports.length interruption), after) ∧
        Drained receiver listener (reports.map .report).reverse reports interruption after ∧
        Dismissal (φ := φ) after := by
  intro receiver
  obtain ⟨_, trimmed⟩ := (History.sound_run limit table uses).receiver
  refine ⟨trimmed.dismissal, fun listener => ?_⟩
  have begun : (Exchange.start receiver : Exchange τ φ).receiver.Trimmed := trimmed
  obtain ⟨reports, interruption, after, finished, heard, drained⟩ :=
    Exchange.reportFrom_drained begun listener 0 (Nat.lt_succ_self _) 0
  rw [Nat.zero_add reports.length] at finished
  rw [heard, Exchange.start, List.append_nil] at drained
  refine ⟨reports, interruption, after.receiver, ?_, drained, ?_⟩
  · rw [Call.run_reportAll receiver finished, heard, Exchange.start, List.append_nil,
      List.reverse_reverse]
  · obtain ⟨gone, _, leaves⟩ := drained.left
    exact leaves.trimmed.dismissal

end ZeroFrame

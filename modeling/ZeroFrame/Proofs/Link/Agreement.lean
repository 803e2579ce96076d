/-
This file shows that taking the next frame and having it reported agree.

What becomes of the next frame can be told from the pending bytes, the limit and the answer of
the table, without looking at either way of getting it: it overflows, it is no codeword, or
its payload is cut short, rejected or accepted by the table. Both ways come to exactly this.
Taking the frame hands the outcome out. Reporting it tells the observer, except for a fault of
the table that does not concern the frame, which goes past the observer.
-/

import ZeroFrame.Proofs.Link.Taking

namespace ZeroFrame

variable {τ φ : Type} [Table τ φ]

/-! ### What becomes of the next frame -/

/-- The encoded bytes of the next frame, what becomes of them, and the size of their payload, which
is zero if they have none. -/
inductive Fate (receiver : Receiver τ) : Bytes → Except Fault φ → Nat → Prop where
  | overflow {bound : Nat} (zeroFree : separator ∉ receiver.pending)
    (limited : receiver.limit = some bound) (beyond : bound < receiver.pending.length) :
    Fate receiver receiver.pending (.error (.overflow bound)) 0
  | malformed {raw rest : Bytes} {flaw : Codeword.Flaw}
    (split : receiver.pending = raw ++ separator :: rest) (zeroFree : separator ∉ raw)
    (read : Codeword.decode raw = .error flaw) :
    Fate receiver raw (.error (.codeword flaw)) 0
  /-- The table asks for more bytes, and there are none. -/
  | short {raw rest payload : Bytes} {cause : Fault}
    (split : receiver.pending = raw ++ separator :: rest) (zeroFree : separator ∉ raw)
    (read : Codeword.decode raw = .ok payload)
    (answered : (Table.decode receiver.table payload).1 = .error cause)
    (more : cause.kind = .unexpectedEnd) :
    Fate receiver raw (.error (.truncatedPayload payload.length cause)) payload.length
  | rejected {raw rest payload : Bytes} {cause : Fault}
    (split : receiver.pending = raw ++ separator :: rest) (zeroFree : separator ∉ raw)
    (read : Codeword.decode raw = .ok payload)
    (answered : (Table.decode receiver.table payload).1 = .error cause)
    (enough : cause.kind ≠ .unexpectedEnd) :
    Fate receiver raw (.error cause) payload.length
  | accepted {raw rest payload : Bytes} {frame : φ} {used : Nat}
    (split : receiver.pending = raw ++ separator :: rest) (zeroFree : separator ∉ raw)
    (read : Codeword.decode raw = .ok payload)
    (answered : (Table.decode receiver.table payload).1 = .ok (frame, used)) :
    Fate receiver raw (.ok frame) payload.length

namespace Fate

variable {receiver : Receiver τ} {cut : Cut} {raw : Bytes} {outcome : Except Fault φ} {size : Nat}

/-- The bytes that are cut off meet the fate that they are judged to. -/
theorem of_cut? (found : receiver.cut? = some cut) :
    Fate receiver (receiver.pending.take cut.stop) (receiver.judge (φ := φ) cut).1
      (Exchange.payloadSize (cut.payload (receiver.pending.take cut.stop))) := by
  obtain ⟨stop, rfl, separated⟩ | ⟨bound, rfl, zeroFree, limited, beyond⟩ :=
    Receiver.cases_of_cut? found
  · obtain ⟨rest, split, zeroFree, _⟩ := Pending.exists_of_separator? separated
    rw [Receiver.judge, Cut.payload, Cut.stop]
    cases read : Codeword.decode (receiver.pending.take stop) with
    | error flaw => exact .malformed split zeroFree read
    | ok payload =>
      simp only [Except.mapError, Table.decodeDelimited, Exchange.payloadSize]
      cases answered : (Table.decode receiver.table payload).1 with
      | ok answer => exact .accepted split zeroFree read answered
      | error cause =>
        rw [Table.delimit]
        split
        case isTrue more => exact .short split zeroFree read answered more
        case isFalse enough => exact .rejected split zeroFree read answered enough
  · rw [Receiver.judge, Cut.payload, Cut.stop, List.take_length]
    exact .overflow zeroFree limited beyond

omit [Table τ φ] in
/-- Bytes up to a separator are cut off there. -/
theorem cut?_of_split {rest : Bytes} (split : receiver.pending = raw ++ separator :: rest)
    (zeroFree : separator ∉ raw) :
    receiver.cut? = some (.frame raw.length) ∧ receiver.pending.take raw.length = raw := by
  refine ⟨Receiver.cut?_of_separator? ?_, ?_⟩
  · rw [split, Pending.separator?_append zeroFree]
  · rw [split, List.take_left]

/-- A frame with a payload is cut off, and the table has the say on it. -/
theorem exists_cut?_of_decode {rest payload : Bytes}
    (split : receiver.pending = raw ++ separator :: rest) (zeroFree : separator ∉ raw)
    (read : Codeword.decode raw = .ok payload) :
    ∃ cut, receiver.cut? = some cut ∧ raw = receiver.pending.take cut.stop ∧
      Table.delimit payload.length (Table.decode receiver.table payload).1 =
        (receiver.judge (φ := φ) cut).1 ∧
      payload.length = Exchange.payloadSize (cut.payload raw) := by
  obtain ⟨found, taken⟩ := cut?_of_split split zeroFree
  refine ⟨.frame raw.length, found, taken.symm, ?_, ?_⟩
  · rw [Receiver.judge, Cut.payload, Cut.stop, taken, read]
    rfl
  · rw [Cut.payload, read]
    rfl

/-- Nothing else becomes of them. -/
theorem exists_cut? (fate : Fate receiver raw outcome size) :
    ∃ cut, receiver.cut? = some cut ∧ raw = receiver.pending.take cut.stop ∧
      outcome = (receiver.judge cut).1 ∧ size = Exchange.payloadSize (cut.payload raw) := by
  cases fate with
  | overflow zeroFree limited beyond =>
    refine ⟨.overflow receiver.pending.length _, ?_, (List.take_length ..).symm, rfl, rfl⟩
    rw [Receiver.cut?, (Pending.separator?_eq_none_iff _).mpr zeroFree, limited]
    exact if_pos beyond
  | malformed split zeroFree read =>
    obtain ⟨found, taken⟩ := cut?_of_split split zeroFree
    refine ⟨.frame raw.length, found, taken.symm, ?_, ?_⟩
    · rw [Receiver.judge, Cut.payload, Cut.stop, taken, read]
      rfl
    · rw [Cut.payload, read]
      rfl
  | short split zeroFree read answered more =>
    obtain ⟨cut, found, taken, judged, sized⟩ := exists_cut?_of_decode split zeroFree read
    rw [answered, Table.delimit, if_pos more] at judged
    exact ⟨cut, found, taken, judged, sized⟩
  | rejected split zeroFree read answered enough =>
    obtain ⟨cut, found, taken, judged, sized⟩ := exists_cut?_of_decode split zeroFree read
    rw [answered, Table.delimit, if_neg enough] at judged
    exact ⟨cut, found, taken, judged, sized⟩
  | accepted split zeroFree read answered =>
    obtain ⟨cut, found, taken, judged, sized⟩ := exists_cut?_of_decode split zeroFree read
    rw [answered, Table.delimit] at judged
    exact ⟨cut, found, taken, judged, sized⟩

theorem outcome_eq (fate : Fate receiver raw outcome size) (found : receiver.cut? = some cut) :
    outcome = (receiver.judge cut).1 := by
  obtain ⟨other, same, _, judged, _⟩ := fate.exists_cut?
  rw [found] at same
  rw [judged, Option.some.inj same]

end Fate

/-! ### Reports to a listener that raises no fault -/

namespace Exchange

variable {receiver : Receiver τ} {cut : Cut} {fault : Fault}

/-- A fault that does not concern the frame goes past the listener. -/
theorem reportNext_silent_of_refused (found : receiver.cut? = some cut)
    (judged : (receiver.judge (φ := φ) cut).1 = .error fault) (foreign : fault.isDecode = false)
    (depth : Nat) :
    (start receiver).reportNext (Listener.silent φ).observer (depth + 1) =
      (.error fault, (start receiver).refused cut) := by
  have begun : (start receiver : Exchange τ φ).receiver.cut? = some cut := found
  refine reportNext_of_refused begun ?_ _ depth
  rw [start, judged, reported, foreign]
  rfl

/-- Any other outcome is told, with the frame if there is one. -/
theorem reportNext_silent_of_reported (found : receiver.cut? = some cut)
    (concerns : ∀ fault, (receiver.judge (φ := φ) cut).1 = .error fault → fault.isDecode = true)
    (depth : Nat) :
    (start receiver).reportNext (Listener.silent φ).observer (depth + 1) =
      let frame := (receiver.judge (φ := φ) cut).1.toOption
      (.ok true, ((start receiver).told cut frame).dropFrame cut.stop) := by
  have isReported : reported (receiver.judge (φ := φ) cut).1 =
      .ok (receiver.judge (φ := φ) cut).1.toOption := by
    cases judged : (receiver.judge (φ := φ) cut).1 with
    | ok frame => rfl
    | error fault => exact if_pos (concerns fault judged)
  have begun : (start receiver : Exchange τ φ).receiver.cut? = some cut := found
  exact reportNext_silent begun isReported depth

end Exchange

/-! ### Agreement -/

/-- What the results of taking the next frame of a receiver and of reporting it have to do with each
other, when the observer only listens. -/
structure Agreement (receiver : Receiver τ) (pulled : Except Fault φ × Receiver τ)
    (told : Except Fault Bool × Exchange τ φ) : Prop where
  pending : pulled.2.pending = told.2.receiver.pending
  /-- The lack of data is only ever that of a separator. -/
  lack : ∀ fault, pulled.1 = .error fault → fault.kind = .unexpectedEnd → fault = .noSeparator
  /-- There is no frame for either, and nothing is told. -/
  none : pulled.1 = .error .noSeparator ↔ told.1 = .ok false ∧ told.2.heard = []
  /-- A frame is told once. -/
  frame : ∀ frame, pulled.1 = .ok frame ↔ told.1 = .ok true ∧
    ∃ raw size, told.2.heard = [.report ⟨raw, some frame, size, receiver.pending⟩]
  /-- A fault that concerns the frame is told once, as the lack of a frame. -/
  fault : (∃ fault, pulled.1 = .error fault ∧ fault.isDecode = true ∧ fault ≠ .noSeparator) ↔
    told.1 = .ok true ∧
      ∃ raw size, told.2.heard = [.report ⟨raw, .none, size, receiver.pending⟩]
  /-- The bytes and the size that are told are those of the frame. -/
  fate : ∀ report, .report report ∈ told.2.heard → Fate receiver report.raw pulled.1 report.size
  /-- Any other fault of the table is raised by both, and nothing is told. -/
  foreign : ∀ fault, fault.isDecode = false →
    (pulled.1 = .error fault ↔ ∃ raw size, Fate receiver raw (φ := φ) (.error fault) size) ∧
    (pulled.1 = .error fault ↔ told.1 = .error fault ∧ told.2.heard = [])

namespace Agreement

variable {receiver : Receiver τ} {cut : Cut} {pulled : Except Fault φ × Receiver τ}
  {told : Except Fault Bool × Exchange τ φ}

theorem of_lack (found : receiver.cut? = .none) :
    Agreement (φ := φ) receiver (.error .noSeparator, receiver)
      (.ok false, Exchange.start receiver) := by
  have noFate (raw : Bytes) (outcome : Except Fault φ) (size : Nat) :
      ¬Fate receiver raw outcome size := by
    intro fate
    obtain ⟨cut, some, _⟩ := fate.exists_cut?
    rw [found] at some
    cases some
  have own (fault : Fault) (other : fault.isDecode = false) :
      ¬(Except.error .noSeparator : Except Fault φ) = .error fault := by
    intro same
    obtain rfl := Except.error.inj same
    cases other
  constructor
  case pending => rfl
  case lack => exact fun fault same _ => (Except.error.inj same).symm
  case none => exact iff_of_true rfl ⟨rfl, rfl⟩
  case frame => simp
  case fault =>
    refine iff_of_false ?_ (by simp)
    rintro ⟨fault, same, _, other⟩
    exact other (Except.error.inj same).symm
  case fate => nofun
  case foreign =>
    intro fault other
    refine ⟨iff_of_false (own fault other) fun ⟨raw, size, fate⟩ => noFate raw _ size fate, ?_⟩
    exact iff_of_false (own fault other) (by simp)

/-- The table raises a fault that does not concern the frame. -/
theorem of_refused {fault : Fault} (found : receiver.cut? = some cut)
    (samePending : pulled.2.pending = told.2.receiver.pending)
    (judged : (receiver.judge (φ := φ) cut).1 = .error fault) (foreign : fault.isDecode = false)
    (failed : pulled.1 = .error fault) (ending : told.1 = .error fault)
    (heard : told.2.heard = []) : Agreement receiver pulled told := by
  have unlike {other : Fault} (decode : other.isDecode = true) : fault ≠ other := by
    rintro rfl
    rw [foreign] at decode
    cases decode
  constructor
  case pending => exact samePending
  case lack =>
    intro other same lacks
    rw [failed] at same
    obtain rfl := Except.error.inj same
    exact absurd lacks (Receiver.kind_judge_ne judged)
  case none =>
    rw [failed, ending]
    exact iff_of_false (fun same => unlike rfl (Except.error.inj same)) (by simp)
  case frame => simp [failed, ending]
  case fault =>
    rw [failed, ending]
    refine iff_of_false ?_ (by simp)
    rintro ⟨other, same, decode, _⟩
    exact unlike decode (Except.error.inj same)
  case fate => simp [heard]
  case foreign =>
    intro other _
    rw [failed, ending, heard]
    refine ⟨⟨fun same => ?_, ?_⟩, by simp⟩
    · exact ⟨_, _, same ▸ judged ▸ Fate.of_cut? found⟩
    · rintro ⟨raw, size, fate⟩
      rw [fate.outcome_eq found, judged]

/-- The outcome is told, with the frame if there is one. -/
theorem of_reported (found : receiver.cut? = some cut)
    (samePending : pulled.2.pending = told.2.receiver.pending)
    (judged : pulled.1 = (receiver.judge cut).1)
    (concerns : ∀ fault, (receiver.judge (φ := φ) cut).1 = .error fault → fault.isDecode = true)
    (ending : told.1 = .ok true)
    (heard : told.2.heard =
      [.report (Exchange.reportOf receiver cut (receiver.judge (φ := φ) cut).1.toOption)]) :
    Agreement receiver pulled told := by
  have own (fault : Fault) (failed : pulled.1 = .error fault) : fault.kind ≠ .unexpectedEnd :=
    Receiver.kind_judge_ne (judged ▸ failed)
  rw [← judged] at concerns heard
  constructor
  case pending => exact samePending
  case lack => exact fun fault failed lacks => absurd lacks (own fault failed)
  case none => exact iff_of_false (fun failed => own _ failed rfl) (by simp [ending])
  case frame =>
    intro frame
    rw [ending, heard]
    cases pulled.1 <;> simp [Exchange.reportOf, Except.toOption]
  case fault =>
    rw [ending, heard]
    cases outcome : pulled.1 with
    | ok frame => simp [Exchange.reportOf, Except.toOption]
    | error fault =>
      refine iff_of_true ⟨fault, rfl, concerns fault outcome, ?_⟩ ⟨rfl, _, _, rfl⟩
      rintro rfl
      exact own _ outcome rfl
  case fate =>
    intro report member
    rw [heard] at member
    obtain rfl := Event.report.inj (List.mem_singleton.mp member)
    exact judged ▸ Fate.of_cut? found
  case foreign =>
    intro fault other
    have not : ¬pulled.1 = .error fault := by
      intro failed
      rw [concerns fault failed] at other
      cases other
    refine ⟨iff_of_false not ?_, iff_of_false not (by simp [ending])⟩
    rintro ⟨raw, size, fate⟩
    exact not (judged.trans (fate.outcome_eq found).symm)

end Agreement

/-- Taking the next frame and reporting it to an observer that only listens leave the same bytes.
They find no frame together, and then nothing is told. A frame that is taken is told, once and
with the size of its payload. A fault that concerns the frame is told as the lack of a frame,
once, with the size of the payload if the fault is that of the table and zero if there is no
payload. Any other fault of the table is raised by both, and nothing is told. -/
theorem decode_reportNext_agree (receiver : Receiver τ) (depth : Nat) :
    Agreement (φ := φ) receiver receiver.decode
      ((Exchange.start receiver).reportNext (Listener.silent φ).observer (depth + 1)) := by
  cases found : receiver.cut? with
  | none =>
    have begun : (Exchange.start receiver : Exchange τ φ).receiver.cut? = .none := found
    rw [Receiver.decode_of_cut?_eq_none found, Exchange.reportNext_of_cut?_eq_none begun]
    exact .of_lack found
  | some cut =>
    rw [Receiver.decode_of_cut? found]
    by_cases refused : ∃ fault, (receiver.judge (φ := φ) cut).1 = .error fault ∧
        fault.isDecode = false
    · obtain ⟨fault, judged, foreign⟩ := refused
      rw [Exchange.reportNext_silent_of_refused found judged foreign]
      exact .of_refused found rfl judged foreign judged rfl rfl
    · have concerns : ∀ fault, (receiver.judge (φ := φ) cut).1 = .error fault →
          fault.isDecode = true := fun fault judged =>
        Bool.eq_true_of_not_eq_false fun foreign => refused ⟨fault, judged, foreign⟩
      rw [Exchange.reportNext_silent_of_reported found concerns]
      exact .of_reported found rfl rfl concerns rfl rfl

end ZeroFrame

/-
This file shows that a chunk can as well arrive while a frame is reported as right after.

While an observer is told about a frame, the frame is still pending, so a chunk that arrives then
keeps the separators at its front, which it would lose if nothing were pending. But they are next
to the place where the frame will be cut off, and the cut drops them. So an observer that hands
chunks over comes to the same as one that keeps still and whose chunks follow when the report has
ended, also if all pending bytes are reported because they pass the limit. A run of reports then
tells of the frames that were pending and of those in the chunks alike, as if all of it had been
there from the start.
-/

import ZeroFrame.Proofs.Link.Dismissal

namespace ZeroFrame

variable {τ φ : Type}

/-! ### Chunks that follow each other -/

namespace Receiver

variable {receiver : Receiver τ} {stop : Nat}

/-- The receiver after some chunks, which arrive in order. -/
def receiveAll (receiver : Receiver τ) (chunks : List Bytes) : Receiver τ :=
  chunks.foldl receive receiver

theorem receiveAll_cons (receiver : Receiver τ) (chunk : Bytes) (chunks : List Bytes) :
    receiver.receiveAll (chunk :: chunks) = (receiver.receive chunk).receiveAll chunks := rfl

theorem receiveAll_append (receiver : Receiver τ) (chunks others : List Bytes) :
    receiver.receiveAll (chunks ++ others) = (receiver.receiveAll chunks).receiveAll others :=
  List.foldl_append

/-- Chunks arrive as one, and nothing else than the pending bytes changes. -/
theorem receiveAll_eq (receiver : Receiver τ) (chunks : List Bytes) :
    receiver.receiveAll chunks = receiver.receive chunks.flatten := by
  induction chunks generalizing receiver with
  | nil =>
    unfold receive
    rw [List.flatten_nil, Pending.receive_nil]
    rfl
  | cons chunk chunks inductionHypothesis =>
    rw [receiveAll_cons, inductionHypothesis]
    unfold receive
    rw [List.flatten_cons, Pending.receive_append]

/-- Chunks can as well arrive after a cut that is made within the pending bytes. -/
theorem dropFrame_receiveAll (within : stop ≤ receiver.pending.length) (chunks : List Bytes) :
    (receiver.receiveAll chunks).dropFrame stop = (receiver.dropFrame stop).receiveAll chunks := by
  rw [receiveAll_eq, receiveAll_eq]
  unfold dropFrame receive
  dsimp only
  rw [Pending.dropFrame_receive within]

theorem stop_le_of_cut? {cut : Cut} (found : receiver.cut? = some cut) :
    cut.stop ≤ receiver.pending.length := by
  rcases cases_of_cut? found with ⟨stop, rfl, separated⟩ | ⟨bound, rfl, _⟩
  · exact Pending.le_of_separator? separated
  · exact Nat.le_refl _

/-- Without a limit only separators end frames. -/
theorem cut_of_unlimited (unlimited : receiver.limit = none) {cut : Cut}
    (found : receiver.cut? = some cut) :
    ∃ stop, cut = .frame stop ∧ Pending.separator? receiver.pending = some stop := by
  rcases cases_of_cut? found with separated | ⟨bound, _, _, limited, _⟩
  · exact separated
  · rw [unlimited] at limited
    cases limited

/-- A frame that a separator ends stays the next one, whatever arrives. -/
theorem cut?_receiveAll (separated : Pending.separator? receiver.pending = some stop)
    (chunks : List Bytes) : (receiver.receiveAll chunks).cut? = some (.frame stop) := by
  rw [receiveAll_eq]
  exact cut?_of_separator? (Pending.separator?_receive separated _)

theorem take_receiveAll (within : stop ≤ receiver.pending.length) (chunks : List Bytes) :
    (receiver.receiveAll chunks).pending.take stop = receiver.pending.take stop := by
  rw [receiveAll_eq]
  exact Pending.take_receive within _

theorem judge_receiveAll [Table τ φ] (within : stop ≤ receiver.pending.length)
    (chunks : List Bytes) :
    (receiver.receiveAll chunks).judge (φ := φ) (.frame stop) = receiver.judge (.frame stop) := by
  have same : (receiver.receiveAll chunks).table = receiver.table := by rw [receiveAll_eq]; rfl
  unfold judge
  rw [Cut.stop, take_receiveAll within, same]

theorem Trimmed.pending_receiveAll (trimmed : receiver.Trimmed) (chunks : List Bytes) :
    (receiver.receiveAll chunks).pending =
      Bytes.dropZeros (receiver.pending ++ chunks.flatten) := by
  rw [receiveAll_eq]
  exact Pending.receive_eq_dropZeros trimmed _

theorem Trimmed.receiveAll (trimmed : receiver.Trimmed) (chunks : List Bytes) :
    (receiver.receiveAll chunks).Trimmed := by
  rw [Trimmed, trimmed.pending_receiveAll]
  exact Bytes.head?_dropZeros _

theorem Trimmed.segments_receiveAll (trimmed : receiver.Trimmed) (chunks : List Bytes) :
    segments (receiver.receiveAll chunks).pending =
      segments (receiver.pending ++ chunks.flatten) := by
  rw [trimmed.pending_receiveAll, segments_dropZeros]

theorem limit_receiveAll (receiver : Receiver τ) (chunks : List Bytes) :
    (receiver.receiveAll chunks).limit = receiver.limit := by
  rw [receiveAll_eq]
  rfl

/-- Without a limit the frames are the ended segments. -/
theorem frames_of_unlimited (unlimited : receiver.limit = none) :
    receiver.frames = (segments receiver.pending).ended := by
  unfold frames
  rw [unlimited]
  exact List.append_nil _

end Receiver

/-! ### Observers that hand chunks over -/

/-- What an observer does that only hands chunks over: the chunks in order, and then the fault that
it raises, if any. -/
structure Handover where
  chunks : List Bytes
  fault : Option Fault

namespace Handover

def ending (handover : Handover) : Reaction φ :=
  match handover.fault with
  | none => .done
  | some fault => .raise fault

def reaction (handover : Handover) : Reaction φ := handover.chunks.foldr .receive handover.ending

/-- What the reaction comes to. -/
def outcome (handover : Handover) : Except Fault Unit :=
  match handover.fault with
  | none => .ok ()
  | some fault => .error fault

end Handover

/-- An observer that only hands chunks over. From what it has heard it decides what it does. -/
def Supplier (φ : Type) : Type := List (Event φ) → Handover

namespace Supplier

def observer (supplier : Supplier φ) : Observer φ := fun heard => (supplier heard).reaction

/-- The same observer if it keeps its chunks back. -/
def listener (supplier : Supplier φ) : Listener φ := fun heard => (supplier heard).fault

theorem verdict_listener (supplier : Supplier φ) (heard : List (Event φ)) :
    supplier.listener.verdict heard = (supplier heard).outcome.map fun _ => true := by
  unfold Listener.verdict listener Handover.outcome
  cases (supplier heard).fault <;> rfl

/-- All chunks that the observer hands over until it has heard this. -/
def handed (supplier : Supplier φ) : List (Event φ) → List Bytes
  | [] => []
  | event :: heard => supplier.handed heard ++ (supplier (event :: heard)).chunks

end Supplier

namespace Exchange

variable [Table τ φ] {exchange : Exchange τ φ} {cut : Cut}

def receiveAll (exchange : Exchange τ φ) (chunks : List Bytes) : Exchange τ φ :=
  { exchange with receiver := exchange.receiver.receiveAll chunks }

/-- The chunks arrive, and the reaction ends as without them. -/
theorem react_handover (report : Exchange τ φ → Except Fault Bool × Exchange τ φ) (call : Nat)
    (handover : Handover) (exchange : Exchange τ φ) :
    react report call handover.reaction exchange =
      (handover.outcome, exchange.receiveAll handover.chunks) := by
  obtain ⟨chunks, fault⟩ := handover
  induction chunks generalizing exchange with
  | nil => cases fault <;> rfl
  | cons chunk chunks inductionHypothesis => exact inductionHypothesis _

/-- An observer that hands chunks over is told the same as if it kept them back, and the report
ends in the same way. The chunks are added to what the report leaves. -/
theorem reportNext_supplier (found : exchange.receiver.cut? = some cut) (supplier : Supplier φ)
    (depth : Nat) :
    exchange.reportNext supplier.observer (depth + 1) =
      match reported (exchange.receiver.judge (φ := φ) cut).1 with
      | .error fault => (.error fault, exchange.refused cut)
      | .ok frame => (supplier.listener.verdict (exchange.told cut frame).heard,
          ((exchange.told cut frame).dropFrame cut.stop).receiveAll
            (supplier (exchange.told cut frame).heard).chunks) := by
  cases outcome : reported (exchange.receiver.judge (φ := φ) cut).1 with
  | error fault => exact reportNext_of_refused found outcome supplier.observer depth
  | ok frame =>
    have within : cut.stop ≤ (exchange.told cut frame).receiver.pending.length :=
      Receiver.stop_le_of_cut? found
    rw [reportNext_of_reported found outcome, Supplier.observer, react_handover]
    refine Prod.ext (supplier.verdict_listener _).symm ?_
    exact congrArg (Exchange.mk · (exchange.told cut frame).heard)
      (Receiver.dropFrame_receiveAll within _)

/-! ### Runs of reports -/

/-- What a run of reports to a supplier comes to that began after `count` reports. It tells of the
frames in order, those that were there and those that arrive with the chunks, as if all chunks
had arrived before. It ends like a run of reports to a listener, unless the rounds are used up
first. -/
inductive Supplied (supplier : Supplier φ) (receiver : Receiver τ) (heard : List (Event φ))
    (reports : List (Report φ)) (count rounds : Nat) (after : Receiver τ) : Ending → Prop where
  | finished (drained : Drained receiver supplier.listener heard reports none after) :
    Supplied supplier receiver heard reports count rounds after (.finished (count + reports.length))
  | failed {fault : Fault}
    (drained : Drained receiver supplier.listener heard reports (some fault) after) :
    Supplied supplier receiver heard reports count rounds after (.failed fault)
  | unfinished (told : reports.map Report.raw <+: receiver.frames)
    (used : reports.length = rounds) :
    Supplied supplier receiver heard reports count rounds after .unfinished

/-- One more report in front. -/
theorem Supplied.cons {supplier : Supplier φ} {receiver next after : Receiver τ}
    {heard : List (Event φ)} {reports : List (Report φ)} {count rounds : Nat} {ending : Ending}
    (supplied : Supplied supplier next heard reports (count + 1) rounds after ending)
    (trimmed : receiver.Trimmed) (found : receiver.cut? = some cut)
    (limit : next.limit = receiver.limit)
    (pending : next.pending = Pending.dropFrame receiver.pending cut.stop)
    (table : next.table = (receiver.judge (φ := φ) cut).2) {report : Report φ}
    (raw : report.raw = receiver.pending.take cut.stop) :
    Supplied supplier receiver heard (report :: reports) count (rounds + 1) after ending := by
  cases supplied with
  | finished drained =>
    rw [Nat.add_assoc, Nat.add_comm 1]
    exact .finished (drained.cons trimmed found limit pending table raw)
  | failed drained => exact .failed (drained.cons trimmed found limit pending table raw)
  | unfinished told used =>
    obtain ⟨_, order⟩ := Receiver.Leaves.of_cut? trimmed found next limit pending
    refine .unfinished ?_ (congrArg Nat.succ used)
    rw [order, List.map_cons, raw]
    exact List.cons_prefix_cons.mpr ⟨rfl, told⟩

/-- Whatever chunks have arrived before, the cut at a separator takes the same bytes, and the same
is left as if they arrive afterwards. -/
theorem receiveAll_dropFrame_told {stop : Nat} (within : stop ≤ exchange.receiver.pending.length)
    (frame : Option φ) (chunks : List Bytes) :
    let supplied := exchange.receiver.receiveAll chunks
    let next := ((exchange.told (.frame stop) frame).dropFrame stop).receiver.receiveAll chunks
    (reportOf exchange.receiver (.frame stop) frame).raw = supplied.pending.take stop ∧
      next.limit = supplied.limit ∧ next.pending = Pending.dropFrame supplied.pending stop ∧
      next.table = (supplied.judge (φ := φ) (.frame stop)).2 := by
  intro supplied next
  refine ⟨(Receiver.take_receiveAll within chunks).symm, ?_⟩
  unfold supplied next
  rw [Receiver.judge_receiveAll within, Receiver.receiveAll_eq, Receiver.receiveAll_eq]
  exact ⟨rfl, (Pending.dropFrame_receive within _).symm, rfl⟩

/-- Each round tells of the next frame and takes it, and the chunks arrive meanwhile. -/
theorem reportFrom_supplier (trimmed : exchange.receiver.Trimmed)
    (unlimited : exchange.receiver.limit = none) (supplier : Supplier φ)
    (depth rounds count : Nat) :
    ∃ (reports : List (Report φ)) (chunks : List Bytes) (ending : Ending) (after : Exchange τ φ),
      exchange.reportFrom supplier.observer (depth + 1) rounds count = (ending, after) ∧
      after.heard = (reports.map Event.report).reverse ++ exchange.heard ∧
      supplier.handed after.heard = supplier.handed exchange.heard ++ chunks ∧
      Supplied supplier (exchange.receiver.receiveAll chunks) after.heard reports count rounds
        after.receiver ending := by
  induction rounds generalizing exchange count with
  | zero =>
    exact ⟨[], [], .unfinished, exchange, rfl, rfl, (List.append_nil _).symm,
      .unfinished List.nil_prefix rfl⟩
  | succ rounds inductionHypothesis =>
    rw [reportFrom]
    cases found : exchange.receiver.cut? with
    | none =>
      rw [reportNext_of_cut?_eq_none found]
      exact ⟨[], [], .finished count, exchange, rfl, rfl, (List.append_nil _).symm,
        .finished (.finished trimmed found _ _)⟩
    | some cut =>
      rw [reportNext_supplier found]
      obtain ⟨stop, rfl, separated⟩ := Receiver.cut_of_unlimited unlimited found
      cases outcome : reported (exchange.receiver.judge (φ := φ) (.frame stop)).1 with
      | error fault =>
        exact ⟨[], [], .failed fault, exchange.refused (.frame stop), rfl, rfl,
          (List.append_nil _).symm, .failed (.refused trimmed found outcome _ _ _ rfl rfl)⟩
      | ok frame =>
        have within := Pending.le_of_separator? separated
        simp only [Listener.verdict]
        cases raises : supplier.listener (exchange.told (.frame stop) frame).heard with
        | some fault =>
          obtain ⟨raw, limit, pending, _⟩ := receiveAll_dropFrame_told within frame
            (supplier (exchange.told (.frame stop) frame).heard).chunks
          exact ⟨[reportOf exchange.receiver (.frame stop) frame], _, .failed fault, _, rfl, rfl,
            rfl, .failed (.raised (trimmed.receiveAll _) (Receiver.cut?_receiveAll separated _)
              raises raw _ limit pending)⟩
        | none =>
          let first := (supplier (exchange.told (.frame stop) frame).heard).chunks
          let next := ((exchange.told (.frame stop) frame).dropFrame stop).receiveAll first
          have dropped : ((exchange.told (.frame stop) frame).dropFrame stop).receiver.Trimmed :=
            Bytes.head?_dropZeros _
          have nextUnlimited : next.receiver.limit = none :=
            (congrArg Receiver.limit (Receiver.receiveAll_eq _ first)).trans unlimited
          obtain ⟨reports, chunks, ending, after, ended, heard, handed, supplied⟩ :=
            inductionHypothesis (dropped.receiveAll first) nextUnlimited (count + 1)
          have both : next.receiver.receiveAll chunks =
              ((exchange.told (.frame stop) frame).dropFrame stop).receiver.receiveAll
                (first ++ chunks) :=
            (Receiver.receiveAll_append _ first chunks).symm
          rw [both] at supplied
          obtain ⟨raw, limit, pending, table⟩ :=
            receiveAll_dropFrame_told within frame (first ++ chunks)
          refine ⟨reportOf exchange.receiver (.frame stop) frame :: reports, first ++ chunks,
            ending, after, ended, ?_, ?_, supplied.cons (trimmed.receiveAll _)
              (Receiver.cut?_receiveAll separated _) limit pending table raw⟩
          · rw [heard, List.map_cons, List.reverse_cons, List.append_assoc]
            rfl
          · rw [handed, ← List.append_assoc]
            rfl

end Exchange

/-! ### Chunks during and after reports -/

/-- A stream has no more ended segments than bytes. -/
theorem length_ended_le (begun stream : Bytes) :
    (segmentsAfter begun stream).ended.length ≤ stream.length := by
  induction stream generalizing begun with
  | nil => exact Nat.zero_le _
  | cons byte stream inductionHypothesis =>
    rw [segmentsAfter]
    split
    case isTrue =>
      have others := inductionHypothesis []
      dsimp only
      split
      case isTrue => exact Nat.le_succ_of_le others
      case isFalse => exact Nat.succ_le_succ others
    case isFalse => exact Nat.le_succ_of_le (inductionHypothesis _)

variable [Table τ φ]

/-- A run of reports without a limit that nothing interrupts tells of all ended segments and leaves
the bytes after the last separator. -/
theorem Drained.segments_of_finished {receiver after : Receiver τ} {listener : Listener φ}
    {heard : List (Event φ)} {reports : List (Report φ)}
    (drained : Drained receiver listener heard reports none after)
    (unlimited : receiver.limit = none) :
    reports.map Report.raw = (segments receiver.pending).ended ∧
      after.pending = (segments receiver.pending).rest := by
  obtain ⟨_, gone, halt, leaves⟩ := drained
  have frames := Receiver.frames_of_unlimited unlimited
  cases halt with
  | finished all =>
    have aligned : Aligned receiver.pending (reports.map Report.raw).length after.pending :=
      ⟨frames ▸ leaves.complete, leaves.pending⟩
    rw [frames] at all
    exact ⟨all, aligned.pending_eq_rest (congrArg List.length all)⟩

namespace Exchange

/-- Every run of reports tells of the first ended segments of the stream. One that ends tells of all
of them, unless a fault interrupts it. -/
theorem Supplied.tells_segments {supplier : Supplier φ} {receiver after : Receiver τ}
    {heard : List (Event φ)} {reports : List (Report φ)} {rounds : Nat} {ending : Ending}
    (supplied : Supplied supplier receiver heard reports 0 rounds after ending)
    (unlimited : receiver.limit = none) {stream : Bytes}
    (found : segments receiver.pending = segments stream) :
    let raws := reports.map Report.raw
    raws <+: (segments stream).ended ∧
      ((ending = .finished reports.length ∧ raws = (segments stream).ended ∧
          after.pending = (segments stream).rest) ∨
        (ending = .unfinished ∧ reports.length = rounds ∧ rounds ≤ stream.length) ∨
        ∃ fault gone, ending = .failed fault ∧
          Halt receiver supplier.listener heard raws (some fault) gone) := by
  intro raws
  have frames := Receiver.frames_of_unlimited unlimited
  rw [found] at frames
  cases supplied with
  | finished drained =>
    have all := drained.segments_of_finished unlimited
    rw [found] at all
    rw [Nat.zero_add]
    exact ⟨all.1 ▸ List.prefix_rfl, Or.inl ⟨rfl, all⟩⟩
  | failed drained =>
    obtain ⟨told, gone, halt, _⟩ := drained
    exact ⟨frames ▸ told, Or.inr (Or.inr ⟨_, gone, rfl, halt⟩)⟩
  | unfinished told used =>
    rw [frames] at told
    have fewer := told.length_le.trans (length_ended_le [] stream)
    rw [List.length_map, used] at fewer
    exact ⟨told, Or.inr (Or.inl ⟨rfl, used, fewer⟩)⟩

/-- One report: the chunks that are handed over meanwhile can follow it. -/
theorem reportNext_start_supplier (supplier : Supplier φ) (depth : Nat) (receiver : Receiver τ) :
    let during := (start receiver).reportNext supplier.observer depth
    let before := (start receiver).reportNext supplier.listener.observer depth
    during.1 = before.1 ∧ during.2.heard = before.2.heard ∧
      during.2.receiver = before.2.receiver.receiveAll (supplier.handed before.2.heard) := by
  intro during before
  unfold during before
  cases depth with
  | zero => exact ⟨rfl, rfl, rfl⟩
  | succ depth =>
    cases found : (start receiver : Exchange τ φ).receiver.cut? with
    | none =>
      rw [reportNext_of_cut?_eq_none found, reportNext_of_cut?_eq_none found]
      exact ⟨rfl, rfl, rfl⟩
    | some cut =>
      rw [reportNext_supplier found, reportNext_listener found]
      cases reported ((start receiver : Exchange τ φ).receiver.judge (φ := φ) cut).1 with
      | error fault => exact ⟨rfl, rfl, rfl⟩
      | ok frame => exact ⟨rfl, rfl, rfl⟩

end Exchange

/-- It makes no difference whether an observer hands chunks over while a frame is reported to it or
whether they arrive, in order, when the report has ended: the report ends alike, with the same
fault if there is one, the observer is told the same, and the receiver is the same. This is so
of every receiver, whatever its limit, its pending bytes and its table. A run of reports of a
receiver without a limit, if neither the observer nor the table interrupts it, tells of the ended
segments of what was pending and of the chunks after it, each once and in order, and leaves the
bytes after the last separator. It ends if it may go on for more rounds than there are bytes. -/
theorem chunks_arrive_during_or_after_report (supplier : Supplier φ) (depth : Nat) :
    (∀ receiver : Receiver τ,
      let during := (Exchange.start receiver).reportNext supplier.observer depth
      let before := (Exchange.start receiver).reportNext supplier.listener.observer depth
      during.1 = before.1 ∧ during.2.heard = before.2.heard ∧
        during.2.receiver = before.2.receiver.receiveAll (supplier.handed before.2.heard)) ∧
    ∀ (table : τ) (uses : List (Use φ)) (rounds : Nat),
      let receiver := ((History.start none table).run uses).receiver
      ∃ (reports : List (Report φ)) (ending : Exchange.Ending) (after : Exchange τ φ),
        (Exchange.start receiver).reportAll supplier.observer (depth + 1) rounds =
            (ending, after) ∧
          after.heard = (reports.map Event.report).reverse ∧
          let chunks := supplier.handed after.heard
          let stream := receiver.pending ++ chunks.flatten
          let raws := reports.map Report.raw
          raws <+: (segments stream).ended ∧
            ((ending = .finished reports.length ∧ raws = (segments stream).ended ∧
                after.receiver.pending = (segments stream).rest) ∨
              (ending = .unfinished ∧ reports.length = rounds ∧ rounds ≤ stream.length) ∨
              ∃ fault gone, ending = .failed fault ∧
                Halt (receiver.receiveAll chunks) supplier.listener after.heard raws (some fault)
                  gone) := by
  refine ⟨Exchange.reportNext_start_supplier supplier depth, fun table uses rounds => ?_⟩
  intro receiver
  obtain ⟨unlimited, trimmed⟩ :
      (Exchange.start receiver : Exchange τ φ).receiver.limit = none ∧ receiver.Trimmed :=
    (History.sound_run none table uses).receiver
  obtain ⟨reports, chunks, ending, after, ended, heard, handed, supplied⟩ :=
    Exchange.reportFrom_supplier trimmed unlimited supplier depth rounds 0
  obtain rfl : supplier.handed after.heard = chunks := handed
  refine ⟨reports, ending, after, ended, ?_, ?_⟩
  · rw [heard, Exchange.start, List.append_nil]
  · exact supplied.tells_segments ((receiver.limit_receiveAll _).trans unlimited)
      (trimmed.segments_receiveAll _)

/-- All pending bytes are given up, and the zeros in front of the chunk go with them. -/
example :
    let receiver : Receiver Verbatim := ⟨some 2, [1, 2, 3], ⟨false⟩, []⟩
    let supplier : Supplier Bytes := fun _ => ⟨[[0, 0, 0x7f], [0]], none⟩
    let after := ((Exchange.start receiver).reportNext supplier.observer 1).2
    after.receiver.pending = [0x7f, 0] := by
  decide +kernel

end ZeroFrame

/-
This file counts the bytes that come and go while frames are reported.

How many bytes are pending tells nothing about the progress of a run, since the observer may hand
over as many as are cut off; and the cut that ends a report may find that the observer has taken
everything. But every byte that is gone was removed, and of those that were pending or handed over
none is removed twice. A report finds some bytes that end in a cut. If the observer removes none
of them, they are still there for the cut, which is not at the front; so in any case a report
removes some byte, and a run has no more reports than there were bytes.
-/

import ZeroFrame.Proofs.Link.Nesting

namespace ZeroFrame

variable {τ φ : Type}

/-! ### Bytes that come and go -/

/-- How many bytes are handed over to a receiver in the course of something, and how many are
removed from its pending bytes. -/
structure Turnover where
  handed : Nat
  removed : Nat
  deriving DecidableEq, Repr

namespace Turnover

instance : Zero Turnover := ⟨⟨0, 0⟩⟩

/-- The turnover of one thing after the other. -/
instance : Add Turnover :=
  ⟨fun first second => ⟨first.handed + second.handed, first.removed + second.removed⟩⟩

@[simp] theorem handed_zero : (0 : Turnover).handed = 0 := rfl

@[simp] theorem removed_zero : (0 : Turnover).removed = 0 := rfl

@[simp] theorem handed_add (first second : Turnover) :
    (first + second).handed = first.handed + second.handed := rfl

@[simp] theorem removed_add (first second : Turnover) :
    (first + second).removed = first.removed + second.removed := rfl

theorem zero_add (turnover : Turnover) : 0 + turnover = turnover := by
  obtain ⟨handed, removed⟩ := turnover
  exact congrArg₂ mk (Nat.zero_add handed) (Nat.zero_add removed)

theorem add_assoc (first second third : Turnover) :
    first + second + third = first + (second + third) :=
  congrArg₂ mk (Nat.add_assoc _ _ _) (Nat.add_assoc _ _ _)

def ofChunk (chunk : Bytes) : Turnover := ⟨chunk.length, 0⟩

/-- What was pending before and is not afterwards was removed. -/
def ofCut (before after : Receiver τ) : Turnover :=
  ⟨0, before.pending.length - after.pending.length⟩

@[simp] theorem handed_ofChunk (chunk : Bytes) : (ofChunk chunk).handed = chunk.length := rfl

@[simp] theorem removed_ofChunk (chunk : Bytes) : (ofChunk chunk).removed = 0 := rfl

@[simp] theorem handed_ofCut (before after : Receiver τ) : (ofCut before after).handed = 0 := rfl

@[simp] theorem removed_ofCut (before after : Receiver τ) :
    (ofCut before after).removed = before.pending.length - after.pending.length := rfl

/-- No pending byte is gone that was not removed, and none is there or was removed that was neither
pending nor handed over. Zeros that are dropped when they arrive count as handed over only. -/
structure Accounts (turnover : Turnover) (before after : Receiver τ) : Prop where
  kept : before.pending.length ≤ after.pending.length + turnover.removed
  within : after.pending.length + turnover.removed ≤ before.pending.length + turnover.handed

namespace Accounts

variable {before between after : Receiver τ} {first second : Turnover}

theorem zero (same : after.pending = before.pending) : Accounts 0 before after :=
  ⟨(congrArg List.length same).ge, (congrArg List.length same).le⟩

theorem add (earlier : first.Accounts before between) (later : second.Accounts between after) :
    (first + second).Accounts before after := by
  obtain ⟨keptFirst, withinFirst⟩ := earlier
  obtain ⟨keptSecond, withinSecond⟩ := later
  constructor
  · rw [removed_add]
    omega
  · rw [removed_add, handed_add]
    omega

/-- Only the pending bytes count. -/
theorem congr {turnover : Turnover} {other : Receiver τ}
    (accounts : turnover.Accounts before after) (same : other.pending = before.pending) :
    turnover.Accounts other after :=
  ⟨same ▸ accounts.kept, same ▸ accounts.within⟩

theorem receive (receiver : Receiver τ) (chunk : Bytes) :
    (ofChunk chunk).Accounts receiver (receiver.receive chunk) := by
  constructor
  · unfold Receiver.receive Pending.receive
    split
    case isTrue empty => simp [List.isEmpty_iff.mp empty]
    case isFalse => simp
  · unfold Receiver.receive Pending.receive
    split
    case isTrue =>
      have shorter := Bytes.length_dropZeros_le chunk
      simp only [removed_ofChunk, handed_ofChunk]
      omega
    case isFalse => simp

theorem cut (shorter : after.pending.length ≤ before.pending.length) :
    (ofCut before after).Accounts before after := by
  constructor
  · rw [removed_ofCut]
    omega
  · rw [removed_ofCut]
    omega

end Accounts

end Turnover

theorem Receiver.length_dropFrame_le (receiver : Receiver τ) (stop : Nat) :
    (receiver.dropFrame stop).pending.length ≤ receiver.pending.length - stop :=
  Pending.length_dropFrame_le receiver.pending stop

variable [Table τ φ]

theorem Receiver.length_decode_le (receiver : Receiver τ) :
    (receiver.decode (φ := φ)).2.pending.length ≤ receiver.pending.length := by
  cases found : receiver.cut? with
  | none => rw [decode_of_cut?_eq_none found]
  | some cut => exact (length_decode_lt found).le

namespace Exchange

/-- The turnover of a reaction; `turnoverOfReport` is that of the reports that it asks for. -/
def turnoverOfReaction (report : Exchange τ φ → Except Fault Bool × Exchange τ φ)
    (turnoverOfReport : Exchange τ φ → Turnover) (call : Nat) :
    Reaction φ → Exchange τ φ → Turnover
  | .done, _ => 0
  | .raise _, _ => 0
  | .receive chunk rest, exchange =>
    .ofChunk chunk + turnoverOfReaction report turnoverOfReport call rest
      { exchange with receiver := exchange.receiver.receive chunk }
  | .decode rest, exchange =>
    let (outcome, receiver) := exchange.receiver.decode
    .ofCut exchange.receiver receiver +
      turnoverOfReaction report turnoverOfReport call (rest outcome)
        ({ exchange with receiver := receiver }.tell (.taken call outcome))
  | .reportNext rest, exchange =>
    let (outcome, after) := report exchange
    turnoverOfReport exchange + turnoverOfReaction report turnoverOfReport call (rest outcome)
      (after.tell (.nested call outcome))

/-- The exchange when the observer has reacted to the report of a cut, which is then made. -/
def reacted (observer : Observer φ) (depth : Nat) (exchange : Exchange τ φ) (cut : Cut)
    (frame : Option φ) : Exchange τ φ :=
  (react (reportNext observer depth) exchange.reports (observer (exchange.told cut frame).heard)
    (exchange.told cut frame)).2

/-- The turnover of the next report: that of the reaction to it, and then that of the cut. -/
def turnoverOfReport (observer : Observer φ) : Nat → Exchange τ φ → Turnover
  | 0, _ => 0
  | depth + 1, exchange =>
    match exchange.receiver.cut? with
    | none => 0
    | some cut =>
      match reported (exchange.receiver.judge (φ := φ) cut).1 with
      | .error _ => .ofCut exchange.receiver (exchange.refused cut).receiver
      | .ok frame =>
        let reacted := exchange.reacted observer depth cut frame
        turnoverOfReaction (reportNext observer depth) (turnoverOfReport observer depth)
            exchange.reports (observer (exchange.told cut frame).heard) (exchange.told cut frame) +
          .ofCut reacted.receiver (reacted.receiver.dropFrame cut.stop)

/-- The turnover of so many reports, whatever these come to. -/
def turnoverOfReports (observer : Observer φ) (depth : Nat) : Nat → Exchange τ φ → Turnover
  | 0, _ => 0
  | calls + 1, exchange =>
    turnoverOfReport observer depth exchange +
      turnoverOfReports observer depth calls (exchange.reportNext observer depth).2

variable {exchange : Exchange τ φ} {cut : Cut} {observer : Observer φ} {depth : Nat}

theorem turnoverOfReport_of_cut?_eq_none (none : exchange.receiver.cut? = none) :
    exchange.turnoverOfReport observer (depth + 1) = 0 := by
  rw [turnoverOfReport, none]

theorem turnoverOfReport_of_refused {fault : Fault} (found : exchange.receiver.cut? = some cut)
    (isRefused : reported (exchange.receiver.judge (φ := φ) cut).1 = .error fault) :
    exchange.turnoverOfReport observer (depth + 1) =
      .ofCut exchange.receiver (exchange.refused cut).receiver := by
  rw [turnoverOfReport, found]
  simp only [isRefused]

theorem turnoverOfReport_of_reported {frame : Option φ}
    (found : exchange.receiver.cut? = some cut)
    (isReported : reported (exchange.receiver.judge (φ := φ) cut).1 = .ok frame) :
    exchange.turnoverOfReport observer (depth + 1) =
      turnoverOfReaction (reportNext observer depth) (turnoverOfReport observer depth)
          exchange.reports (observer (exchange.told cut frame).heard) (exchange.told cut frame) +
        .ofCut (exchange.reacted observer depth cut frame).receiver
          ((exchange.reacted observer depth cut frame).receiver.dropFrame cut.stop) := by
  rw [turnoverOfReport, found]
  simp only [isReported]

theorem reportNext_of_reacted {frame : Option φ} (found : exchange.receiver.cut? = some cut)
    (isReported : reported (exchange.receiver.judge (φ := φ) cut).1 = .ok frame) :
    (exchange.reportNext observer (depth + 1)).2 =
      (exchange.reacted observer depth cut frame).dropFrame cut.stop := by
  rw [reportNext_of_reported found isReported]
  rfl

/-! ### The account of a run -/

/-- Whatever the observer does, if the reports that it asks for are accounted for. -/
theorem accounts_react {report : Exchange τ φ → Except Fault Bool × Exchange τ φ}
    {turnoverOfReport : Exchange τ φ → Turnover}
    (nested : ∀ exchange,
      (turnoverOfReport exchange).Accounts exchange.receiver (report exchange).2.receiver)
    (call : Nat) (reaction : Reaction φ) (exchange : Exchange τ φ) :
    (turnoverOfReaction report turnoverOfReport call reaction exchange).Accounts exchange.receiver
      (react report call reaction exchange).2.receiver := by
  induction reaction generalizing exchange with
  | done => exact .zero rfl
  | raise fault => exact .zero rfl
  | receive chunk rest inductionHypothesis =>
    exact (Turnover.Accounts.receive exchange.receiver chunk).add (inductionHypothesis _)
  | decode rest inductionHypothesis =>
    exact (Turnover.Accounts.cut exchange.receiver.length_decode_le).add (inductionHypothesis _ _)
  | reportNext rest inductionHypothesis =>
    exact (nested exchange).add (inductionHypothesis _ _)

theorem accounts_reportNext (observer : Observer φ) (depth : Nat) (exchange : Exchange τ φ) :
    (exchange.turnoverOfReport observer depth).Accounts exchange.receiver
      (exchange.reportNext observer depth).2.receiver := by
  induction depth generalizing exchange with
  | zero => exact .zero rfl
  | succ depth inductionHypothesis =>
    cases found : exchange.receiver.cut? with
    | none =>
      rw [reportNext_of_cut?_eq_none found, turnoverOfReport_of_cut?_eq_none found]
      exact .zero rfl
    | some cut =>
      cases outcome : reported (exchange.receiver.judge (φ := φ) cut).1 with
      | error fault =>
        rw [reportNext_of_refused found outcome, turnoverOfReport_of_refused found outcome]
        exact .cut (Receiver.length_dropFrame_lt found).le
      | ok frame =>
        rw [reportNext_of_reacted found outcome, turnoverOfReport_of_reported found outcome]
        have reaction : Turnover.Accounts _ exchange.receiver
            (exchange.reacted observer depth cut frame).receiver :=
          (accounts_react inductionHypothesis exchange.reports
            (observer (exchange.told cut frame).heard) (exchange.told cut frame)).congr rfl
        refine reaction.add (.cut ?_)
        exact (Receiver.length_dropFrame_le _ cut.stop).trans (Nat.sub_le _ _)

theorem accounts_afterReports (observer : Observer φ) (depth calls : Nat)
    (exchange : Exchange τ φ) :
    (exchange.turnoverOfReports observer depth calls).Accounts exchange.receiver
      (exchange.afterReports observer depth calls).receiver := by
  induction calls generalizing exchange with
  | zero => exact .zero rfl
  | succ calls inductionHypothesis =>
    exact (accounts_reportNext observer depth exchange).add (inductionHypothesis _)

/-! ### Progress -/

theorem exists_cut?_of_reportNext (goesOn : (exchange.reportNext observer depth).1 = .ok true) :
    ∃ cut less, depth = less + 1 ∧ exchange.receiver.cut? = some cut := by
  cases depth with
  | zero => cases goesOn
  | succ depth =>
    cases found : exchange.receiver.cut? with
    | none =>
      rw [reportNext_of_cut?_eq_none found] at goesOn
      cases goesOn
    | some cut => exact ⟨cut, depth, rfl, rfl⟩

/-- A report of a frame removes some byte, in whatever state the observer leaves the receiver. -/
theorem removed_pos_of_cut? (trimmed : exchange.receiver.Trimmed)
    (found : exchange.receiver.cut? = some cut) :
    0 < (exchange.turnoverOfReport observer (depth + 1)).removed := by
  cases outcome : reported (exchange.receiver.judge (φ := φ) cut).1 with
  | error fault =>
    rw [turnoverOfReport_of_refused found outcome]
    exact Nat.sub_pos_of_lt (Receiver.length_dropFrame_lt found)
  | ok frame =>
    have reaction := accounts_react (accounts_reportNext observer depth) exchange.reports
      (observer (exchange.told cut frame).heard) (exchange.told cut frame)
    have same : exchange.receiver.pending = (exchange.told cut frame).receiver.pending := rfl
    have kept := (reaction.congr same).kept
    have inside := trimmed.stop_pos found
    have occupied : 0 < exchange.receiver.pending.length :=
      Nat.zero_lt_of_lt (Receiver.length_dropFrame_lt found)
    have shorter :=
      (exchange.reacted observer depth cut frame).receiver.length_dropFrame_le cut.stop
    rw [turnoverOfReport_of_reported found outcome, Turnover.removed_add, Turnover.removed_ofCut]
    unfold reacted at shorter ⊢
    omega

theorem turnoverOfReports_add (observer : Observer φ) (depth first second : Nat)
    (exchange : Exchange τ φ) :
    exchange.turnoverOfReports observer depth (first + second) =
      exchange.turnoverOfReports observer depth first +
        (exchange.afterReports observer depth first).turnoverOfReports observer depth second := by
  induction first generalizing exchange with
  | zero => rw [Nat.zero_add, turnoverOfReports, afterReports, Turnover.zero_add]
  | succ first inductionHypothesis =>
    rw [Nat.succ_add, turnoverOfReports, inductionHypothesis, turnoverOfReports,
      Turnover.add_assoc, afterReports]

theorem removed_lt_of_goesOn (trimmed : exchange.receiver.Trimmed) {calls : Nat}
    (goesOn : ((exchange.afterReports observer depth calls).reportNext observer depth).1 =
      .ok true) :
    (exchange.turnoverOfReports observer depth calls).removed <
      (exchange.turnoverOfReports observer depth (calls + 1)).removed := by
  obtain ⟨cut, less, rfl, found⟩ := exists_cut?_of_reportNext goesOn
  have more : 0 < ((exchange.afterReports observer (less + 1) calls).turnoverOfReport observer
      (less + 1)).removed :=
    removed_pos_of_cut? (trimmed_afterReports trimmed observer (less + 1) calls) found
  rw [turnoverOfReports_add, Turnover.removed_add, turnoverOfReports, Turnover.removed_add]
  omega

/-- The first reports of a run that all find a frame have removed a byte each. -/
theorem le_removed_of_goesOn (trimmed : exchange.receiver.Trimmed) {calls : Nat}
    (goesOn : ∀ call < calls,
      ((exchange.afterReports observer depth call).reportNext observer depth).1 = .ok true) :
    calls ≤ (exchange.turnoverOfReports observer depth calls).removed := by
  have grows : StrictMonoOn (fun call => (exchange.turnoverOfReports observer depth call).removed)
      (Set.Iic calls) :=
    strictMonoOn_Iic_of_lt_succ fun call below => removed_lt_of_goesOn trimmed (goesOn call below)
  exact grows.Iic_id_le calls (Nat.le_refl calls)

end Exchange

end ZeroFrame

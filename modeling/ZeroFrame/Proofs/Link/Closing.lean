/-
This file shows that a run of reports comes to an end.

Each report of a run removes a byte, so it has no more reports than bytes were pending at the start
or were handed over. Reports are numbered through a run, also those that an observer asks for
while it is told of another, and each number is used once. What an observer hands over is
therefore bounded by what it does at each number; if it acts at finitely many numbers only, then
after these no bytes arrive any more, and the run ends. For an observer with a script the bound is
known beforehand, and the rounds that such a run is given are enough.
-/

import ZeroFrame.Proofs.Link.Turnover

namespace ZeroFrame

variable {τ φ : Type} [Table τ φ]

namespace Exchange

variable {exchange : Exchange τ φ} {observer : Observer φ} {depth : Nat}

/-! ### The number of reports -/

omit [Table τ φ] in
theorem reports_tell_taken (exchange : Exchange τ φ) (call : Nat) (outcome : Except Fault φ) :
    (exchange.tell (.taken call outcome)).reports = exchange.reports :=
  List.countP_cons_of_neg Bool.false_ne_true

omit [Table τ φ] in
theorem reports_tell_nested (exchange : Exchange τ φ) (call : Nat) (outcome : Except Fault Bool) :
    (exchange.tell (.nested call outcome)).reports = exchange.reports :=
  List.countP_cons_of_neg Bool.false_ne_true

theorem reports_told (exchange : Exchange τ φ) (cut : Cut) (frame : Option φ) :
    (exchange.told cut frame).reports = exchange.reports + 1 :=
  List.countP_cons_of_pos rfl

theorem reports_le_react {report : Exchange τ φ → Except Fault Bool × Exchange τ φ}
    (nested : ∀ exchange, exchange.reports ≤ (report exchange).2.reports) (call : Nat)
    (reaction : Reaction φ) (exchange : Exchange τ φ) :
    exchange.reports ≤ (react report call reaction exchange).2.reports := by
  induction reaction generalizing exchange with
  | done => exact Nat.le_refl _
  | raise fault => exact Nat.le_refl _
  | receive chunk rest inductionHypothesis =>
    exact inductionHypothesis { exchange with receiver := exchange.receiver.receive chunk }
  | decode rest inductionHypothesis =>
    have later := inductionHypothesis exchange.receiver.decode.1
      (tell { exchange with receiver := (exchange.receiver.decode (φ := φ)).2 }
        (.taken call exchange.receiver.decode.1))
    rw [reports_tell_taken] at later
    exact later
  | reportNext rest inductionHypothesis =>
    have later := inductionHypothesis (report exchange).1
      ((report exchange).2.tell (.nested call (report exchange).1))
    rw [reports_tell_nested] at later
    exact (nested exchange).trans later

/-- The report that is told counts, and those that the observer asks for come after it. -/
theorem reports_lt_reacted
    (nested : ∀ exchange : Exchange τ φ,
      exchange.reports ≤ (exchange.reportNext observer depth).2.reports)
    (exchange : Exchange τ φ) (cut : Cut) (frame : Option φ) :
    exchange.reports < (exchange.reacted observer depth cut frame).reports := by
  have later := reports_le_react nested exchange.reports
    (observer (exchange.told cut frame).heard) (exchange.told cut frame)
  rw [reports_told] at later
  exact later

theorem reports_le_reportNext (observer : Observer φ) (depth : Nat) (exchange : Exchange τ φ) :
    exchange.reports ≤ (exchange.reportNext observer depth).2.reports := by
  induction depth generalizing exchange with
  | zero => exact Nat.le_refl _
  | succ depth inductionHypothesis =>
    cases found : exchange.receiver.cut? with
    | none => rw [reportNext_of_cut?_eq_none found]
    | some cut =>
      cases outcome : reported (exchange.receiver.judge (φ := φ) cut).1 with
      | error fault =>
        rw [reportNext_of_refused found outcome]
        exact Nat.le_refl _
      | ok frame =>
        rw [reportNext_of_reacted found outcome]
        exact (reports_lt_reacted inductionHypothesis exchange cut frame).le

theorem reports_lt_of_goesOn (goesOn : (exchange.reportNext observer depth).1 = .ok true) :
    exchange.reports < (exchange.reportNext observer depth).2.reports := by
  obtain ⟨cut, depth, rfl, found⟩ := exists_cut?_of_reportNext goesOn
  cases outcome : reported (exchange.receiver.judge (φ := φ) cut).1 with
  | error fault =>
    rw [reportNext_of_refused found outcome] at goesOn
    cases goesOn
  | ok frame =>
    rw [reportNext_of_reacted found outcome]
    exact reports_lt_reacted (reports_le_reportNext observer depth) exchange cut frame

theorem afterReports_succ (observer : Observer φ) (depth calls : Nat) (exchange : Exchange τ φ) :
    exchange.afterReports observer depth (calls + 1) =
      ((exchange.afterReports observer depth calls).reportNext observer depth).2 := by
  induction calls generalizing exchange with
  | zero => rfl
  | succ calls inductionHypothesis => exact inductionHypothesis _

theorem le_reports_of_goesOn {calls : Nat}
    (goesOn : ∀ call < calls,
      ((exchange.afterReports observer depth call).reportNext observer depth).1 = .ok true) :
    calls ≤ (exchange.afterReports observer depth calls).reports := by
  have step (call : Nat) (below : call < calls) :
      (exchange.afterReports observer depth call).reports <
        (exchange.afterReports observer depth (call + 1)).reports := by
    rw [afterReports_succ]
    exact reports_lt_of_goesOn (goesOn call below)
  have grows : StrictMonoOn (fun call => (exchange.afterReports observer depth call).reports)
      (Set.Iic calls) := strictMonoOn_Iic_of_lt_succ step
  exact grows.Iic_id_le calls (Nat.le_refl calls)

end Exchange

/-! ### What observers hand over -/

/-- The chunks that an observer with this reaction hands over hold at most so many bytes
together. -/
def Reaction.HandsAtMost : Reaction φ → Nat → Prop
  | .done, _ => True
  | .raise _, _ => True
  | .receive chunk rest, most => chunk.length ≤ most ∧ rest.HandsAtMost (most - chunk.length)
  | .decode rest, most => ∀ outcome, (rest outcome).HandsAtMost most
  | .reportNext rest, most => ∀ outcome, (rest outcome).HandsAtMost most

/-- At each report from number `first` on, the observer hands over at most as many bytes as it is
allowed at that number. -/
def Observer.Keeps (observer : Observer φ) (first : Nat) (allowed : Nat → Nat) : Prop :=
  ∀ heard call, heard.countP Event.isReport = call + 1 → first ≤ call →
    (observer heard).HandsAtMost (allowed call)

namespace Exchange

variable {exchange : Exchange τ φ} {observer : Observer φ} {depth first : Nat}
  {allowed : Nat → Nat}

/-- A reaction spends what it may itself hand over and what the reports that it asks for may. -/
theorem handed_react_le {report : Exchange τ φ → Except Fault Bool × Exchange τ φ}
    {turnoverOfReport : Exchange τ φ → Turnover}
    (later : ∀ exchange, exchange.reports ≤ (report exchange).2.reports)
    (nested : ∀ exchange, first ≤ exchange.reports → (turnoverOfReport exchange).handed ≤
      ∑ call ∈ Finset.Ico exchange.reports (report exchange).2.reports, allowed call)
    (call : Nat) {reaction : Reaction φ} {most : Nat} (hands : reaction.HandsAtMost most)
    (exchange : Exchange τ φ) (begun : first ≤ exchange.reports) :
    (turnoverOfReaction report turnoverOfReport call reaction exchange).handed ≤
      most + ∑ call ∈ Finset.Ico exchange.reports (react report call reaction exchange).2.reports,
        allowed call := by
  induction reaction generalizing exchange most with
  | done => exact Nat.zero_le _
  | raise fault => exact Nat.zero_le _
  | receive chunk rest inductionHypothesis =>
    obtain ⟨within, others⟩ := hands
    have step := inductionHypothesis others
      { exchange with receiver := exchange.receiver.receive chunk } begun
    have same : ({ exchange with receiver := exchange.receiver.receive chunk } :
      Exchange τ φ).reports = exchange.reports := rfl
    rw [same] at step
    rw [turnoverOfReaction, Turnover.handed_add, Turnover.handed_ofChunk, react]
    omega
  | decode rest inductionHypothesis =>
    have step := inductionHypothesis _ (hands exchange.receiver.decode.1)
      (tell { exchange with receiver := (exchange.receiver.decode (φ := φ)).2 }
        (.taken call exchange.receiver.decode.1))
      (by rw [reports_tell_taken]; exact begun)
    rw [reports_tell_taken] at step
    rw [turnoverOfReaction, Turnover.handed_add, Turnover.handed_ofCut, react, Nat.zero_add]
    exact step
  | reportNext rest inductionHypothesis =>
    have between := later exchange
    have inner := nested exchange begun
    have step := inductionHypothesis _ (hands (report exchange).1)
      ((report exchange).2.tell (.nested call (report exchange).1))
      (by rw [reports_tell_nested]; exact begun.trans between)
    have after := reports_le_react later call (rest (report exchange).1)
      ((report exchange).2.tell (.nested call (report exchange).1))
    rw [reports_tell_nested] at step after
    rw [turnoverOfReaction, Turnover.handed_add, react,
      ← Finset.sum_Ico_consecutive _ between after]
    omega

/-- A report spends no more than is allowed at the numbers of the reports that are made. -/
theorem handed_reportNext_le (keeps : observer.Keeps first allowed)
    (begun : first ≤ exchange.reports) :
    (exchange.turnoverOfReport observer depth).handed ≤
      ∑ call ∈ Finset.Ico exchange.reports (exchange.reportNext observer depth).2.reports,
        allowed call := by
  induction depth generalizing exchange with
  | zero => exact Nat.zero_le _
  | succ depth inductionHypothesis =>
    cases found : exchange.receiver.cut? with
    | none =>
      rw [turnoverOfReport_of_cut?_eq_none found]
      exact Nat.zero_le _
    | some cut =>
      cases outcome : reported (exchange.receiver.judge (φ := φ) cut).1 with
      | error fault =>
        rw [turnoverOfReport_of_refused found outcome]
        exact Nat.zero_le _
      | ok frame =>
        have told := reports_told exchange cut frame
        have hands := keeps (exchange.told cut frame).heard exchange.reports told begun
        have later := reports_lt_reacted (reports_le_reportNext observer depth) exchange cut frame
        have spent := handed_react_le (reports_le_reportNext observer depth)
          (fun _ => inductionHypothesis) exchange.reports hands (exchange.told cut frame)
          (by rw [told]; exact Nat.le_succ_of_le begun)
        rw [told] at spent
        rw [turnoverOfReport_of_reported found outcome, reportNext_of_reacted found outcome,
          Turnover.handed_add, Turnover.handed_ofCut, Nat.add_zero]
        exact spent.trans (Finset.sum_eq_sum_Ico_succ_bot later allowed).ge

theorem handed_afterReports_le (keeps : observer.Keeps first allowed)
    (begun : first ≤ exchange.reports) (depth calls : Nat) :
    ∃ last, (exchange.turnoverOfReports observer depth calls).handed ≤
      ∑ call ∈ Finset.Ico exchange.reports last, allowed call := by
  suffices spent : exchange.reports ≤ (exchange.afterReports observer depth calls).reports ∧
      (exchange.turnoverOfReports observer depth calls).handed ≤
        ∑ call ∈ Finset.Ico exchange.reports
          (exchange.afterReports observer depth calls).reports, allowed call from ⟨_, spent.2⟩
  induction calls generalizing exchange with
  | zero => exact ⟨Nat.le_refl _, Nat.zero_le _⟩
  | succ calls inductionHypothesis =>
    have later := reports_le_reportNext observer depth exchange
    obtain ⟨after, others⟩ := inductionHypothesis (begun.trans later)
    refine ⟨later.trans after, ?_⟩
    rw [turnoverOfReports, Turnover.handed_add, afterReports,
      ← Finset.sum_Ico_consecutive _ later after]
    exact Nat.add_le_add (handed_reportNext_le keeps begun) others

/-! ### The end of a run -/

/-- How a run ends whose last report came to an outcome, after `count` others. -/
def Ending.ofLast (count : Nat) : Except Fault Bool → Ending
  | .ok _ => .finished count
  | .error fault => .failed fault

omit [Table τ φ] in
theorem Ending.ofLast_ne_unfinished (count : Nat) (outcome : Except Fault Bool) :
    ofLast count outcome ≠ .unfinished := by
  intro same
  cases outcome with
  | ok more => cases same
  | error fault => cases same

/-- A run with more rounds than it needs ends with the first report that does not go on. -/
theorem reportFrom_of_last {calls rounds : Nat}
    (goesOn : ∀ call < calls,
      ((exchange.afterReports observer depth call).reportNext observer depth).1 = .ok true)
    (last : ((exchange.afterReports observer depth calls).reportNext observer depth).1 ≠ .ok true)
    (enough : calls < rounds) (count : Nat) :
    exchange.reportFrom observer depth rounds count =
      (.ofLast (count + calls)
          ((exchange.afterReports observer depth calls).reportNext observer depth).1,
        exchange.afterReports observer depth (calls + 1)) := by
  induction calls generalizing exchange rounds count with
  | zero =>
    obtain ⟨rounds, rfl⟩ := Nat.exists_eq_succ_of_ne_zero (Nat.ne_of_gt enough)
    rw [reportFrom]
    rw [afterReports] at last ⊢
    split
    case h_1 after reported => exact absurd (congrArg Prod.fst reported) last
    case h_2 after reported => rw [afterReports, afterReports, reported]; rfl
    case h_3 fault after reported => rw [afterReports, afterReports, reported]; rfl
  | succ calls inductionHypothesis =>
    obtain ⟨rounds, rfl⟩ := Nat.exists_eq_succ_of_ne_zero (Nat.ne_of_gt (Nat.zero_lt_of_lt enough))
    have first := goesOn 0 (Nat.succ_pos calls)
    rw [afterReports] at first
    have others (call : Nat) (below : call < calls) :
        (((exchange.reportNext observer depth).2.afterReports observer depth call).reportNext
          observer depth).1 = .ok true := goesOn (call + 1) (Nat.succ_lt_succ below)
    have later := inductionHypothesis others last (Nat.lt_of_succ_lt_succ enough) (count + 1)
    rw [reportFrom]
    split
    case h_1 after reported =>
      have shifted : ∀ call, exchange.afterReports observer depth (call + 1) =
          after.afterReports observer depth call :=
        fun call => by rw [afterReports, reported]
      rw [reported] at later
      rw [later, shifted, shifted, Nat.add_assoc, Nat.add_comm 1]
    case h_2 after reported =>
      rw [reported] at first
      cases first
    case h_3 fault after reported =>
      rw [reported] at first
      cases first

/-- Some report does not go on, and before it there were no more reports than bytes. -/
theorem exists_last (trimmed : exchange.receiver.Trimmed)
    (keeps : observer.Keeps first fun _ => 0) (depth : Nat) :
    ∃ calls ≤ exchange.receiver.pending.length +
        (exchange.turnoverOfReports observer depth calls).handed,
      (∀ call < calls,
        ((exchange.afterReports observer depth call).reportNext observer depth).1 = .ok true) ∧
      ((exchange.afterReports observer depth calls).reportNext observer depth).1 ≠ .ok true := by
  have bounded (calls : Nat) (goesOn : ∀ call < calls,
      ((exchange.afterReports observer depth call).reportNext observer depth).1 = .ok true) :
      calls ≤ exchange.receiver.pending.length +
        (exchange.turnoverOfReports observer depth calls).handed := by
    have removed := le_removed_of_goesOn trimmed goesOn
    have within := (accounts_afterReports observer depth calls exchange).within
    omega
  have halts : ∃ calls,
      ((exchange.afterReports observer depth calls).reportNext observer depth).1 ≠ .ok true := by
    by_contra never
    have goesOn (call : Nat) :
        ((exchange.afterReports observer depth call).reportNext observer depth).1 = .ok true :=
      not_not.mp fun halt => never ⟨call, halt⟩
    let most := exchange.receiver.pending.length +
      (exchange.turnoverOfReports observer depth first).handed
    have most_le := bounded (first + (most + 1)) fun call _ => goesOn call
    obtain ⟨last, idle⟩ := handed_afterReports_le keeps
      (le_reports_of_goesOn fun call _ => goesOn call) depth (most + 1)
    rw [Finset.sum_const_zero] at idle
    rw [turnoverOfReports_add, Turnover.handed_add] at most_le
    omega
  classical
  have goesOn (call : Nat) (before : call < Nat.find halts) :
      ((exchange.afterReports observer depth call).reportNext observer depth).1 = .ok true :=
    not_not.mp (Nat.find_min halts before)
  exact ⟨Nat.find halts, bounded _ goesOn, goesOn, Nat.find_spec halts⟩

end Exchange

/-! ### Observers that act at finitely many reports -/

/-- Reactions to some of the reports, by the numbers of these. -/
structure Agenda (φ : Type) where
  reactions : List (Nat × Reaction φ)

/-- The observer that follows an agenda. To a report without an entry it does nothing. -/
def Agenda.observer (agenda : Agenda φ) : Observer φ := fun heard =>
  (agenda.reactions.lookup (heard.countP Event.isReport - 1)).getD .done

theorem exists_lookup_eq_none {α : Type} (entries : List (Nat × α)) :
    ∃ first, ∀ call, first ≤ call → entries.lookup call = none := by
  induction entries with
  | nil => exact ⟨0, fun _ _ => rfl⟩
  | cons entry entries inductionHypothesis =>
    obtain ⟨number, value⟩ := entry
    obtain ⟨first, absent⟩ := inductionHypothesis
    refine ⟨max first (number + 1), fun call late => ?_⟩
    have other : (call == number) = false := beq_eq_false_iff_ne.mpr (by omega)
    rw [List.lookup_cons, other]
    exact absent call (by omega)

omit [Table τ φ] in
/-- From some report on, an observer that acts by entries hands nothing over. -/
theorem Observer.exists_keeps {α : Type} {observer : Observer φ} (entries : List (Nat × α))
    (idle : ∀ heard call, heard.countP Event.isReport = call + 1 → entries.lookup call = none →
      observer heard = .done) : ∃ first, observer.Keeps first fun _ => 0 := by
  obtain ⟨first, absent⟩ := exists_lookup_eq_none entries
  refine ⟨first, fun heard call number late => ?_⟩
  rw [idle heard call number (absent call late)]
  exact trivial

omit [Table τ φ] in
theorem Agenda.exists_keeps (agenda : Agenda φ) :
    ∃ first, agenda.observer.Keeps first fun _ => 0 := by
  refine Observer.exists_keeps agenda.reactions fun heard call number absent => ?_
  rw [observer, number, Nat.add_sub_cancel, absent]
  rfl

/-- A run of reports to an observer that acts at finitely many of them ends, whatever it does there:
it may hand any bytes over, take frames, ask for further reports and raise faults. Each report
that goes on removes more bytes from the pending ones, and these are bytes that were pending
or were handed over. So the reports that go on are at most as many as the bytes that were
pending at the start and those that the observer has handed over meanwhile. The first report
that does not go on ends the run, however many rounds are left. -/
theorem reports_come_to_end (limit : Option Nat) (table : τ) (uses : List (Use φ))
    (agenda : Agenda φ) (depth : Nat) :
    let receiver := ((History.start limit table).run uses).receiver
    let exchange : Exchange τ φ := .start receiver
    let after (calls : Nat) := exchange.afterReports agenda.observer depth calls
    let outcome (call : Nat) := ((after call).reportNext agenda.observer depth).1
    let turnover (calls : Nat) := exchange.turnoverOfReports agenda.observer depth calls
    (∀ calls, (turnover calls).Accounts receiver (after calls).receiver) ∧
      (∀ call, outcome call = .ok true →
        (turnover call).removed < (turnover (call + 1)).removed) ∧
      ∃ count ≤ receiver.pending.length + (turnover count).handed,
        (∀ call < count, outcome call = .ok true) ∧ outcome count ≠ .ok true ∧
        ∀ rounds, count < rounds → exchange.reportAll agenda.observer depth rounds =
          (.ofLast count (outcome count), after (count + 1)) := by
  intro receiver exchange after outcome turnover
  have trimmed : exchange.receiver.Trimmed := (History.sound_run limit table uses).receiver.2
  refine ⟨fun calls => Exchange.accounts_afterReports _ depth calls exchange,
    fun call => Exchange.removed_lt_of_goesOn trimmed, ?_⟩
  obtain ⟨first, keeps⟩ := agenda.exists_keeps
  obtain ⟨count, bounded, goesOn, last⟩ := Exchange.exists_last trimmed keeps depth
  refine ⟨count, bounded, goesOn, last, fun rounds enough => ?_⟩
  have ended := Exchange.reportFrom_of_last goesOn last enough 0
  rw [Nat.zero_add] at ended
  exact ended

/-! ### Observers with a script -/

omit [Table τ φ] in
theorem Cue.handsAtMost (cue : Cue) :
    (cue.reaction : Reaction φ).HandsAtMost (cue.receive.getD []).length := by
  have ending (most : Nat) : (cue.ending : Reaction φ).HandsAtMost most := by
    unfold Cue.ending
    cases cue.raise <;> exact trivial
  have fromReport (most : Nat) : (cue.fromReport : Reaction φ).HandsAtMost most := by
    unfold Cue.fromReport
    split
    case isTrue =>
      rintro (fault | more)
      · exact trivial
      · exact ending most
    case isFalse => exact ending most
  have fromDecode (most : Nat) : (cue.fromDecode : Reaction φ).HandsAtMost most := by
    unfold Cue.fromDecode
    split
    case isTrue => exact fun _ => fromReport most
    case isFalse => exact fromReport most
  unfold Cue.reaction
  cases cue.receive with
  | none => exact fromDecode _
  | some chunk => exact ⟨Nat.le_refl _, fromDecode _⟩

namespace Script

/-- The number of bytes that the script hands over at a report. -/
def supplyAt (script : Script) (call : Nat) : Nat :=
  match script.cues.lookup call with
  | none => 0
  | some cue => (cue.receive.getD []).length

/-- At distinct reports the script hands over no more than all that it has. -/
theorem sum_supplyAt_le (script : Script) (calls : Finset Nat) :
    ∑ call ∈ calls, script.supplyAt call ≤ script.supply := by
  obtain ⟨cues⟩ := script
  induction cues with
  | nil => exact (Finset.sum_const_zero (s := calls)).le
  | cons entry cues inductionHypothesis =>
    obtain ⟨number, cue⟩ := entry
    have each (call : Nat) : supplyAt ⟨(number, cue) :: cues⟩ call ≤
        (if call = number then (cue.receive.getD []).length else 0) + supplyAt ⟨cues⟩ call := by
      unfold supplyAt
      rw [List.lookup_cons]
      by_cases same : call = number
      · rw [beq_iff_eq.mpr same, if_pos same]
        exact Nat.le_add_right _ _
      · rw [beq_eq_false_iff_ne.mpr same, if_neg same]
        exact (Nat.zero_add _).ge
    have own : ∑ call ∈ calls, (if call = number then (cue.receive.getD []).length else 0) ≤
        (cue.receive.getD []).length := by
      rw [Finset.sum_ite_eq']
      split <;> simp
    calc ∑ call ∈ calls, supplyAt ⟨(number, cue) :: cues⟩ call
        ≤ ∑ call ∈ calls, ((if call = number then (cue.receive.getD []).length else 0) +
            supplyAt ⟨cues⟩ call) := Finset.sum_le_sum fun call _ => each call
      _ = ∑ call ∈ calls, (if call = number then (cue.receive.getD []).length else 0) +
            ∑ call ∈ calls, supplyAt ⟨cues⟩ call := Finset.sum_add_distrib
      _ ≤ (cue.receive.getD []).length + supply ⟨cues⟩ := Nat.add_le_add own inductionHypothesis

omit [Table τ φ] in
theorem keeps (script : Script) :
    (script.observer : Observer φ).Keeps 0 script.supplyAt := by
  intro heard call number _
  rw [observer, number, Nat.add_sub_cancel, supplyAt]
  cases script.cues.lookup call with
  | none => exact trivial
  | some cue => exact cue.handsAtMost

omit [Table τ φ] in
theorem exists_keeps (script : Script) :
    ∃ first, (script.observer : Observer φ).Keeps first fun _ => 0 := by
  refine Observer.exists_keeps script.cues fun heard call number absent => ?_
  rw [observer, number, Nat.add_sub_cancel, absent]

/-- A run of reports that follows a script is never cut short: the rounds that it is given are more
than its reports. -/
theorem rounds_suffice (script : Script) (limit : Option Nat) (table : τ) (uses : List (Use φ)) :
    let receiver := ((History.start limit table).run uses).receiver
    ((Exchange.start receiver).reportAll script.observer script.depth (script.rounds receiver)).1 ≠
      .unfinished := by
  intro receiver
  have trimmed : (Exchange.start receiver : Exchange τ φ).receiver.Trimmed :=
    (History.sound_run limit table uses).receiver.2
  obtain ⟨first, keeps⟩ := script.exists_keeps (φ := φ)
  obtain ⟨count, bounded, goesOn, last⟩ :=
    Exchange.exists_last trimmed keeps script.depth
  obtain ⟨after, spent⟩ := Exchange.handed_afterReports_le script.keeps
    (Nat.zero_le (Exchange.start receiver : Exchange τ φ).reports) script.depth count
  have supplied := spent.trans (script.sum_supplyAt_le _)
  have enough : count < script.rounds receiver :=
    Nat.lt_succ_of_le (bounded.trans (Nat.add_le_add_left supplied _))
  rw [Exchange.reportAll, Exchange.reportFrom_of_last goesOn last enough 0]
  exact Exchange.Ending.ofLast_ne_unfinished _ _

end Script

end ZeroFrame

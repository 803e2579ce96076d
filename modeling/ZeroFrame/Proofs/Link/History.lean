/-
This file follows a receiver through any use, also by observers that use it themselves.

An observer that is told about a frame may hand bytes over, take frames and ask for further
reports before the frame is cut off, and the place of the cut is by then stale. What holds
through all of it is what survives each single change: the arrival of a chunk, a cut at any
place, and a payload shown to the table. Such a property holds at every moment, also of those
inside a report, and what it says about a report holds of every report. Where only chunks of
some kind are handed over, also by the observers, it need not survive the arrival of others.
-/

import ZeroFrame.Proofs.Link.Calls

namespace ZeroFrame

variable {τ φ : Type} [Table τ φ]

/-! ### Properties that survive each single change -/

/-- A property that no chunk, no cut, no payload shown to the table and no record takes away. -/
structure Receiver.Kept (holds : Receiver τ → Prop) : Prop where
  receive : ∀ receiver chunk, holds receiver → holds (receiver.receive chunk)
  dropFrame : ∀ receiver stop, holds receiver → holds (receiver.dropFrame stop)
  tableDecode : ∀ receiver payload, holds receiver →
    holds { receiver with table := (Table.decode receiver.table payload).2 }
  log : ∀ receiver log, holds receiver → holds { receiver with log := log }

/-- The same of a property that only chunks of some kind need not take away. -/
structure Receiver.KeptOn (chunks : Bytes → Prop) (holds : Receiver τ → Prop) : Prop where
  receive : ∀ receiver chunk, chunks chunk → holds receiver → holds (receiver.receive chunk)
  dropFrame : ∀ receiver stop, holds receiver → holds (receiver.dropFrame stop)
  tableDecode : ∀ receiver payload, holds receiver →
    holds { receiver with table := (Table.decode receiver.table payload).2 }
  log : ∀ receiver log, holds receiver → holds { receiver with log := log }

theorem Receiver.Kept.keptOn {holds : Receiver τ → Prop} (kept : Kept holds) :
    KeptOn (fun _ => True) holds :=
  ⟨fun receiver chunk _ => kept.receive receiver chunk, kept.dropFrame, kept.tableDecode, kept.log⟩

namespace Receiver.KeptOn

variable {chunks : Bytes → Prop} {holds : Receiver τ → Prop} {receiver : Receiver τ}

theorem judge (kept : KeptOn chunks holds) (held : holds receiver) (cut : Cut)
    (log : List Record) :
    holds { receiver with table := (receiver.judge (φ := φ) cut).2, log := log } := by
  rw [Receiver.judge]
  cases cut.payload (receiver.pending.take cut.stop) with
  | error fault => exact kept.log receiver log held
  | ok payload => exact kept.log _ log (kept.tableDecode receiver payload held)

theorem decode (kept : KeptOn chunks holds) (held : holds receiver) :
    holds (receiver.decode (φ := φ)).2 := by
  cases found : receiver.cut? with
  | none =>
    rw [decode_of_cut?_eq_none found]
    exact held
  | some cut =>
    rw [decode_of_cut? found]
    exact kept.dropFrame _ cut.stop (kept.judge held cut _)

theorem collect (kept : KeptOn chunks holds) (held : holds receiver) :
    holds (receiver.collect (φ := φ)).2.2 := by
  fun_induction Receiver.collect receiver with
  | case1 receiver fault next taken =>
    have step := kept.decode (φ := φ) held
    rwa [taken] at step
  | case2 receiver frame next taken frames fault last rest inductionHypothesis =>
    have step := kept.decode (φ := φ) held
    rw [taken] at step
    have later := inductionHypothesis step
    rwa [rest] at later

theorem next (kept : KeptOn chunks holds) (held : holds receiver) (live : Bool) :
    holds (receiver.next (φ := φ) live).2.2 := by
  cases live with
  | false => exact held
  | true =>
    rw [next_true]
    exact kept.decode held

end Receiver.KeptOn

/-- A table that is a function of the payload stays one. -/
theorem Receiver.kept_answers (answer : Bytes → Except Fault (φ × Nat)) :
    Kept fun receiver : Receiver τ => Table.Answers receiver.table answer where
  receive _ _ answers := answers
  dropFrame _ _ answers := answers
  tableDecode _ payload answers := answers.next payload
  log _ _ answers := answers

/-! ### What observers hand over -/

/-- Every chunk that an observer with this reaction hands over is of some kind. -/
def Reaction.Hands (chunks : Bytes → Prop) : Reaction φ → Prop
  | .done => True
  | .raise _ => True
  | .receive chunk rest => chunks chunk ∧ rest.Hands chunks
  | .decode rest => ∀ outcome, (rest outcome).Hands chunks
  | .reportNext rest => ∀ outcome, (rest outcome).Hands chunks

omit [Table τ φ] in
theorem Reaction.hands_true (reaction : Reaction φ) : reaction.Hands fun _ => True := by
  induction reaction with
  | done => trivial
  | raise fault => trivial
  | receive chunk rest inductionHypothesis => exact ⟨trivial, inductionHypothesis⟩
  | decode rest inductionHypothesis => exact inductionHypothesis
  | reportNext rest inductionHypothesis => exact inductionHypothesis

/-- Whatever an observer has heard, it hands over chunks of this kind only. -/
def Observer.Hands (chunks : Bytes → Prop) (observer : Observer φ) : Prop :=
  ∀ heard, (observer heard).Hands chunks

omit [Table τ φ] in
theorem Observer.hands_true (observer : Observer φ) : observer.Hands fun _ => True :=
  fun heard => (observer heard).hands_true

namespace Exchange

variable {chunks : Bytes → Prop} {holds : Receiver τ → Prop} {fits : Report φ → Prop}

/-- The receiver of an exchange has a property, and so has every report that was heard. -/
structure Sound (holds : Receiver τ → Prop) (fits : Report φ → Prop) (exchange : Exchange τ φ) :
    Prop where
  receiver : holds exchange.receiver
  reports : ∀ report, .report report ∈ exchange.heard → fits report

namespace Sound

variable {exchange : Exchange τ φ}

omit [Table τ φ] in
theorem update (sound : Sound holds fits exchange) {receiver : Receiver τ}
    (held : holds receiver) : Sound holds fits { exchange with receiver := receiver } :=
  ⟨held, sound.reports⟩

omit [Table τ φ] in
/-- Hearing of anything but a report needs no property. -/
theorem tell (sound : Sound holds fits exchange) {event : Event φ}
    (fit : ∀ report, event = .report report → fits report) :
    Sound holds fits (exchange.tell event) := by
  refine ⟨sound.receiver, fun report member => ?_⟩
  rcases List.mem_cons.mp member with same | earlier
  · exact fit report same.symm
  · exact sound.reports report earlier

/-- Whatever the observer does, if reports that it asks for keep the properties. -/
theorem react (kept : Receiver.KeptOn chunks holds)
    {report : Exchange τ φ → Except Fault Bool × Exchange τ φ}
    (nested : ∀ exchange, Sound holds fits exchange → Sound holds fits (report exchange).2)
    (call : Nat) {reaction : Reaction φ} (hands : reaction.Hands chunks)
    (sound : Sound holds fits exchange) :
    Sound holds fits (Exchange.react report call reaction exchange).2 := by
  induction reaction generalizing exchange with
  | done => exact sound
  | raise fault => exact sound
  | receive chunk rest inductionHypothesis =>
    exact inductionHypothesis hands.2 (sound.update (kept.receive _ chunk hands.1 sound.receiver))
  | decode rest inductionHypothesis =>
    exact inductionHypothesis _ (hands _) ((sound.update (kept.decode sound.receiver)).tell nofun)
  | reportNext rest inductionHypothesis =>
    exact inductionHypothesis _ (hands _) ((nested exchange sound).tell nofun)

/-- What is told about a cut must be fit to be told. -/
theorem reportNext (kept : Receiver.KeptOn chunks holds)
    (tells : ∀ receiver cut frame, holds receiver → receiver.cut? = some cut →
      fits (reportOf receiver cut frame))
    {observer : Observer φ} (hands : observer.Hands chunks) (depth : Nat)
    (sound : Sound holds fits exchange) :
    Sound holds fits (exchange.reportNext observer depth).2 := by
  induction depth generalizing exchange with
  | zero => exact sound
  | succ depth inductionHypothesis =>
    cases found : exchange.receiver.cut? with
    | none =>
      rw [reportNext_of_cut?_eq_none found]
      exact sound
    | some cut =>
      cases outcome : reported (exchange.receiver.judge (φ := φ) cut).1 with
      | error fault =>
        rw [reportNext_of_refused found outcome]
        exact sound.update (kept.dropFrame _ cut.stop (kept.judge sound.receiver cut _))
      | ok frame =>
        rw [reportNext_of_reported found outcome]
        have told : Sound holds fits (exchange.told cut frame) := by
          refine (sound.update (kept.judge sound.receiver cut _)).tell fun report same => ?_
          obtain rfl := Event.report.inj same
          exact tells _ cut frame sound.receiver found
        have after := told.react kept (fun _ => inductionHypothesis) exchange.reports
          (hands (exchange.told cut frame).heard)
        exact after.update (kept.dropFrame _ cut.stop after.receiver)

theorem reportFrom (kept : Receiver.KeptOn chunks holds)
    (tells : ∀ receiver cut frame, holds receiver → receiver.cut? = some cut →
      fits (reportOf receiver cut frame))
    {observer : Observer φ} (hands : observer.Hands chunks) (depth rounds count : Nat)
    (sound : Sound holds fits exchange) :
    Sound holds fits (exchange.reportFrom observer depth rounds count).2 := by
  induction rounds generalizing exchange count with
  | zero => exact sound
  | succ rounds inductionHypothesis =>
    have step := sound.reportNext kept tells hands depth
    rw [Exchange.reportFrom]
    split
    case h_1 after reported =>
      rw [reported] at step
      exact inductionHypothesis (count + 1) step
    case h_2 after reported => rwa [reported] at step
    case h_3 fault after reported => rwa [reported] at step

end Sound

end Exchange

/-! ### The receivers at every moment -/

/-- The receivers before each frame that is taken while all frames are. -/
def Receiver.statesOfCollect (receiver : Receiver τ) : List (Receiver τ) :=
  match _taken : receiver.decode (φ := φ) with
  | (.error _, _) => [receiver]
  | (.ok _, next) => receiver :: statesOfCollect next
termination_by receiver.pending.length
decreasing_by exact length_lt_of_decode_ok (by assumption)

namespace Exchange

/-- The receivers before each action of a reaction and at its end; `statesOfReport` are those of the
reports that it asks for. -/
def statesOfReaction (report : Exchange τ φ → Except Fault Bool × Exchange τ φ)
    (statesOfReport : Exchange τ φ → List (Receiver τ)) (call : Nat) :
    Reaction φ → Exchange τ φ → List (Receiver τ)
  | .done, exchange => [exchange.receiver]
  | .raise _, exchange => [exchange.receiver]
  | .receive chunk rest, exchange =>
    exchange.receiver :: statesOfReaction report statesOfReport call rest
      { exchange with receiver := exchange.receiver.receive chunk }
  | .decode rest, exchange =>
    let (outcome, receiver) := exchange.receiver.decode
    exchange.receiver :: statesOfReaction report statesOfReport call (rest outcome)
      ({ exchange with receiver := receiver }.tell (.taken call outcome))
  | .reportNext rest, exchange =>
    let (outcome, after) := report exchange
    statesOfReport exchange ++ statesOfReaction report statesOfReport call (rest outcome)
      (after.tell (.nested call outcome))

/-- The receivers before a report and during the reaction to it. -/
def statesOfReport (observer : Observer φ) : Nat → Exchange τ φ → List (Receiver τ)
  | 0, exchange => [exchange.receiver]
  | depth + 1, exchange =>
    exchange.receiver ::
      match exchange.receiver.cut? with
      | none => []
      | some cut =>
        match reported (exchange.receiver.judge (φ := φ) cut).1 with
        | .error _ => []
        | .ok frame =>
          statesOfReaction (reportNext observer depth) (statesOfReport observer depth)
            exchange.reports (observer (exchange.told cut frame).heard) (exchange.told cut frame)

/-- The receivers before and during each report while all frames are reported. -/
def statesOfReportFrom (observer : Observer φ) (depth : Nat) :
    Nat → Exchange τ φ → List (Receiver τ)
  | 0, exchange => [exchange.receiver]
  | rounds + 1, exchange =>
    statesOfReport observer depth exchange ++
      match exchange.reportNext observer depth with
      | (.ok true, after) => statesOfReportFrom observer depth rounds after
      | _ => []

end Exchange

namespace Receiver.KeptOn

variable {chunks : Bytes → Prop} {holds : Receiver τ → Prop}

theorem statesOfCollect (kept : KeptOn chunks holds) {receiver : Receiver τ}
    (held : holds receiver) :
    ∀ state ∈ receiver.statesOfCollect (φ := φ), holds state := by
  fun_induction Receiver.statesOfCollect receiver with
  | case1 receiver fault next taken => exact List.forall_mem_singleton.mpr held
  | case2 receiver frame next taken inductionHypothesis =>
    have step := kept.decode (φ := φ) held
    rw [taken] at step
    exact List.forall_mem_cons.mpr ⟨held, inductionHypothesis step⟩

theorem statesOfReaction (kept : KeptOn chunks holds)
    {report : Exchange τ φ → Except Fault Bool × Exchange τ φ}
    {statesOfReport : Exchange τ φ → List (Receiver τ)}
    (nested : ∀ exchange, holds exchange.receiver → holds (report exchange).2.receiver ∧
      ∀ state ∈ statesOfReport exchange, holds state)
    (call : Nat) {reaction : Reaction φ} (hands : reaction.Hands chunks) {exchange : Exchange τ φ}
    (held : holds exchange.receiver) :
    ∀ state ∈ Exchange.statesOfReaction report statesOfReport call reaction exchange,
      holds state := by
  induction reaction generalizing exchange with
  | done => exact List.forall_mem_singleton.mpr held
  | raise fault => exact List.forall_mem_singleton.mpr held
  | receive chunk rest inductionHypothesis =>
    have fed := kept.receive _ chunk hands.1 held
    exact List.forall_mem_cons.mpr ⟨held, inductionHypothesis hands.2 fed⟩
  | decode rest inductionHypothesis =>
    exact List.forall_mem_cons.mpr ⟨held, inductionHypothesis _ (hands _) (kept.decode held)⟩
  | reportNext rest inductionHypothesis =>
    obtain ⟨after, states⟩ := nested exchange held
    exact List.forall_mem_append.mpr ⟨states, inductionHypothesis _ (hands _) after⟩

theorem reportNext (kept : KeptOn chunks holds) {observer : Observer φ}
    (hands : observer.Hands chunks) (depth : Nat) {exchange : Exchange τ φ}
    (held : holds exchange.receiver) : holds (exchange.reportNext observer depth).2.receiver := by
  have sound : Exchange.Sound holds (fun _ => True) exchange := ⟨held, fun _ _ => trivial⟩
  exact (sound.reportNext kept (fun _ _ _ _ _ => trivial) hands depth).receiver

theorem statesOfReport (kept : KeptOn chunks holds) {observer : Observer φ}
    (hands : observer.Hands chunks) (depth : Nat) {exchange : Exchange τ φ}
    (held : holds exchange.receiver) :
    ∀ state ∈ Exchange.statesOfReport observer depth exchange, holds state := by
  induction depth generalizing exchange with
  | zero => exact List.forall_mem_singleton.mpr held
  | succ depth inductionHypothesis =>
    rw [Exchange.statesOfReport]
    refine List.forall_mem_cons.mpr ⟨held, ?_⟩
    split
    case h_1 => nofun
    case h_2 cut found =>
      split
      case h_1 => nofun
      case h_2 frame outcome =>
        exact kept.statesOfReaction
          (fun _ held => ⟨kept.reportNext hands depth held, inductionHypothesis held⟩) _ (hands _)
          (kept.judge held cut _)

theorem statesOfReportFrom (kept : KeptOn chunks holds) {observer : Observer φ}
    (hands : observer.Hands chunks) (depth rounds : Nat) {exchange : Exchange τ φ}
    (held : holds exchange.receiver) :
    ∀ state ∈ Exchange.statesOfReportFrom observer depth rounds exchange, holds state := by
  induction rounds generalizing exchange with
  | zero => exact List.forall_mem_singleton.mpr held
  | succ rounds inductionHypothesis =>
    have step := kept.reportNext hands depth held
    rw [Exchange.statesOfReportFrom]
    refine List.forall_mem_append.mpr ⟨kept.statesOfReport hands depth held, ?_⟩
    split
    case h_1 after reported =>
      rw [reported] at step
      exact inductionHypothesis step
    case h_2 => nofun

end Receiver.KeptOn

/-! ### Runs of uses -/

/-- A use of a receiver, by any observer and with an iterator in any state. -/
inductive Use (φ : Type) where
  | receive (chunk : Bytes)
  | decode
  | collect
  | next (live : Bool)
  | reportNext (observer : Observer φ) (depth : Nat)
  | reportAll (observer : Observer φ) (depth rounds : Nat)

namespace Use

/-- The receiver after a use, with what the observer has heard. -/
def exchange (use : Use φ) (receiver : Receiver τ) : Exchange τ φ :=
  match use with
  | receive chunk => .start (receiver.receive chunk)
  | decode => .start (receiver.decode (φ := φ)).2
  | collect => .start (receiver.collect (φ := φ)).2.2
  | next live => .start (receiver.next (φ := φ) live).2.2
  | reportNext observer depth => ((Exchange.start receiver).reportNext observer depth).2
  | reportAll observer depth rounds =>
    ((Exchange.start receiver).reportAll observer depth rounds).2

/-- The receivers before and during a use, at every moment. -/
def states (use : Use φ) (receiver : Receiver τ) : List (Receiver τ) :=
  match use with
  | receive _ => [receiver]
  | decode => [receiver]
  | collect => receiver.statesOfCollect (φ := φ)
  | next _ => [receiver]
  | reportNext observer depth => Exchange.statesOfReport observer depth (.start receiver)
  | reportAll observer depth rounds =>
    Exchange.statesOfReportFrom observer depth rounds (.start receiver)

/-- Every chunk that is handed over in a use is of some kind, also those from observers. -/
def Hands (chunks : Bytes → Prop) : Use φ → Prop
  | receive chunk => chunks chunk
  | decode => True
  | collect => True
  | next _ => True
  | reportNext observer _ => observer.Hands chunks
  | reportAll observer _ _ => observer.Hands chunks

omit [Table τ φ] in
theorem hands_true (use : Use φ) : use.Hands fun _ => True := by
  cases use with
  | reportNext observer depth => exact observer.hands_true
  | reportAll observer depth rounds => exact observer.hands_true
  | _ => trivial

end Use

/-- A receiver with all its earlier states and all reports that were made. -/
structure History (τ φ : Type) where
  receiver : Receiver τ
  states : List (Receiver τ)
  reports : List (Report φ)

namespace History

def start (limit : Option Nat) (table : τ) : History τ φ := ⟨Receiver.fresh limit table, [], []⟩

/-- A history that begins with this receiver. -/
def onward (receiver : Receiver τ) : History τ φ := ⟨receiver, [], []⟩

/-- The receiver now and at every moment before. -/
def moments (history : History τ φ) : List (Receiver τ) := history.receiver :: history.states

def step (history : History τ φ) (use : Use φ) : History τ φ :=
  let after := use.exchange history.receiver
  ⟨after.receiver, history.states ++ use.states history.receiver,
    history.reports ++ after.heard.reverse.filterMap Event.report?⟩

def run (history : History τ φ) (uses : List (Use φ)) : History τ φ := uses.foldl step history

variable {chunks : Bytes → Prop} {holds : Receiver τ → Prop} {fits : Report φ → Prop}

/-- Everything in a history has the properties. -/
structure Sound (holds : Receiver τ → Prop) (fits : Report φ → Prop) (history : History τ φ) :
    Prop where
  receiver : holds history.receiver
  states : ∀ receiver ∈ history.states, holds receiver
  reports : ∀ report ∈ history.reports, fits report

namespace Sound

variable {history : History τ φ}

theorem step (kept : Receiver.KeptOn chunks holds)
    (tells : ∀ receiver cut frame, holds receiver → receiver.cut? = some cut →
      fits (Exchange.reportOf receiver cut frame))
    (sound : Sound holds fits history) {use : Use φ} (hands : use.Hands chunks) :
    Sound holds fits (history.step use) := by
  have held := sound.receiver
  have begun : Exchange.Sound holds fits (.start history.receiver) := ⟨held, nofun⟩
  have exchange : Exchange.Sound holds fits (use.exchange history.receiver) := by
    cases use with
    | receive chunk => exact ⟨kept.receive _ chunk hands held, nofun⟩
    | decode => exact ⟨kept.decode held, nofun⟩
    | collect => exact ⟨kept.collect held, nofun⟩
    | next live => exact ⟨kept.next held live, nofun⟩
    | reportNext observer depth => exact begun.reportNext kept tells hands depth
    | reportAll observer depth rounds => exact begun.reportFrom kept tells hands depth rounds 0
  have states : ∀ receiver ∈ use.states history.receiver, holds receiver := by
    cases use with
    | receive chunk => exact List.forall_mem_singleton.mpr held
    | decode => exact List.forall_mem_singleton.mpr held
    | collect => exact kept.statesOfCollect held
    | next live => exact List.forall_mem_singleton.mpr held
    | reportNext observer depth => exact kept.statesOfReport hands depth held
    | reportAll observer depth rounds => exact kept.statesOfReportFrom hands depth rounds held
  refine ⟨exchange.receiver, List.forall_mem_append.mpr ⟨sound.states, states⟩,
    List.forall_mem_append.mpr ⟨sound.reports, fun report member => ?_⟩⟩
  obtain ⟨event, heard, same⟩ := List.mem_filterMap.mp member
  cases event with
  | report told =>
    obtain rfl := Option.some.inj same
    exact exchange.reports told (List.mem_reverse.mp heard)
  | taken call outcome => cases same
  | nested call outcome => cases same

theorem runOn (kept : Receiver.KeptOn chunks holds)
    (tells : ∀ receiver cut frame, holds receiver → receiver.cut? = some cut →
      fits (Exchange.reportOf receiver cut frame))
    (sound : Sound holds fits history) {uses : List (Use φ)}
    (hands : ∀ use ∈ uses, use.Hands chunks) : Sound holds fits (history.run uses) := by
  induction uses generalizing history with
  | nil => exact sound
  | cons use uses inductionHypothesis =>
    obtain ⟨first, others⟩ := List.forall_mem_cons.mp hands
    exact inductionHypothesis (sound.step kept tells first) others

theorem run (kept : Receiver.Kept holds)
    (tells : ∀ receiver cut frame, holds receiver → receiver.cut? = some cut →
      fits (Exchange.reportOf receiver cut frame))
    (sound : Sound holds fits history) (uses : List (Use φ)) :
    Sound holds fits (history.run uses) :=
  sound.runOn kept.keptOn tells fun use _ => use.hands_true

end Sound

theorem run_append (history : History τ φ) (uses others : List (Use φ)) :
    history.run (uses ++ others) = (history.run uses).run others := List.foldl_append

/-- A property that is kept holds at every moment. -/
theorem moments_runOn (kept : Receiver.KeptOn chunks holds) {receiver : Receiver τ}
    (held : holds receiver) {uses : List (Use φ)} (hands : ∀ use ∈ uses, use.Hands chunks) :
    ∀ state ∈ ((onward receiver).run uses).moments, holds state := by
  have begun : Sound holds (fun _ => True) (onward receiver : History τ φ) := ⟨held, nofun, nofun⟩
  have sound := begun.runOn kept (fun _ _ _ _ _ => trivial) hands
  exact List.forall_mem_cons.mpr ⟨sound.receiver, sound.states⟩

theorem moments_run (kept : Receiver.Kept holds) {limit : Option Nat} {table : τ}
    (held : holds (.fresh limit table)) (uses : List (Use φ)) :
    ∀ state ∈ ((start limit table).run uses).moments, holds state :=
  moments_runOn kept.keptOn held fun use _ => use.hands_true

theorem answers_run {answer : Bytes → Except Fault (φ × Nat)} {table : τ}
    (answers : Table.Answers table answer) (limit : Option Nat) (uses : List (Use φ)) :
    Table.Answers ((start limit table).run uses).receiver.table answer :=
  moments_run (Receiver.kept_answers answer) answers uses _ List.mem_cons_self

end History

end ZeroFrame

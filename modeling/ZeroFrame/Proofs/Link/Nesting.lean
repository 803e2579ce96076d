/-
This file says what becomes of the frames when an observer takes some of them itself.

The place where a reported frame ends is found before the observer is told, and the receiver cuts
there when the observer is done. An observer that takes frames meanwhile takes the reported one
first and then those after it. The place is stale by then: it is a place in bytes that have
moved, and cutting there takes as many bytes once more, whatever they are. So nothing is lost if
the observer takes no frame, or if nothing is left when it is done, and in every other case
bytes go that were handed to nobody.
-/

import ZeroFrame.Proofs.Link.Queue

namespace ZeroFrame

variable {τ φ : Type} [Table τ φ]

/-! ### Observers that take frames -/

/-- What an observer does that only takes frames, any number of them: each time it goes on from the
outcome, and in the end it lets the receiver go on or raises a fault. -/
inductive Taker (φ : Type) where
  | done
  | raise (fault : Fault)
  | decode (rest : Except Fault φ → Taker φ)

namespace Taker

def reaction : Taker φ → Reaction φ
  | done => .done
  | raise fault => .raise fault
  | decode rest => .decode fun outcome => (rest outcome).reaction

/-- The encoded bytes of the frames that are taken from a receiver, and the receiver afterwards. -/
def run : Taker φ → Receiver τ → List Bytes × Receiver τ
  | done, receiver => ([], receiver)
  | raise _, receiver => ([], receiver)
  | decode rest, receiver =>
    let (outcome, next) := receiver.decode
    let (raws, last) := (rest outcome).run next
    (if receiver.cut?.isSome then receiver.nextRaw :: raws else raws, last)

/-- The frames that are taken are the first ones, in order, and they are what is gone. -/
theorem run_leaves (taker : Taker φ) {receiver : Receiver τ} (trimmed : receiver.Trimmed) :
    (taker.run receiver).1 <+: receiver.frames ∧
      receiver.Leaves (taker.run receiver).1.length (taker.run receiver).2 := by
  induction taker generalizing receiver with
  | done => exact ⟨List.nil_prefix, .refl trimmed rfl rfl⟩
  | raise fault => exact ⟨List.nil_prefix, .refl trimmed rfl rfl⟩
  | decode rest inductionHypothesis =>
    unfold run
    cases found : receiver.cut? with
    | none =>
      rw [Receiver.decode_of_cut?_eq_none found]
      exact inductionHypothesis _ trimmed
    | some cut =>
      have limit : (receiver.decode (φ := φ)).2.limit = receiver.limit := by
        rw [Receiver.decode_of_cut? found]
        rfl
      have pending : (receiver.decode (φ := φ)).2.pending =
          Pending.dropFrame receiver.pending cut.stop := by
        rw [Receiver.decode_of_cut? found]
        rfl
      obtain ⟨first, order⟩ := Receiver.Leaves.of_cut? trimmed found _ limit pending
      obtain ⟨sofar, later⟩ := inductionHypothesis (receiver.decode (φ := φ)).1 first.trimmed
      have raw : receiver.nextRaw = receiver.pending.take cut.stop := by
        rw [Receiver.nextRaw, found]
      refine ⟨?_, ?_⟩
      · rw [order, raw]
        exact List.cons_prefix_cons.mpr ⟨rfl, sofar⟩
      · have both := first.trans later
        rw [Nat.add_comm] at both
        exact both

end Taker

/-- An observer that only takes frames. From what it has heard it decides what it does. -/
def TakingObserver (φ : Type) : Type := List (Event φ) → Taker φ

def TakingObserver.observer (observer : TakingObserver φ) : Observer φ :=
  fun heard => (observer heard).reaction

namespace Exchange

variable {exchange : Exchange τ φ} {cut : Cut}

theorem receiver_react_taker (report : Exchange τ φ → Except Fault Bool × Exchange τ φ) (call : Nat)
    (taker : Taker φ) (exchange : Exchange τ φ) :
    (react report call taker.reaction exchange).2.receiver = (taker.run exchange.receiver).2 := by
  induction taker generalizing exchange with
  | done => rfl
  | raise fault => rfl
  | decode rest inductionHypothesis =>
    unfold Taker.reaction react Taker.run
    exact inductionHypothesis _ _

/-! ### What a report leaves -/

/-- The encoded bytes of the frames that an observer takes while the next one is reported to it. -/
def nested (observer : TakingObserver φ) (exchange : Exchange τ φ) : List Bytes :=
  match exchange.receiver.cut? with
  | none => []
  | some cut =>
    match reported (exchange.receiver.judge (φ := φ) cut).1 with
    | .error _ => []
    | .ok frame =>
      ((observer (exchange.told cut frame).heard).run (exchange.told cut frame).receiver).1

theorem nested_of_refused {fault : Fault} (found : exchange.receiver.cut? = some cut)
    (isRefused : reported (exchange.receiver.judge (φ := φ) cut).1 = .error fault)
    (observer : TakingObserver φ) : exchange.nested observer = [] := by
  unfold nested
  simp only [found, isRefused]

theorem nested_of_reported {frame : Option φ} (found : exchange.receiver.cut? = some cut)
    (isReported : reported (exchange.receiver.judge (φ := φ) cut).1 = .ok frame)
    (observer : TakingObserver φ) :
    exchange.nested observer =
      ((observer (exchange.told cut frame).heard).run (exchange.told cut frame).receiver).1 := by
  unfold nested
  simp only [found, isReported]

/-- The frames that the observer takes are the first ones, the reported one among them, and from
what they leave, the bytes before the stale place are cut off. -/
theorem reportNext_nested (trimmed : exchange.receiver.Trimmed)
    (found : exchange.receiver.cut? = some cut) (observer : TakingObserver φ) (depth : Nat) :
    exchange.nested observer <+: exchange.receiver.frames ∧
      ∃ last, exchange.receiver.Leaves (exchange.nested observer).length last ∧
        (exchange.reportNext observer.observer (depth + 1)).2.receiver.limit = last.limit ∧
        (exchange.reportNext observer.observer (depth + 1)).2.receiver.pending =
          Pending.dropFrame last.pending cut.stop := by
  cases outcome : reported (exchange.receiver.judge (φ := φ) cut).1 with
  | error fault =>
    rw [nested_of_refused found outcome, reportNext_of_refused found outcome]
    exact ⟨List.nil_prefix, exchange.receiver, .refl trimmed rfl rfl, rfl, rfl⟩
  | ok frame =>
    have told : (exchange.told cut frame).receiver.Trimmed := trimmed
    obtain ⟨sofar, leaves⟩ := (observer (exchange.told cut frame).heard).run_leaves told
    have after := receiver_react_taker (reportNext observer.observer depth) exchange.reports
      (observer (exchange.told cut frame).heard) (exchange.told cut frame)
    rw [nested_of_reported found outcome, reportNext_of_reported found outcome]
    refine ⟨sofar, _, ⟨leaves.limit, leaves.pending, leaves.frames, leaves.complete⟩, ?_, ?_⟩
    · exact congrArg (fun receiver => (receiver.dropFrame cut.stop).limit) after
    · exact congrArg (fun receiver => Pending.dropFrame receiver.pending cut.stop) after

/-- The exchange after some reports, whatever these come to. -/
def afterReports (observer : Observer φ) (depth : Nat) : Nat → Exchange τ φ → Exchange τ φ
  | 0, exchange => exchange
  | calls + 1, exchange => afterReports observer depth calls (exchange.reportNext observer depth).2

theorem trimmed_afterReports (trimmed : exchange.receiver.Trimmed) (observer : Observer φ)
    (depth calls : Nat) : (exchange.afterReports observer depth calls).receiver.Trimmed := by
  induction calls generalizing exchange with
  | zero => exact trimmed
  | succ calls inductionHypothesis =>
    have held : exchange.receiver.limit = exchange.receiver.limit ∧ exchange.receiver.Trimmed :=
      ⟨rfl, trimmed⟩
    have kept := (Receiver.kept_trimmed exchange.receiver.limit).keptOn.reportNext
      observer.hands_true depth held
    exact inductionHypothesis kept.2

end Exchange

/-! ### When nothing is lost -/

/-- A cut at a place inside takes some byte of whatever is left. -/
theorem Pending.dropFrame_eq_self_iff {pending : Bytes} {place : Nat} (inside : 0 < place) :
    dropFrame pending place = pending ↔ pending = [] := by
  constructor
  · intro same
    have shorter := length_dropFrame_le pending place
    rw [same] at shorter
    exact List.eq_nil_of_length_eq_zero (by omega)
  · rintro rfl
    rw [dropFrame, List.drop_nil, Bytes.dropZeros_nil]

/-- An observer that takes frames while one is reported takes them in order, the reported one first.
When it is done, the bytes before the place where the reported frame ended are cut off once
more. What is gone then is what was handed out, to the observer or by it, exactly if the
observer has taken no frame or has left nothing. This holds of every report in a run of them. -/
theorem nested_report_spares_iff (limit : Option Nat) (table : τ) (uses : List (Use φ))
    (observer : TakingObserver φ) (depth calls : Nat) :
    let receiver := ((History.start limit table).run uses).receiver
    let exchange : Exchange τ φ :=
      (Exchange.start receiver).afterReports observer.observer (depth + 1) calls
    let nested := exchange.nested observer
    let after := (exchange.reportNext observer.observer (depth + 1)).2.receiver
    ∀ place, exchange.receiver.EndsAt place →
      nested <+: exchange.receiver.frames ∧
        after.pending = Pending.dropFrame
          (Pending.remaining exchange.receiver.pending nested.length) place ∧
        (exchange.receiver.Leaves (max 1 nested.length) after ↔
          nested = [] ∨ Pending.remaining exchange.receiver.pending nested.length = []) := by
  intro receiver exchange nested after place ends
  have begun : (Exchange.start receiver : Exchange τ φ).receiver.Trimmed :=
    (History.sound_run limit table uses).receiver.2
  have trimmed := Exchange.trimmed_afterReports begun observer.observer (depth + 1) calls
  obtain ⟨cut, found, rfl⟩ := Receiver.endsAt_iff.mp ends
  obtain ⟨sofar, last, leaves, sameLimit, pending⟩ :=
    Exchange.reportNext_nested trimmed found observer depth
  refine ⟨sofar, leaves.pending ▸ pending, ?_⟩
  rw [← leaves.pending]
  rcases Nat.eq_zero_or_pos nested.length with nothing | more
  · have same : last.pending = exchange.receiver.pending := by
      rw [leaves.pending, show (exchange.nested observer).length = 0 from nothing]
      exact Bytes.dropZeros_of_head_ne trimmed
    rw [same] at pending
    obtain ⟨first, _⟩ :=
      Receiver.Leaves.of_cut? trimmed found after (sameLimit.trans leaves.limit) pending
    rw [nothing]
    exact iff_of_true first (Or.inl (List.eq_nil_of_length_eq_zero nothing))
  · have inside : 0 < cut.stop := by
      obtain ⟨literal, _⟩ := trimmed.take_of_cut? found
      exact Nat.pos_of_ne_zero fun zero => literal (by rw [zero, List.take_zero])
    rw [Nat.max_eq_right more, or_iff_right (List.ne_nil_of_length_pos more),
      ← Pending.dropFrame_eq_self_iff inside, ← pending]
    exact ⟨fun spared => spared.pending.trans leaves.pending.symm, leaves.congr sameLimit⟩

/-- The observer takes both frames while the first is reported, and nothing is left to be lost. -/
theorem nested_report_spares_last_frames :
    let uses : List (Use Bytes) := [.receive [0x7f, 0, 0x11, 0x7e, 0]]
    let observer : TakingObserver Bytes := fun _ => .decode fun _ => .decode fun _ => .done
    let receiver := ((History.start none (⟨false⟩ : Verbatim)).run uses).receiver
    let exchange : Exchange Verbatim Bytes := Exchange.start receiver
    let after := (exchange.reportNext observer.observer 1).2.receiver
    receiver.EndsAt 1 ∧ exchange.nested observer = [[0x7f], [0x11, 0x7e]] ∧
      receiver.Leaves 2 after := by
  intro uses observer receiver exchange after
  have ends : receiver.EndsAt 1 :=
    .separator (show receiver.pending = [0x7f] ++ separator :: [0x11, 0x7e, 0] by decide +kernel)
      (by decide)
  have taken : exchange.nested observer = [[0x7f], [0x11, 0x7e]] := by decide +kernel
  obtain ⟨_, _, spares⟩ :=
    nested_report_spares_iff none (⟨false⟩ : Verbatim) uses observer 0 0 1 ends
  have spared : receiver.Leaves (max 1 (exchange.nested observer).length) after :=
    spares.mpr (Or.inr (by decide +kernel))
  rw [taken] at spared
  exact ⟨ends, taken, spared⟩

/-- The observer takes the reported frame, and the next one is lost with it. -/
theorem nested_report_loses_frame :
    let uses : List (Use Bytes) := [.receive [1, 2, 3, 4, 5, 6, 7, 0x80, 0, 0x7f, 0]]
    let observer : TakingObserver Bytes := fun _ => .decode fun _ => .done
    let receiver := ((History.start none (⟨false⟩ : Verbatim)).run uses).receiver
    let exchange : Exchange Verbatim Bytes := Exchange.start receiver
    let after := (exchange.reportNext observer.observer 1).2
    receiver.frames = [[1, 2, 3, 4, 5, 6, 7, 0x80], [0x7f]] ∧
      exchange.nested observer = [[1, 2, 3, 4, 5, 6, 7, 0x80]] ∧
      after.receiver.frames = [] ∧ ¬receiver.Leaves 1 after.receiver ∧
      (after.reportNext observer.observer 1).1 = .ok false := by
  intro uses observer receiver exchange after
  have frames : receiver.frames = [[1, 2, 3, 4, 5, 6, 7, 0x80], [0x7f]] := by decide +kernel
  have left : after.receiver.frames = [] := by decide +kernel
  have nothing : after.receiver.cut? = none := by decide +kernel
  refine ⟨frames, by decide +kernel, left, fun leaves => ?_, ?_⟩
  · have next := leaves.frames
    rw [left, frames] at next
    cases next
  · rw [Exchange.reportNext_of_cut?_eq_none nothing]

end ZeroFrame

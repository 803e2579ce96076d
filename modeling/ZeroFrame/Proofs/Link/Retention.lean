/-
This file bounds the bytes that a receiver with a limit keeps pending.

The limit is looked at only when a frame is asked for and no separator is pending. So it bounds
nothing while chunks arrive; but whenever a frame is asked for and none is found, whichever way it
was asked for, no separator is pending and the limit is kept. Nothing but the arrival of a
chunk adds to the pending bytes. A caller that draws after each chunk until no frame is found
therefore keeps at most the limit and one chunk, also while an observer acts.
-/

import ZeroFrame.Proofs.Link.History
import ZeroFrame.Table.Verbatim

namespace ZeroFrame

variable {τ φ : Type} [Table τ φ]

/-! ### Finding no frame -/

/-- The use came to its end because there was no frame. -/
def Use.FindsNone (use : Use φ) (receiver : Receiver τ) : Prop :=
  match use with
  | receive _ => False
  | decode => ∃ fault, (receiver.decode (φ := φ)).1 = .error fault ∧ fault.kind = .unexpectedEnd
  | collect => (receiver.collect (φ := φ)).2.1 = none
  | next live => live = true ∧ (receiver.next (φ := φ) live).1 = .finished
  | reportNext observer depth => ((Exchange.start receiver).reportNext observer depth).1 = .ok false
  | reportAll observer depth rounds =>
    ∃ count, ((Exchange.start receiver).reportAll observer depth rounds).1 = .finished count

theorem Receiver.cut?_decode {receiver : Receiver τ} {fault : Fault}
    (failed : (receiver.decode (φ := φ)).1 = .error fault) (lack : fault.kind = .unexpectedEnd) :
    (receiver.decode (φ := φ)).2.cut? = none := by
  obtain ⟨none, same⟩ := cut?_of_decode_lack failed lack
  exact (congrArg cut? same).trans none

theorem Receiver.cut?_collect {receiver : Receiver τ}
    (whole : (receiver.collect (φ := φ)).2.1 = none) :
    (receiver.collect (φ := φ)).2.2.cut? = none := by
  fun_induction Receiver.collect receiver with
  | case1 receiver fault next taken =>
    have after := cut?_decode (congrArg Prod.fst taken) (interruption_eq_none_iff.mp whole)
    rwa [taken] at after
  | case2 receiver frame next taken frames fault last rest inductionHypothesis =>
    rw [rest] at inductionHypothesis
    exact inductionHypothesis whole

theorem Receiver.cut?_next {receiver : Receiver τ} {live : Bool} (isLive : live = true)
    (finished : (receiver.next (φ := φ) live).1 = .finished) :
    (receiver.next (φ := φ) live).2.2.cut? = none := by
  subst isLive
  rw [next_true] at finished ⊢
  obtain ⟨fault, failed, lack⟩ := Item.ofOutcome_eq_finished_iff.mp finished
  exact cut?_decode failed lack

namespace Exchange

theorem cut?_reportNext {exchange : Exchange τ φ} {observer : Observer φ} {depth : Nat}
    (lack : (exchange.reportNext observer depth).1 = .ok false) :
    (exchange.reportNext observer depth).2.receiver.cut? = none := by
  cases depth with
  | zero => cases lack
  | succ depth =>
    cases found : exchange.receiver.cut? with
    | none => rwa [reportNext_of_cut?_eq_none found]
    | some cut =>
      cases outcome : reported (exchange.receiver.judge (φ := φ) cut).1 with
      | error fault =>
        rw [reportNext_of_refused found outcome] at lack
        cases lack
      | ok frame =>
        rw [reportNext_of_reported found outcome] at lack
        cases reaction : (react (reportNext observer depth) exchange.reports
            (observer (exchange.told cut frame).heard) (exchange.told cut frame)).1 with
        | ok done => simp [reaction, Except.map] at lack
        | error fault => simp [reaction, Except.map] at lack

theorem cut?_reportFrom {exchange : Exchange τ φ} {observer : Observer φ}
    {depth rounds count total : Nat}
    (finished : (exchange.reportFrom observer depth rounds count).1 = .finished total) :
    (exchange.reportFrom observer depth rounds count).2.receiver.cut? = none := by
  induction rounds generalizing exchange count with
  | zero => cases finished
  | succ rounds inductionHypothesis =>
    rw [reportFrom] at finished ⊢
    split at finished
    case h_1 after reported =>
      exact inductionHypothesis finished
    case h_2 after reported =>
      have lack := cut?_reportNext (congrArg Prod.fst reported)
      rwa [reported] at lack
    case h_3 fault after reported => cases finished

end Exchange

/-- Whichever way a frame was asked for, if there was none then none is there afterwards. -/
theorem Use.cut?_of_findsNone {use : Use φ} {receiver : Receiver τ}
    (none : use.FindsNone receiver) : (use.exchange receiver).receiver.cut? = .none := by
  cases use with
  | receive chunk => cases none
  | decode =>
    obtain ⟨fault, failed, lack⟩ := none
    exact Receiver.cut?_decode failed lack
  | collect => exact Receiver.cut?_collect none
  | next live => exact Receiver.cut?_next none.1 none.2
  | reportNext observer depth => exact Exchange.cut?_reportNext none
  | reportAll observer depth rounds =>
    obtain ⟨count, finished⟩ := none
    exact Exchange.cut?_reportFrom finished

/-! ### What only arrivals change -/

/-- No separator is pending, and no more bytes than the limit allows. -/
structure Receiver.Settled (bound : Nat) (receiver : Receiver τ) : Prop where
  limit : receiver.limit = some bound
  zeroFree : separator ∉ receiver.pending
  within : receiver.pending.length ≤ bound

omit [Table τ φ] in
theorem Receiver.settled_of_cut? {receiver : Receiver τ} {bound : Nat}
    (limited : receiver.limit = some bound) (none : receiver.cut? = .none) :
    receiver.Settled bound := by
  obtain ⟨zeroFree, within⟩ := of_cut?_eq_none none
  exact ⟨limited, zeroFree, within bound limited⟩

theorem Receiver.kept_limit (limit : Option Nat) :
    Kept fun receiver : Receiver τ => receiver.limit = limit where
  receive _ _ limited := limited
  dropFrame _ _ limited := limited
  tableDecode _ _ limited := limited
  log _ _ limited := limited

theorem History.limit_run (limit : Option Nat) (table : τ) (uses : List (Use φ)) :
    ∀ receiver ∈ ((start limit table).run uses).moments, receiver.limit = limit :=
  moments_run (Receiver.kept_limit limit) rfl uses

/-- Whichever way a frame was asked for, if there was none then the limit is kept. -/
theorem Use.settled_of_findsNone {use : Use φ} {receiver : Receiver τ} {bound : Nat}
    (limited : receiver.limit = some bound) (none : use.FindsNone receiver) :
    (use.exchange receiver).receiver.Settled bound := by
  have hands : ∀ draw ∈ [use], draw.Hands fun _ => True :=
    List.forall_mem_singleton.mpr use.hands_true
  have same := History.moments_runOn (Receiver.kept_limit (some bound)).keptOn limited hands _
    List.mem_cons_self
  exact Receiver.settled_of_cut? same (cut?_of_findsNone none)

theorem Pending.dropFrame_suffix (pending : Bytes) (stop : Nat) :
    dropFrame pending stop <:+ pending :=
  (List.dropWhile_suffix _).trans (List.drop_suffix stop pending)

/-- Without arrivals the pending bytes only lose some at the front. -/
theorem Receiver.keptOn_settled (bound : Nat) :
    KeptOn (fun _ => False) fun receiver : Receiver τ => receiver.Settled bound where
  receive _ _ arrives := arrives.elim
  dropFrame receiver stop settled := by
    have suffix := Pending.dropFrame_suffix receiver.pending stop
    exact ⟨settled.limit, fun member => settled.zeroFree (suffix.mem member),
      suffix.length_le.trans settled.within⟩
  tableDecode _ _ settled := ⟨settled.limit, settled.zeroFree, settled.within⟩
  log _ _ settled := ⟨settled.limit, settled.zeroFree, settled.within⟩

theorem Receiver.keptOn_length_le (most : Nat) :
    KeptOn (fun _ => False) fun receiver : Receiver τ => receiver.pending.length ≤ most where
  receive _ _ arrives := arrives.elim
  dropFrame receiver stop within :=
    (Pending.dropFrame_suffix receiver.pending stop).length_le.trans within
  tableDecode _ _ within := within
  log _ _ within := within

theorem Pending.length_receive_le (pending chunk : Bytes) :
    (receive pending chunk).length ≤ pending.length + chunk.length := by
  unfold receive
  split
  · exact (Bytes.length_dropZeros_le chunk).trans (Nat.le_add_left _ _)
  · exact List.length_append.le

/-! ### Callers that draw after each chunk -/

/-- Nothing is handed over in the uses, not by an observer either. -/
def Draws (uses : List (Use φ)) : Prop := ∀ use ∈ uses, use.Hands fun _ => False

/-- In these uses of a receiver each chunk is followed by uses that hand nothing over, until one of
them finds no frame; more of them may follow. -/
inductive Paced (limit : Option Nat) (table : τ) : List (Use φ) → Prop where
  | start : Paced limit table []
  | more {uses : List (Use φ)} {draw : Use φ} (paced : Paced limit table uses)
    (draws : Draws [draw]) : Paced limit table (uses ++ [draw])
  | round {uses draws : List (Use φ)} {chunk : Bytes} {last : Use φ}
    (paced : Paced limit table uses) (handed : Draws (draws ++ [last]))
    (none : last.FindsNone
      ((History.start limit table).run (uses ++ .receive chunk :: draws)).receiver) :
    Paced limit table (uses ++ .receive chunk :: (draws ++ [last]))

/-- After each round the receiver is settled, however much arrived. -/
theorem Paced.settled {bound : Nat} {table : τ} {uses : List (Use φ)}
    (paced : Paced (some bound) table uses) :
    ((History.start (some bound) table).run uses).receiver.Settled bound := by
  induction paced with
  | start => exact ⟨rfl, List.not_mem_nil, Nat.zero_le bound⟩
  | @more uses draw paced draws settled =>
    rw [History.run_append]
    exact History.moments_runOn (Receiver.keptOn_settled bound) settled draws _ List.mem_cons_self
  | @round uses draws chunk last paced handed none settled =>
    rw [show uses ++ Use.receive chunk :: (draws ++ [last]) =
      (uses ++ .receive chunk :: draws) ++ [last] by simp, History.run_append]
    exact Use.settled_of_findsNone (History.limit_run _ table _ _ List.mem_cons_self) none

/-- Whatever is done with a receiver that has a limit, with any table and any observers: if at some
moment a frame is asked for and none is found, then no separator is pending and the limit is kept.
So a caller that draws after each chunk until none is found, and whose observers hand nothing over,
never has more pending than the limit and the last chunk. -/
theorem pending_bounded (bound : Nat) (table : τ) (uses : List (Use φ)) :
    let history := (History.start (some bound) table).run uses
    (∀ receiver ∈ history.moments, ∀ use : Use φ, use.FindsNone receiver →
        (use.exchange receiver).receiver.Settled bound) ∧
      (Paced (some bound) table uses → ∀ (chunk : Bytes) (draws : List (Use φ)), Draws draws →
        ∀ receiver ∈ ((History.onward (history.receiver.receive chunk)).run draws).moments,
          receiver.pending.length ≤ bound + chunk.length) := by
  intro history
  constructor
  case left =>
    intro receiver member use none
    exact Use.settled_of_findsNone (History.limit_run (some bound) table uses receiver member) none
  case right =>
    intro paced chunk draws handed
    have arrived : (history.receiver.receive chunk).pending.length ≤ bound + chunk.length :=
      (Pending.length_receive_le _ chunk).trans (Nat.add_le_add_right paced.settled.within _)
    exact History.moments_runOn (Receiver.keptOn_length_le _) arrived handed

/-- A chunk that arrives on as many bytes as the limit allows: the bound is met. -/
theorem pending_bounded_met :
    let uses : List (Use Bytes) := [.receive [0xff, 0, 1, 2], .decode, .decode]
    let table : Verbatim := ⟨false⟩
    let history := (History.start (some 2) table).run uses
    let round : History Verbatim Bytes :=
      (History.onward (history.receiver.receive [3, 4, 5])).run [.decode]
    Use.FindsNone (.decode : Use Bytes) history.receiver ∧
      ((.decode : Use Bytes).exchange history.receiver).receiver.Settled 2 ∧
      Paced (some 2) table uses ∧ Draws [(.decode : Use Bytes)] ∧
      (∀ receiver ∈ round.moments, receiver.pending.length ≤ 2 + 3) ∧
      ∃ receiver ∈ round.moments, receiver.pending.length = 2 + 3 := by
  intro uses table history round
  have findsNone {receiver : Receiver Verbatim} (none : receiver.cut? = .none) :
      Use.FindsNone (.decode : Use Bytes) receiver :=
    ⟨.noSeparator, congrArg Prod.fst (Receiver.decode_of_cut?_eq_none none), rfl⟩
  have lacks : Use.FindsNone (.decode : Use Bytes) history.receiver :=
    findsNone (by decide +kernel)
  have handed : Draws [(.decode : Use Bytes)] := List.forall_mem_singleton.mpr trivial
  have paced : Paced (some 2) table uses := by
    show Paced (some 2) table ([] ++ .receive [0xff, 0, 1, 2] :: ([.decode] ++ [.decode]))
    exact .round .start (List.forall_mem_cons.mpr ⟨trivial, handed⟩) (findsNone (by decide +kernel))
  obtain ⟨settles, bounds⟩ := pending_bounded 2 table uses
  refine ⟨lacks, settles history.receiver List.mem_cons_self .decode lacks, paced, handed,
    bounds paced [3, 4, 5] [.decode] handed, history.receiver.receive [3, 4, 5], ?_, ?_⟩
  · exact List.mem_cons_of_mem _ List.mem_cons_self
  · decide +kernel

end ZeroFrame

/-
This file says exactly what a run of reports tells, and what it leaves.

If the table is a function of the payload and the observer only listens, everything follows
from the pending bytes and the limit. Each ended segment is told once, in order, with what the
codec and the table have for it. The bytes after the last separator stay, unless they pass the
limit: then they are told as well, as bytes without a frame, and nothing stays. A single cut
takes the first of these notices and leaves a receiver whose notices are the others, and that
is all that the rounds of a run have in common.
-/

import ZeroFrame.Proofs.Link.Queue

namespace ZeroFrame

open Bytes

variable {τ φ : Type}

/-! ### Notices -/

/-- What a report says about a frame: its encoded bytes, the frame if there is one, and the size of
its payload. -/
structure Notice (φ : Type) where
  raw : Bytes
  frame : Option φ
  size : Nat
  deriving DecidableEq

namespace Notice

/-- The notice of a segment that a separator ends, for a table with these answers. -/
def ofSegment (answer : Bytes → Except Fault (φ × Nat)) (raw : Bytes) : Notice φ :=
  ⟨raw, (frameOf answer raw).toOption, decodedSize raw⟩

/-- The notice of bytes that are given up. -/
def ofExcess (raw : Bytes) : Notice φ := ⟨raw, none, 0⟩

end Notice

def Report.notice (report : Report φ) : Notice φ := ⟨report.raw, report.frame, report.size⟩

namespace Receiver

variable {receiver : Receiver τ} {answer : Bytes → Except Fault (φ × Nat)} {cut : Cut}

/-- The notices of everything that is pending, in the order in which it will be cut off. -/
def notices (answer : Bytes → Except Fault (φ × Nat)) (receiver : Receiver τ) : List (Notice φ) :=
  (segments receiver.pending).ended.map (.ofSegment answer) ++
    (excess receiver.limit (segments receiver.pending).rest).map .ofExcess

/-- What is pending when all notices have been given. -/
def leftover (receiver : Receiver τ) : Bytes :=
  if excess receiver.limit (segments receiver.pending).rest = [] then
    (segments receiver.pending).rest
  else []

/-- The bytes after the last separator are told and gone exactly if they pass the limit. -/
theorem notices_cases (receiver : Receiver τ) (answer : Bytes → Except Fault (φ × Nat)) :
    let found := segments receiver.pending
    (∃ bound, receiver.limit = some bound ∧ bound < found.rest.length ∧
        receiver.notices answer = found.ended.map (.ofSegment answer) ++ [.ofExcess found.rest] ∧
        receiver.leftover = []) ∨
      (∀ bound, receiver.limit = some bound → found.rest.length ≤ bound) ∧
        receiver.notices answer = found.ended.map (.ofSegment answer) ∧
        receiver.leftover = found.rest := by
  intro found
  unfold notices leftover
  rcases excess_cases receiver.limit found.rest with
    ⟨bound, isLimit, beyond, given⟩ | ⟨within, nothing⟩
  · rw [given]
    exact Or.inl ⟨bound, isLimit, beyond, rfl, rfl⟩
  · rw [nothing]
    exact Or.inr ⟨within, List.append_nil _, rfl⟩

/-- Without a cut there is nothing to tell, and everything stays. -/
theorem notices_of_cut?_eq_none (lack : receiver.cut? = none)
    (answer : Bytes → Except Fault (φ × Nat)) :
    receiver.notices answer = [] ∧ receiver.leftover = receiver.pending := by
  have nothing := frames_of_cut?_eq_none lack
  unfold frames at nothing
  obtain ⟨ended, given⟩ := List.append_eq_nil_iff.mp nothing
  constructor
  · unfold notices
    rw [ended, given]
    rfl
  · rw [leftover, if_pos given, segments_of_notMem (of_cut?_eq_none lack).1]

/-- A cut takes the first notice, and what stays in the end does not change. -/
theorem notices_of_cut? [Table τ φ] (trimmed : receiver.Trimmed) (found : receiver.cut? = some cut)
    (answers : Table.Answers receiver.table answer) (last : Receiver τ)
    (limit : last.limit = receiver.limit)
    (pending : last.pending = Pending.dropFrame receiver.pending cut.stop) :
    receiver.notices answer =
        (Exchange.reportOf receiver cut (receiver.judge (φ := φ) cut).1.toOption).notice ::
          last.notices answer ∧
      receiver.leftover = last.leftover := by
  obtain ⟨some, zeroFree⟩ := trimmed.take_of_cut? found
  rcases cases_of_cut? found with ⟨stop, rfl, separated⟩ | ⟨bound, rfl, _, limited, beyond⟩
  · obtain ⟨rest, split, _, dropped⟩ := Pending.exists_of_separator? separated
    have told : (Exchange.reportOf receiver (.frame stop)
        (receiver.judge (φ := φ) (.frame stop)).1.toOption).notice =
          .ofSegment answer (receiver.pending.take stop) := by
      rw [(judge_frame answers stop).1, Report.notice, Exchange.reportOf,
        Exchange.payloadSize_frame]
      rfl
    have found : segments receiver.pending =
        ⟨receiver.pending.take stop :: (segments last.pending).ended,
          (segments last.pending).rest⟩ := by
      rw [Cut.stop] at pending some zeroFree
      rw [pending, dropped, segments_dropZeros, ← segments_frame zeroFree some, ← split]
    constructor
    · rw [told]
      unfold notices
      rw [found, limit]
      rfl
    · unfold leftover
      rw [found, limit]
  · rw [Cut.stop, List.take_length] at zeroFree
    rw [Cut.stop, Pending.dropFrame, List.drop_length, dropZeros_nil] at pending
    have given : excess receiver.limit receiver.pending = [receiver.pending] := by
      rw [limited]
      exact if_pos beyond
    have nothing : excess receiver.limit [] = [] := by
      rw [limited]
      rfl
    constructor
    · unfold notices
      rw [limit, pending, segments_of_notMem zeroFree, segments_of_notMem List.not_mem_nil]
      simp only [given, nothing, Report.notice, Exchange.reportOf, Cut.stop, List.take_length]
      rfl
    · unfold leftover
      rw [limit, pending, segments_of_notMem zeroFree, segments_of_notMem List.not_mem_nil]
      simp only [given, nothing]
      rfl

end Receiver

/-! ### Runs of reports -/

variable [Table τ φ] {answer : Bytes → Except Fault (φ × Nat)}

/-- Each round gives the first notice that is left, until there is none. The rounds that are left
stay enough, since every cut uses up a pending byte. -/
theorem Exchange.reportFrom_silent {exchange : Exchange τ φ}
    (lawful : Table.Lawful exchange.receiver.table answer) (trimmed : exchange.receiver.Trimmed)
    (depth : Nat) {rounds : Nat} (enough : exchange.receiver.pending.length < rounds)
    (count : Nat) :
    ∃ (reports : List (Report φ)) (after : Exchange τ φ),
      exchange.reportFrom (Listener.silent φ).observer (depth + 1) rounds count =
        (.finished (count + reports.length), after) ∧
      after.heard = (reports.map Event.report).reverse ++ exchange.heard ∧
      reports.map Report.notice = exchange.receiver.notices answer ∧
      after.receiver.pending = exchange.receiver.leftover := by
  induction rounds generalizing exchange count with
  | zero => exact absurd enough (Nat.not_lt_zero _)
  | succ rounds inductionHypothesis =>
    rw [reportFrom]
    cases found : exchange.receiver.cut? with
    | none =>
      rw [reportNext_of_cut?_eq_none found]
      obtain ⟨nothing, stays⟩ := Receiver.notices_of_cut?_eq_none found answer
      exact ⟨[], exchange, rfl, rfl, nothing.symm, stays.symm⟩
    | some cut =>
      rw [reportNext_silent found (reported_judge lawful cut)]
      generalize told : (exchange.receiver.judge (φ := φ) cut).1.toOption = frame
      have answers := (Receiver.kept_answers answer).keptOn.judge lawful.answers cut []
      have stillLawful : Table.Lawful
          ((exchange.told cut frame).dropFrame cut.stop).receiver.table answer :=
        ⟨answers, lawful.isDecode⟩
      have shorter := Receiver.length_dropFrame_lt found
      obtain ⟨first, stays⟩ := Receiver.notices_of_cut? trimmed found lawful.answers
        ((exchange.told cut frame).dropFrame cut.stop).receiver rfl rfl
      obtain ⟨reports, after, finished, heard, notices, left⟩ :=
        inductionHypothesis stillLawful (head?_dropZeros _)
          (Nat.lt_of_lt_of_le shorter (Nat.le_of_lt_succ enough)) (count + 1)
      refine ⟨Exchange.reportOf exchange.receiver cut frame :: reports, after, ?_, ?_, ?_, ?_⟩
      · rw [List.length_cons, Nat.add_comm reports.length, ← Nat.add_assoc]
        exact finished
      · rw [heard, List.map_cons, List.reverse_cons, List.append_assoc]
        rfl
      · rw [List.map_cons, notices, first, told]
      · rw [left, stays]

/-- A run of reports to an observer that only listens comes to an end, with a table that is a
function of the payload and whose faults concern it. Each ended segment of the pending bytes is
told once, in order, as what the codec and the table make of it. If the bytes after the last
separator pass the limit, they are told at the end, without a frame, and are gone; otherwise
they stay. The run counts what was told. -/
theorem reports_exhaust_pending {table : τ} (lawful : Table.Lawful table answer)
    (limit : Option Nat) (uses : List (Use φ)) :
    let receiver := ((History.start limit table).run uses).receiver
    let found := segments receiver.pending
    ∃ (reports : List (Report φ)) (after : Receiver τ),
      (Call.reportAll (.silent φ)).run receiver =
        (.reportedAll (reports.map .report) (.finished reports.length), after) ∧
      ((∃ bound, limit = some bound ∧ bound < found.rest.length ∧
          reports.map Report.notice =
            found.ended.map (.ofSegment answer) ++ [.ofExcess found.rest] ∧
          after.pending = []) ∨
        (∀ bound, limit = some bound → found.rest.length ≤ bound) ∧
          reports.map Report.notice = found.ended.map (.ofSegment answer) ∧
          after.pending = found.rest) := by
  intro receiver found
  obtain ⟨limited, trimmed⟩ := (History.sound_run limit table uses).receiver
  have begun : Table.Lawful (Exchange.start receiver : Exchange τ φ).receiver.table answer :=
    ⟨History.answers_run lawful.answers limit uses, lawful.isDecode⟩
  obtain ⟨reports, after, finished, heard, notices, left⟩ :=
    Exchange.reportFrom_silent begun trimmed 0 (Nat.lt_succ_self _) 0
  rw [Nat.zero_add reports.length] at finished
  refine ⟨reports, after.receiver, ?_, ?_⟩
  · rw [Call.run_reportAll receiver finished, heard, Exchange.start, List.append_nil,
      List.reverse_reverse]
  · rcases receiver.notices_cases answer with
      ⟨bound, isLimit, beyond, told, nothing⟩ | ⟨within, told, stays⟩
    · exact Or.inl
        ⟨bound, limited.symm.trans isLimit, beyond, notices.trans told, left.trans nothing⟩
    · exact Or.inr
        ⟨fun bound isLimit => within bound (limited.trans isLimit), notices.trans told,
          left.trans stays⟩

/-- One segment is a known message, one has an unknown index, one is no codeword, and the bytes
after the last separator are one more than the limit allows. -/
theorem reports_exhaust_pending_of_each_kind :
    let registry : Registry := ⟨[⟨5, ⟨"Ping", some 5, "", []⟩, ⟨⟨.little, false⟩, []⟩⟩]⟩
    let uses : List (Use Message) :=
      [.receive [5, 0x7e, 0, 9, 0x7e, 0, 0], .receive [0xff, 0, 1, 2, 3]]
    let receiver := ((History.start (some 2) registry).run uses).receiver
    Table.Lawful registry registry.decode ∧
      ∃ (reports : List (Report Message)) (after : Receiver Registry),
        (Call.reportAll (.silent Message)).run receiver =
          (.reportedAll (reports.map .report) (.finished reports.length), after) ∧
        reports.map Report.notice =
          [⟨[5, 0x7e], some ⟨"Ping", []⟩, 7⟩, ⟨[9, 0x7e], none, 7⟩, ⟨[0xff], none, 0⟩,
            ⟨[1, 2, 3], none, 0⟩] ∧
        after.pending = [] := by
  intro registry uses receiver
  have lawful := registry.lawful
  have found : segments receiver.pending = ⟨[[5, 0x7e], [9, 0x7e], [0xff]], [1, 2, 3]⟩ := by
    decide +kernel
  have told : [[5, 0x7e], [9, 0x7e], [0xff]].map (Notice.ofSegment registry.decode) =
      [⟨[5, 0x7e], some ⟨"Ping", []⟩, 7⟩, ⟨[9, 0x7e], none, 7⟩, ⟨[0xff], none, 0⟩] := by
    decide +kernel
  obtain ⟨reports, after, finished, how⟩ := reports_exhaust_pending lawful (some 2) uses
  rw [show segments ((History.start (some 2) registry).run uses).receiver.pending = _ from found]
    at how
  refine ⟨lawful, reports, after, finished, ?_⟩
  rcases how with ⟨bound, _, _, notices, nothing⟩ | ⟨within, _⟩
  · rw [told] at notices
    exact ⟨notices, nothing⟩
  · exact absurd (within 2 rfl) (by decide)

end ZeroFrame

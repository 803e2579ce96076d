/-
This file shows that a separator brings a receiver with a limit back into step.

Whether bytes without a separator are given up depends on when a frame is asked for. What was
pending before a separator is therefore either given up or ended by the separator; but it is
gone as one frame in both cases, and after it the frames are those of the stream that the
separator opens. If no segment of this stream is longer than the limit, the limit does not
show any more. The invariant relates the pending bytes to the stream as it will be once the
separator has arrived, which makes the two cases the same.
-/

import ZeroFrame.Proofs.Link.Intake
import ZeroFrame.Proofs.Link.Trimming

namespace ZeroFrame

variable {τ φ : Type}

/-! ### Streams that keep to a limit -/

/-- No segment of the stream is longer than the limit, neither an ended one nor the last. -/
def Fits (limit : Option Nat) (stream : Bytes) : Prop :=
  ∀ bound, limit = some bound →
    ∀ segment ∈ (segments stream).ended ++ [(segments stream).rest], segment.length ≤ bound

/-- What is still open of the stream is not longer than the limit. -/
def Roomy (limit : Option Nat) (stream : Bytes) : Prop :=
  ∀ bound, limit = some bound → (segments stream).rest.length ≤ bound

/-- The stream stays roomy, however much of the bytes still to come has arrived. -/
def StaysRoomy (limit : Option Nat) (stream coming : Bytes) : Prop :=
  ∀ front, front <+: coming → Roomy limit (stream ++ front)

/-- A stream that keeps to the limit as a whole keeps to it all along. -/
theorem Fits.roomy {limit : Option Nat} {front back : Bytes} (fits : Fits limit (front ++ back)) :
    Roomy limit front := by
  intro bound limited
  obtain ⟨segment, member, longer⟩ := exists_segment_of_begun (segments front).rest back
  refine longer.length_le.trans (fits bound limited segment ?_)
  rw [segments, segmentsAfter_append]
  rcases List.mem_append.mp member with ended | rest
  · exact List.mem_append_left _ (List.mem_append_right _ ended)
  · exact List.mem_append_right _ rest

theorem Fits.staysRoomy {limit : Option Nat} {stream coming : Bytes}
    (fits : Fits limit (stream ++ coming)) : StaysRoomy limit stream coming := by
  rintro front ⟨back, rfl⟩
  rw [← List.append_assoc] at fits
  exact fits.roomy

namespace StaysRoomy

variable {limit : Option Nat} {stream front coming : Bytes}

theorem now (stays : StaysRoomy limit stream coming) : Roomy limit stream := by
  rw [← List.append_nil stream]
  exact stays [] List.nil_prefix

theorem later (stays : StaysRoomy limit stream (front ++ coming)) :
    StaysRoomy limit (stream ++ front) coming := by
  intro next sofar
  rw [List.append_assoc]
  exact stays _ ((List.prefix_append_right_inj front).mpr sofar)

/-- What came before a separator does not count. -/
theorem append_separator (stays : StaysRoomy limit stream coming) (before : Bytes) :
    StaysRoomy limit (before ++ separator :: stream) coming := by
  intro front sofar
  rw [List.append_assoc, List.cons_append, Roomy, segments_append_separator]
  exact stays front sofar

end StaysRoomy

/-- Aligned bytes are never given up while the stream keeps to the limit. -/
theorem Aligned.cut?_cases {receiver : Receiver τ} {stream : Bytes} {count : Nat}
    (aligned : Aligned stream count receiver.pending) (roomy : Roomy receiver.limit stream) :
    (receiver.cut? = none ∧ Pending.separator? receiver.pending = none) ∨
      ∃ stop, receiver.cut? = some (.frame stop) ∧
        Pending.separator? receiver.pending = some stop := by
  rcases receiver.cut?_cases with
    ⟨none, zeroFree, _⟩ | frame | ⟨bound, _, zeroFree, limited, beyond⟩
  · exact Or.inl ⟨none, (Pending.separator?_eq_none_iff _).mpr zeroFree⟩
  · exact Or.inr frame
  · have last := aligned.separator?_eq_none_iff.mp
      ((Pending.separator?_eq_none_iff _).mpr zeroFree)
    rw [List.getElem?_eq_none_iff] at last
    rw [aligned.pending_eq_rest (Nat.le_antisymm aligned.complete last)] at beyond
    exact absurd (roomy bound limited) (Nat.not_le_of_lt beyond)

/-! ### What every step keeps -/

variable [Table τ φ]

/-- An intake that has taken the first frames of a stream, whose bytes have all arrived but for
`awaited`. From place `first` on the answers are those that the frames have alone. -/
structure Harvests (limit : Option Nat) (answer : Bytes → Except Fault (φ × Nat)) (first : Nat)
    (stream awaited : Bytes) (intake : Intake τ φ) : Prop where
  limited : intake.receiver.limit = limit
  answers : Table.Answers intake.receiver.table answer
  aligned : Aligned stream intake.extracted.length
    (Pending.receive intake.receiver.pending awaited)
  frames : intake.extracted.map Extraction.raw <+: (segments stream).ended
  alone : ∀ place extraction, first ≤ place → intake.extracted[place]? = some extraction →
    extraction.Alone answer

namespace Harvests

variable {limit : Option Nat} {answer : Bytes → Except Fault (φ × Nat)} {first : Nat}
  {stream awaited before : Bytes} {intake : Intake τ φ} {cut : Cut}

/-- A cut at the next separator takes the next frame of the stream. -/
theorem take (harvests : Harvests limit answer first stream awaited intake)
    (found : intake.receiver.cut? = some cut)
    (separated : Pending.separator? (Pending.receive intake.receiver.pending awaited) =
      some cut.stop)
    (within : cut.stop ≤ intake.receiver.pending.length)
    (isFrame : first ≤ intake.extracted.length → ∃ stop, cut = .frame stop) (pull : Pull φ) :
    Harvests limit answer first stream awaited (intake.step (.pull pull)) := by
  obtain ⟨next, aligned⟩ := harvests.aligned.take separated
  rw [Pending.take_receive within] at next
  rw [Pending.dropFrame_receive within] at aligned
  rw [Intake.step_of_cut? found, pull.run_of_cut? found]
  constructor
  case limited => exact harvests.limited
  case answers => exact (Receiver.kept_answers answer).keptOn.judge harvests.answers cut []
  case aligned =>
    rw [List.length_append, List.length_singleton]
    exact aligned
  case frames =>
    rw [List.map_append, List.map_singleton]
    exact append_singleton_prefix harvests.frames (by rwa [List.length_map])
  case alone =>
    intro place extraction late same
    rcases Nat.lt_or_ge place intake.extracted.length with earlier | last
    · rw [List.getElem?_append_left earlier] at same
      exact harvests.alone place extraction late same
    · rw [List.getElem?_append_right last, List.getElem?_singleton] at same
      split at same
      case isFalse => cases same
      case isTrue here =>
        obtain rfl := Option.some.inj same
        obtain ⟨stop, rfl⟩ := isFrame (by omega)
        obtain ⟨outcome, _⟩ := Receiver.judge_frame harvests.answers stop
        rw [Extraction.Alone, outcome, Exchange.payloadSize_frame]
        rfl

/-- Bytes that were awaited arrive, and others after them. -/
theorem receive (harvests : Harvests limit answer first stream awaited intake) (rest : Bytes) :
    Harvests limit answer first (stream ++ rest) [] (intake.step (.receive (awaited ++ rest))) := by
  refine ⟨harvests.limited, harvests.answers, ?_,
    harvests.frames.trans (ended_prefix_append stream rest), harvests.alone⟩
  rw [Pending.receive_nil, Intake.step, Receiver.receive, Pending.receive_append]
  exact harvests.aligned.receive rest

/-- Once nothing is awaited, the pending bytes are aligned with the stream. -/
theorem aligned_pending (harvests : Harvests limit answer first stream [] intake) :
    Aligned stream intake.extracted.length intake.receiver.pending := by
  have aligned := harvests.aligned
  rwa [Pending.receive_nil] at aligned

/-- There is then a cut exactly at the next separator. -/
theorem cut?_cases (harvests : Harvests limit answer first stream [] intake)
    (roomy : Roomy limit stream) :
    (intake.receiver.cut? = none ∧ Pending.separator? intake.receiver.pending = none) ∨
      ∃ stop, intake.receiver.cut? = some (.frame stop) ∧
        Pending.separator? intake.receiver.pending = some stop :=
  harvests.aligned_pending.cut?_cases (harvests.limited ▸ roomy)

/-- Asking for a frame takes the next one, if there is one. -/
theorem pull (harvests : Harvests limit answer first stream [] intake)
    (roomy : Roomy limit stream) (pull : Pull φ) :
    Harvests limit answer first stream [] (intake.step (.pull pull)) := by
  rcases harvests.cut?_cases roomy with ⟨none, _⟩ | ⟨stop, found, separated⟩
  · rw [Intake.step_of_lack none]
    exact harvests
  · refine harvests.take found ?_ (Pending.le_of_separator? separated) (fun _ => ⟨stop, rfl⟩) pull
    rwa [Pending.receive_nil]

theorem step (harvests : Harvests limit answer first stream [] intake)
    (roomy : Roomy limit stream) (feed : Feed φ) :
    Harvests limit answer first (stream ++ feed.chunk) [] (intake.step feed) := by
  cases feed with
  | receive chunk => exact harvests.receive chunk
  | pull pull =>
    rw [Feed.chunk, List.append_nil]
    exact harvests.pull roomy pull

theorem run (harvests : Harvests limit answer first stream [] intake) (feeds : List (Feed φ))
    (stays : StaysRoomy limit stream (fed feeds)) :
    Harvests limit answer first (stream ++ fed feeds) [] (intake.run feeds) := by
  induction feeds generalizing stream intake with
  | nil => rwa [fed, List.flatMap_nil, List.append_nil]
  | cons feed feeds inductionHypothesis =>
    rw [fed, List.flatMap_cons, ← fed, ← List.append_assoc]
    exact inductionHypothesis (harvests.step stays.now feed) stays.later

/-- There is no frame to ask for exactly if all frames of the stream were taken. -/
theorem extracts_eq_false_iff (harvests : Harvests limit answer first stream [] intake)
    (roomy : Roomy limit stream) (pull : Pull φ) :
    (pull.call.run intake.receiver).1.extracts = false ↔
      intake.extracted.length = (segments stream).ended.length := by
  have aligned := harvests.aligned_pending
  have lack : intake.receiver.cut? = none ↔ Pending.separator? intake.receiver.pending = none := by
    rcases harvests.cut?_cases roomy with ⟨none, absent⟩ | ⟨stop, found, separated⟩
    · exact iff_of_true none absent
    · exact iff_of_false (found ▸ Option.some_ne_none _) (separated ▸ Option.some_ne_none _)
  rw [pull.extracts_run, Option.isSome_eq_false_iff, Option.isNone_iff_eq_none, lack,
    aligned.separator?_eq_none_iff, List.getElem?_eq_none_iff]
  exact ⟨Nat.le_antisymm aligned.complete, fun all => all.ge⟩

/-! ### Before the separator arrives -/

/-- Before the separator arrives, what is pending is the frame that it will end, and giving it up is
taking this frame. -/
theorem pull_awaiting
    (harvests : Harvests limit answer (segments (before ++ [separator])).ended.length
      (before ++ [separator]) [separator] intake) (pull : Pull φ) :
    Harvests limit answer (segments (before ++ [separator])).ended.length
      (before ++ [separator]) [separator] (intake.step (.pull pull)) := by
  rcases intake.receiver.cut?_cases with
    ⟨none, _⟩ | ⟨stop, found, separated⟩ | ⟨bound, found, zeroFree, _, beyond⟩
  · rw [Intake.step_of_lack none]
    exact harvests
  · exact harvests.take found (Pending.separator?_receive separated _)
      (Pending.le_of_separator? separated) (fun _ => ⟨stop, rfl⟩) pull
  · have separated : Pending.separator? (Pending.receive intake.receiver.pending [separator]) =
        some intake.receiver.pending.length := by
      rw [Pending.receive, if_neg, Pending.separator?_append zeroFree]
      rw [List.isEmpty_iff]
      exact List.ne_nil_of_length_pos (Nat.zero_lt_of_lt beyond)
    have early := (harvests.aligned.take separated).2.complete
    exact harvests.take found separated (Nat.le_refl _) (fun late => by omega) pull

theorem run_awaiting
    (harvests : Harvests limit answer (segments (before ++ [separator])).ended.length
      (before ++ [separator]) [separator] intake) (feeds : List (Feed φ))
    (whole : fed feeds = separator :: stream) (fits : Fits limit stream) :
    Harvests limit answer (segments (before ++ [separator])).ended.length
      (before ++ separator :: stream) [] (intake.run feeds) := by
  induction feeds generalizing intake with
  | nil => cases whole
  | cons feed feeds inductionHypothesis =>
    rw [fed, List.flatMap_cons, ← fed] at whole
    cases feed with
    | pull pull => exact inductionHypothesis (harvests.pull_awaiting pull) whole
    | receive chunk =>
      cases chunk with
      | nil =>
        refine inductionHypothesis ?_ whole
        rw [Intake.step, Receiver.receive, Pending.receive_nil]
        exact harvests
      | cons byte chunk =>
        obtain ⟨rfl, rfl⟩ := List.cons.inj whole
        have stays := fits.staysRoomy.append_separator before
        have arrived := harvests.receive chunk
        rw [List.append_assoc, List.singleton_append] at arrived
        have complete := arrived.run feeds stays
        rwa [List.append_assoc, List.cons_append] at complete

end Harvests

/-! ### Without the limit -/

/-- The receiver as it would be without its limit. -/
def Receiver.unlimited (receiver : Receiver τ) : Receiver τ := { receiver with limit := none }

def Intake.unlimited (intake : Intake τ φ) : Intake τ φ :=
  { intake with receiver := intake.receiver.unlimited }

/-- Only in the search for a cut the limit counts. -/
theorem Pull.run_unlimited {receiver : Receiver τ}
    (same : receiver.unlimited.cut? = receiver.cut?) (pull : Pull φ) :
    pull.call.run receiver.unlimited =
      ((pull.call.run receiver).1, (pull.call.run receiver).2.unlimited) := by
  cases found : receiver.cut? with
  | none =>
    rw [pull.run_of_lack found, pull.run_of_lack (same.trans found)]
  | some cut =>
    rw [pull.run_of_cut? found, pull.run_of_cut? (same.trans found)]
    rfl

theorem Intake.step_unlimited {intake : Intake τ φ}
    (same : intake.receiver.unlimited.cut? = intake.receiver.cut?) (feed : Feed φ) :
    intake.unlimited.step feed = (intake.step feed).unlimited := by
  cases feed with
  | receive chunk => rfl
  | pull pull =>
    have raw : intake.unlimited.receiver.nextRaw = intake.receiver.nextRaw := by
      rw [Receiver.nextRaw, Receiver.nextRaw, unlimited, same]
      rfl
    rw [step, step, raw]
    simp only [unlimited, pull.run_unlimited same]
    rfl

namespace Harvests

variable {limit : Option Nat} {answer : Bytes → Except Fault (φ × Nat)} {first : Nat}
  {stream : Bytes} {intake : Intake τ φ}

/-- A limit that the stream keeps to does not show in the cuts. -/
theorem cut?_unlimited (harvests : Harvests limit answer first stream [] intake)
    (roomy : Roomy limit stream) : intake.receiver.unlimited.cut? = intake.receiver.cut? := by
  rcases harvests.cut?_cases roomy with ⟨none, absent⟩ | ⟨stop, found, separated⟩
  · rw [none]
    exact Receiver.cut?_of_unlimited rfl absent
  · rw [found]
    exact Receiver.cut?_of_separator? separated

theorem run_unlimited (harvests : Harvests limit answer first stream [] intake)
    (feeds : List (Feed φ)) (stays : StaysRoomy limit stream (fed feeds)) :
    intake.unlimited.run feeds = (intake.run feeds).unlimited := by
  induction feeds generalizing stream intake with
  | nil => rfl
  | cons feed feeds inductionHypothesis =>
    have step := Intake.step_unlimited (harvests.cut?_unlimited stays.now) feed
    have rest := inductionHypothesis (harvests.step stays.now feed) stays.later
    rw [← step] at rest
    exact rest

end Harvests

/-! ### From any state -/

/-- A receiver that was used in any way, before a separator arrives. -/
theorem Harvests.start {limit : Option Nat} {answer : Bytes → Except Fault (φ × Nat)} {table : τ}
    (answers : Table.Answers table answer) (uses : List (Use φ)) :
    let receiver := ((History.start limit table).run uses).receiver
    let stream := receiver.pending ++ [separator]
    Harvests limit answer (segments stream).ended.length stream [separator]
      (Intake.start receiver : Intake τ φ) := by
  intro receiver stream
  obtain ⟨limited, trimmed⟩ := (History.sound_run limit table uses).receiver
  have aligned := Pending.receive_eq_dropZeros trimmed [separator]
  exact ⟨limited, History.answers_run answers limit uses, ⟨Nat.zero_le _, aligned⟩,
    List.nil_prefix, nofun⟩

/-- A receiver that has received nothing is in step with the stream. -/
theorem Harvests.fresh {answer : Bytes → Except Fault (φ × Nat)} {table : τ}
    (answers : Table.Answers table answer) (limit : Option Nat) :
    Harvests limit answer 0 [] [] (Intake.start (Receiver.fresh limit table) : Intake τ φ) := by
  refine ⟨rfl, answers, ?_, List.nil_prefix, nofun⟩
  rw [Pending.receive_nil]
  exact Aligned.start

/-- To a receiver that was not used before, a limit that the stream keeps to makes no difference. -/
theorem run_fresh_unlimited {answer : Bytes → Except Fault (φ × Nat)} {table : τ}
    (answers : Table.Answers table answer) {limit : Option Nat} {feeds : List (Feed φ)}
    (fits : Fits limit (fed feeds)) :
    let limited : Intake τ φ := (Intake.start (Receiver.fresh limit table)).run feeds
    (Intake.start (Receiver.fresh none table)).run feeds = limited.unlimited ∧
      ∀ pull : Pull φ,
        (pull.call.run limited.receiver.unlimited).1 = (pull.call.run limited.receiver).1 := by
  intro limited
  have begun := Harvests.fresh answers limit
  have stays : StaysRoomy limit [] (fed feeds) := fits.staysRoomy
  have roomy : Roomy limit ([] ++ fed feeds) := stays _ (List.prefix_refl _)
  have same := (begun.run feeds stays).cut?_unlimited roomy
  exact ⟨begun.run_unlimited feeds stays, fun pull => by rw [pull.run_unlimited same]⟩

/-- Whatever was done with a receiver before, after a separator it gets the frames of the stream
that follows, if no segment of this stream is longer than the limit. However the stream is cut
into chunks and whenever frames are asked for, what was pending before the separator goes
first, as the frames that the separator completes. After these come the frames of the stream,
each with its own bytes and with the answer that it has alone, until all are taken. To a
receiver that was not used before, such a limit makes no difference at all. -/
theorem extractions_resynchronize {answer : Bytes → Except Fault (φ × Nat)} {table : τ}
    (answers : Table.Answers table answer) (limit : Option Nat) :
    (∀ (uses : List (Use φ)) (feeds : List (Feed φ)) stream, fed feeds = separator :: stream →
      Fits limit stream →
        let receiver := ((History.start limit table).run uses).receiver
        let intake : Intake τ φ := (Intake.start receiver).run feeds
        let old := (segments (receiver.pending ++ [separator])).ended
        let new := (segments stream).ended
        intake.extracted.map Extraction.raw <+: old ++ new ∧
          (∀ place extraction, intake.extracted[old.length + place]? = some extraction →
            new[place]? = some extraction.raw ∧ extraction.Alone answer) ∧
          ∀ pull : Pull φ, (pull.call.run intake.receiver).1.extracts = false ↔
            intake.extracted.length = old.length + new.length) ∧
      ∀ feeds : List (Feed φ), Fits limit (fed feeds) →
        let limited : Intake τ φ := (Intake.start (Receiver.fresh limit table)).run feeds
        let free : Intake τ φ := (Intake.start (Receiver.fresh none table)).run feeds
        free.extracted = limited.extracted ∧
          free.receiver = { limited.receiver with limit := none } ∧
          ∀ pull : Pull φ,
            (pull.call.run free.receiver).1 = (pull.call.run limited.receiver).1 := by
  constructor
  · intro uses feeds stream whole fits receiver intake old new
    have harvests := (Harvests.start answers uses).run_awaiting feeds whole fits
    have all := segments_append_separator receiver.pending stream
    have frames : intake.extracted.map Extraction.raw <+: old ++ new := by
      have taken := harvests.frames
      rwa [all] at taken
    have roomy : Roomy limit (receiver.pending ++ separator :: stream) := by
      rw [Roomy, all]
      exact fun bound limited => fits bound limited _ List.mem_concat_self
    refine ⟨frames, fun place extraction found => ⟨?_, ?_⟩, fun pull => ?_⟩
    · have here := getElem?_of_prefix_map frames found
      rwa [List.getElem?_append_right (Nat.le_add_right _ _), Nat.add_sub_cancel_left] at here
    · exact harvests.alone _ extraction (Nat.le_add_right _ place) found
    · rw [harvests.extracts_eq_false_iff roomy pull, all, List.length_append]
  · intro feeds fits limited free
    obtain ⟨same, alike⟩ := run_fresh_unlimited answers fits
    have unlimited : free = limited.unlimited := same
    rw [unlimited]
    exact ⟨rfl, rfl, alike⟩

/-- Four bytes were given up before, and three more are given up before the separator arrives. -/
theorem extractions_resynchronize_after_overflows :
    let uses : List (Use Bytes) := [.receive [0, 4, 4, 4, 4], .decode, .receive [9, 9, 9]]
    let feeds : List (Feed Bytes) := [.pull .decode, .receive [0],
      .pull (.reportNext (.silent Bytes)), .receive [0, 0x11], .receive [0x7e, 0, 0x7f],
      .pull .decode, .receive [0, 5], .pull (.reportNext (.silent Bytes))]
    let stream : Bytes := [0, 0x11, 0x7e, 0, 0x7f, 0, 5]
    let table : Verbatim := ⟨true⟩
    let receiver := ((History.start (some 2) table).run uses).receiver
    let intake : Intake Verbatim Bytes := (Intake.start receiver).run feeds
    let once : List (Feed Bytes) := [.receive stream, .pull .decode]
    let limited : Intake Verbatim Bytes := (Intake.start (Receiver.fresh (some 2) table)).run once
    let free : Intake Verbatim Bytes := (Intake.start (Receiver.fresh none table)).run once
    receiver.pending = [9, 9, 9] ∧ fed feeds = separator :: stream ∧ Fits (some 2) stream ∧
      intake.extracted.map Extraction.raw <+: [[9, 9, 9], [0x11, 0x7e], [0x7f]] ∧
      intake.extracted.length = 3 ∧
      (∀ place extraction, intake.extracted[1 + place]? = some extraction →
        [[0x11, 0x7e], [0x7f]][place]? = some extraction.raw ∧
          extraction.Alone fun payload =>
            .ok (table.frame payload, (table.frame payload).length)) ∧
      (∀ pull : Pull Bytes, (pull.call.run intake.receiver).1.extracts = false) ∧
      free.extracted = limited.extracted := by
  intro uses feeds stream table receiver intake once limited free
  have fits : Fits (some 2) stream := by
    intro bound same
    obtain rfl := Option.some.inj same
    decide
  have pending : receiver.pending = [9, 9, 9] := by decide +kernel
  have count : intake.extracted.length = 3 := by decide +kernel
  obtain ⟨later, fresh⟩ :=
    extractions_resynchronize (φ := Bytes) (Verbatim.lawful table).answers (some 2)
  obtain ⟨frames, alone, ended⟩ := later uses feeds stream rfl fits
  have old : (segments (receiver.pending ++ [separator])).ended = [[9, 9, 9]] := by
    rw [pending]
    rfl
  rw [old] at frames alone ended
  exact ⟨pending, rfl, fits, frames, count, alone, fun pull => (ended pull).mpr count,
    (fresh once fits).1⟩

end ZeroFrame

/-
This file shows that a receiver hands out the frames of the stream, however it is used.

What ties a receiver to the stream is how many frames have been taken so far: the pending
bytes are what follows that many frames of everything received, and the frames taken are the
first ones of the stream, each with the outcome that it would have alone. Every call keeps
this, so a run of calls does, and the cuts between chunks leave no trace in what is handed
out.
-/

import ZeroFrame.Proofs.Link.Calls

namespace ZeroFrame

variable {τ φ : Type} [Table τ φ]

/-! ### What every call keeps -/

/-- A receiver from which the first frames of a stream were taken and nothing else. -/
structure Tracks (answer : Bytes → Except Fault (φ × Nat)) (stream : Bytes)
    (taken : List (Taking φ)) (receiver : Receiver τ) : Prop where
  unlimited : receiver.limit = none
  lawful : Table.Lawful receiver.table answer
  aligned : Aligned stream taken.length receiver.pending
  frames : taken.map Taking.raw <+: (segments stream).ended
  agree : ∀ taking ∈ taken, taking.Agrees answer
  recorded : receiver.log = taken.flatMap (Taking.records answer)

namespace Tracks

variable {answer : Bytes → Except Fault (φ × Nat)} {stream : Bytes} {taken : List (Taking φ)}
  {receiver : Receiver τ} {stop : Nat}

theorem start {table : τ} (lawful : Table.Lawful table answer) :
    Tracks answer [] [] (Receiver.fresh none table) :=
  ⟨rfl, lawful, .start, List.nil_prefix, nofun, rfl⟩

theorem receive (tracks : Tracks answer stream taken receiver) (chunk : Bytes) :
    Tracks answer (stream ++ chunk) taken (receiver.receive chunk) :=
  ⟨tracks.unlimited, tracks.lawful, tracks.aligned.receive chunk,
    tracks.frames.trans (ended_prefix_append stream chunk), tracks.agree, tracks.recorded⟩

theorem begun (tracks : Tracks answer stream taken receiver) :
    Tracks answer stream taken (Exchange.start receiver : Exchange τ φ).receiver := tracks

/-- Whichever way a frame is taken, it is the next one of the stream. -/
theorem take (tracks : Tracks answer stream taken receiver)
    (found : Pending.separator? receiver.pending = some stop) {taking : Taking φ}
    (raw : taking.raw = receiver.pending.take stop) (agrees : taking.Agrees answer) {table : τ}
    (lawful : Table.Lawful table answer) :
    Tracks answer stream (taken ++ [taking])
      { receiver.dropFrame stop with
        table := table
        log := receiver.log ++ taking.records answer } := by
  obtain ⟨next, aligned⟩ := tracks.aligned.take found
  refine ⟨tracks.unlimited, lawful, ?_, ?_, ?_, ?_⟩
  · rw [List.length_append, List.length_singleton]
    exact aligned
  · rw [List.map_append, List.map_singleton, raw]
    exact append_singleton_prefix tracks.frames (by rwa [List.length_map])
  · intro other member
    rcases List.mem_append.mp member with earlier | last
    · exact tracks.agree other earlier
    · exact List.mem_singleton.mp last ▸ agrees
  · rw [List.flatMap_append, ← tracks.recorded, List.flatMap_singleton]

/-! ### Taking frames -/

theorem decode_of_separator? (tracks : Tracks answer stream taken receiver)
    (found : Pending.separator? receiver.pending = some stop) :
    receiver.decode.1 = frameOf answer (receiver.pending.take stop) ∧
      Tracks answer stream
        (taken ++ [.decoded (receiver.pending.take stop)
          (frameOf answer (receiver.pending.take stop))])
        (receiver.decode (φ := φ)).2 := by
  obtain ⟨table, lawful, decoded⟩ := Receiver.decode_of_separator? tracks.lawful found
  rw [decoded]
  have raw : (Taking.decoded (receiver.pending.take stop)
      (frameOf answer (receiver.pending.take stop))).raw = receiver.pending.take stop := rfl
  exact ⟨rfl, tracks.take found raw rfl lawful⟩

theorem reportNext_of_separator? {exchange : Exchange τ φ}
    (tracks : Tracks answer stream taken exchange.receiver)
    (found : Pending.separator? exchange.receiver.pending = some stop) (listener : Listener φ)
    (depth : Nat) : ∃ report, ∃ after : Exchange τ φ,
      exchange.reportNext listener.observer (depth + 1) =
        (listener.verdict (.report report :: exchange.heard), after) ∧
      after.heard = .report report :: exchange.heard ∧
      after.receiver.pending = Pending.dropFrame exchange.receiver.pending stop ∧
      Tracks answer stream (taken ++ [.reported report]) after.receiver := by
  obtain ⟨table, lawful, reported⟩ :=
    Exchange.reportNext_of_separator? tracks.lawful found listener depth
  refine ⟨_, _, reported, rfl, rfl, ?_⟩
  have raw : (Taking.reported (Exchange.reportAt answer exchange.receiver stop)).raw =
      exchange.receiver.pending.take stop := rfl
  exact tracks.take found raw ⟨rfl, rfl⟩ lawful

/-- Reporting all frames takes the frames that are left, or those before the listener raises a
fault; it always comes to an end. -/
theorem reportFrom {exchange : Exchange τ φ} (tracks : Tracks answer stream taken exchange.receiver)
    (listener : Listener φ) (depth : Nat) {rounds : Nat}
    (enough : exchange.receiver.pending.length < rounds) (count : Nat) :
    ∃ reports : List (Report φ), ∃ ending, ∃ after : Exchange τ φ,
      exchange.reportFrom listener.observer (depth + 1) rounds count = (ending, after) ∧
      after.heard = (reports.map Event.report).reverse ++ exchange.heard ∧
      Tracks answer stream (taken ++ reports.map .reported) after.receiver ∧
      ((ending = .finished (count + reports.length) ∧
          Pending.separator? after.receiver.pending = none) ∨
        ∃ fault, ending = .failed fault ∧ listener after.heard = some fault) := by
  induction rounds generalizing exchange taken count with
  | zero => exact absurd enough (Nat.not_lt_zero _)
  | succ rounds inductionHypothesis =>
    cases found : Pending.separator? exchange.receiver.pending with
    | none =>
      refine ⟨[], .finished count, exchange, ?_, rfl, by simpa using tracks, Or.inl ⟨rfl, found⟩⟩
      rw [Exchange.reportFrom, Exchange.reportNext_of_none tracks.unlimited found]
    | some stop =>
      obtain ⟨report, next, reported, heard, dropped, nextTracks⟩ :=
        tracks.reportNext_of_separator? found listener depth
      rw [Exchange.reportFrom, reported, Listener.verdict]
      cases raised : listener (.report report :: exchange.heard) with
      | some fault =>
        exact ⟨[report], .failed fault, next, rfl, heard, nextTracks,
          Or.inr ⟨fault, rfl, heard ▸ raised⟩⟩
      | none =>
        have shorter := Pending.length_dropFrame_lt found
        rw [← dropped] at shorter
        obtain ⟨reports, ending, after, finished, allHeard, allTracks, how⟩ :=
          inductionHypothesis nextTracks (by omega) (count + 1)
        refine ⟨report :: reports, ending, after, finished, ?_, ?_, ?_⟩
        · rw [allHeard, heard]
          simp
        · rw [List.map_cons, ← List.singleton_append, ← List.append_assoc]
          exact allTracks
        · rw [List.length_cons, Nat.add_comm reports.length, ← Nat.add_assoc]
          exact how

theorem reportAll (tracks : Tracks answer stream taken receiver) (listener : Listener φ)
    (depth : Nat) {rounds : Nat} (enough : receiver.pending.length < rounds) :
    ∃ reports : List (Report φ), ∃ ending, ∃ after : Exchange τ φ,
      (Exchange.start receiver).reportAll listener.observer (depth + 1) rounds = (ending, after) ∧
      after.heard = (reports.map Event.report).reverse ∧
      Tracks answer stream (taken ++ reports.map .reported) after.receiver ∧
      ((ending = .finished reports.length ∧
          Pending.separator? after.receiver.pending = none) ∨
        ∃ fault, ending = .failed fault ∧ listener after.heard = some fault) := by
  obtain ⟨reports, ending, after, finished, heard, next, how⟩ :=
    tracks.begun.reportFrom listener depth enough 0
  rw [Nat.zero_add] at how
  exact ⟨reports, ending, after, finished, by rw [heard]; simp [Exchange.start], next, how⟩

/-! ### Runs of calls -/

/-- A call hands its bytes to the stream and takes frames off the front of what is left. -/
theorem call (tracks : Tracks answer stream taken receiver) (call : Call φ) :
    Tracks answer (stream ++ call.chunk)
      (taken ++ (call.run receiver).1.takings receiver.nextRaw) (call.run receiver).2 := by
  cases call with
  | receive chunk => simpa [Call.run, Call.chunk, Answer.takings] using tracks.receive chunk
  | decode =>
    rw [Call.chunk, List.append_nil, Call.run]
    cases found : Pending.separator? receiver.pending with
    | none =>
      rw [Receiver.decode_of_none tracks.unlimited found]
      simpa [Answer.takings, Fault.kind] using tracks
    | some stop =>
      obtain ⟨outcome, after⟩ := tracks.decode_of_separator? found
      rw [Receiver.nextRaw_of_separator? found]
      simp only [outcome, Answer.takings_decoded tracks.lawful.isDecode]
      exact after
  | reportNext listener =>
    rw [Call.chunk, List.append_nil, Call.run]
    cases found : Pending.separator? receiver.pending with
    | none =>
      rw [Exchange.reportNext_of_none tracks.begun.unlimited found]
      simpa [Answer.takings, Exchange.start] using tracks
    | some stop =>
      obtain ⟨report, after, reported, heard, _, next⟩ :=
        tracks.begun.reportNext_of_separator? found listener 0
      rw [reported]
      simpa [Answer.takings, heard, Exchange.start, Event.report?] using next
  | reportAll listener =>
    rw [Call.chunk, List.append_nil, Call.run]
    obtain ⟨reports, ending, after, finished, heard, next, _⟩ :=
      tracks.reportAll listener 0 (Nat.lt_succ_self _)
    rw [finished]
    simp only [heard, Answer.takings, List.reverse_reverse, filterMap_report?]
    exact next

/-- What a call keeps, a run of calls keeps. -/
theorem run (calls : List (Call φ)) {progress : Progress τ φ}
    (tracks : Tracks answer stream progress.taken progress.receiver) :
    Tracks answer (stream ++ supply calls) (progress.run calls).taken
      (progress.run calls).receiver := by
  induction calls generalizing stream progress with
  | nil => simpa [supply, Progress.run] using tracks
  | cons call calls inductionHypothesis =>
    rw [supply, List.flatMap_cons, ← List.append_assoc]
    exact inductionHypothesis (tracks.call call)

theorem run_start {table : τ} (lawful : Table.Lawful table answer) (calls : List (Call φ)) :
    Tracks answer (supply calls) ((Progress.start table).run calls).taken
      ((Progress.start table : Progress τ φ).run calls).receiver := by
  have begun : Tracks answer [] (Progress.start table : Progress τ φ).taken
      (Progress.start table : Progress τ φ).receiver := .start lawful
  exact begun.run calls

/-! ### What the stream says about the next frame -/

theorem getElem? (tracks : Tracks answer stream taken receiver) {place : Nat} {taking : Taking φ}
    (found : taken[place]? = some taking) :
    (segments stream).ended[place]? = some taking.raw ∧ taking.Agrees answer :=
  ⟨getElem?_of_prefix_map tracks.frames found, tracks.agree taking (List.mem_of_getElem? found)⟩

theorem decode_unexpectedEnd_iff (tracks : Tracks answer stream taken receiver) :
    (∃ fault, (receiver.decode (φ := φ)).1 = .error fault ∧ fault.kind = .unexpectedEnd) ↔
      (segments stream).ended[taken.length]? = none := by
  rw [← tracks.aligned.separator?_eq_none_iff]
  cases found : Pending.separator? receiver.pending with
  | none =>
    rw [Receiver.decode_of_none tracks.unlimited found]
    exact iff_of_true ⟨_, rfl, rfl⟩ rfl
  | some stop =>
    refine iff_of_false ?_ (Option.some_ne_none _)
    rintro ⟨fault, failed, kind⟩
    rw [(tracks.decode_of_separator? found).1] at failed
    exact (kind_of_frameOf tracks.lawful.isDecode failed).2 kind

theorem reportNext_eq_false_iff (tracks : Tracks answer stream taken receiver)
    (listener : Listener φ) (depth : Nat) :
    ((Exchange.start receiver).reportNext listener.observer (depth + 1)).1 = .ok false ↔
      (segments stream).ended[taken.length]? = none := by
  rw [← tracks.aligned.separator?_eq_none_iff]
  cases found : Pending.separator? receiver.pending with
  | none =>
    rw [Exchange.reportNext_of_none tracks.begun.unlimited found]
    exact iff_of_true rfl rfl
  | some stop =>
    refine iff_of_false ?_ (Option.some_ne_none _)
    obtain ⟨report, after, reported, _⟩ :=
      tracks.begun.reportNext_of_separator? found listener depth
    rw [reported]
    exact listener.verdict_ne_false _

/-- If no separator is pending, all frames of the stream were taken, and what is open is pending. -/
theorem exhausts (tracks : Tracks answer stream taken receiver)
    (idle : Pending.separator? receiver.pending = none) :
    taken.map Taking.raw = (segments stream).ended ∧
      receiver.pending = (segments stream).rest := by
  have aligned := tracks.aligned
  rw [← List.length_map Taking.raw] at aligned
  have all := (aligned.exhausts_iff tracks.frames).mp idle
  exact ⟨all, aligned.pending_eq_rest (congrArg List.length all)⟩

/-- Reports of all frames stop at the end of the stream, unless the listener raises a fault. -/
theorem reportAll_ends (tracks : Tracks answer stream taken receiver) (listener : Listener φ)
    (depth : Nat) {rounds : Nat} (enough : receiver.pending.length < rounds) :
    ∃ ending after, (Exchange.start receiver).reportAll listener.observer (depth + 1) rounds =
        (ending, after) ∧
      ((ending = .finished after.reports ∧
          (segments stream).ended.length = taken.length + after.reports) ∨
        ∃ fault, ending = .failed fault ∧ listener after.heard = some fault) := by
  obtain ⟨reports, ending, after, finished, heard, next, how⟩ :=
    tracks.reportAll listener depth enough
  refine ⟨ending, after, finished, how.imp ?_ id⟩
  rintro ⟨rfl, none⟩
  have number : after.reports = reports.length := by
    rw [Exchange.reports, heard, List.countP_reverse, List.countP_map]
    exact List.countP_eq_length.mpr fun _ _ => rfl
  have all := congrArg List.length (next.exhausts none).1
  rw [List.length_map, List.length_append, List.length_map] at all
  rw [number]
  exact ⟨rfl, all.symm⟩

end Tracks

/-- After any calls, with the stream cut into any chunks, the pending bytes are what follows the
frames taken so far, and these are the first frames of the stream, each with the outcome that
its own bytes have; nothing but their faults is recorded. There is a next frame exactly if the
stream has one more, and reporting all frames stops only when there is none or the listener
raises a fault. -/
theorem takings_refine_segments {answer : Bytes → Except Fault (φ × Nat)} {table : τ}
    (lawful : Table.Lawful table answer) (calls : List (Call φ)) :
    let progress : Progress τ φ := (Progress.start table).run calls
    let frames := (segments (supply calls)).ended
    let count := progress.taken.length
    progress.receiver.pending = Bytes.dropZeros (afterFrames (supply calls) count) ∧
      (∀ (place : Nat) (taking : Taking φ), progress.taken[place]? = some taking →
        frames[place]? = some taking.raw ∧ taking.Agrees answer) ∧
      progress.receiver.log = progress.taken.flatMap (Taking.records answer) ∧
      ((∃ fault, (progress.receiver.decode (φ := φ)).1 = .error fault ∧
        fault.kind = .unexpectedEnd) ↔ frames[count]? = none) ∧
      (∀ (listener : Listener φ) depth,
        ((Exchange.start progress.receiver).reportNext listener.observer (depth + 1)).1 =
          .ok false ↔ frames[count]? = none) ∧
      ∀ (listener : Listener φ) depth rounds, progress.receiver.pending.length < rounds →
        ∃ ending after, (Exchange.start progress.receiver).reportAll listener.observer (depth + 1)
            rounds = (ending, after) ∧
          ((ending = .finished after.reports ∧ frames.length = count + after.reports) ∨
            ∃ fault, ending = .failed fault ∧ listener after.heard = some fault) := by
  have tracks := Tracks.run_start lawful calls
  exact ⟨tracks.aligned.pending_eq, fun _ _ found => tracks.getElem? found, tracks.recorded,
    tracks.decode_unexpectedEnd_iff, tracks.reportNext_eq_false_iff,
    fun listener depth _ enough => tracks.reportAll_ends listener depth enough⟩

theorem takings_refine_segments_split_separators :
    let calls : List (Call Bytes) := [.receive [0, 0x7f], .decode, .receive [0, 0, 0x11], .decode,
      .decode, .receive [0x7e, 0, 5], .reportAll (.silent Bytes)]
    let progress : Progress Verbatim Bytes := (Progress.start ⟨true⟩).run calls
    segments (supply calls) = ⟨[[0x7f], [0x11, 0x7e]], [5]⟩ ∧ progress.taken.length = 2 ∧
      progress.receiver.pending = Bytes.dropZeros (afterFrames (supply calls) 2) ∧
      (∀ (place : Nat) (taking : Taking Bytes), progress.taken[place]? = some taking →
        [[0x7f], [0x11, 0x7e]][place]? = some taking.raw) ∧
      ∃ fault, progress.receiver.decode.1 = .error fault ∧ fault.kind = .unexpectedEnd := by
  intro calls progress
  have count : progress.taken.length = 2 := by cbv
  obtain ⟨pending, frames, _, lacking, _⟩ :=
    takings_refine_segments (Verbatim.lawful ⟨true⟩) calls
  have last : (segments (supply calls)).ended[progress.taken.length]? = none := by
    rw [count]
    rfl
  exact ⟨rfl, count, count ▸ pending, fun place taking found => (frames place taking found).1,
    lacking.mpr last⟩

end ZeroFrame

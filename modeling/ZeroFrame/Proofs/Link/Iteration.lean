/-
This file shows that iterators share one stream.

An iterator keeps nothing but whether it is live. While it is, it takes frames from the receiver
as decoding does, so it does not matter which of several iterators is asked, or whether
one is; once it has ended or met a fault, it leaves the receiver alone, whatever has arrived
since. What an iterator gave so far tells which of the two it does. A fault of the table that
would be taken for the end of the iterator comes as the cause of another. So frames are neither
lost nor taken twice: without a limit, those that were extracted, in the order of time, are the
first segments of everything received.
-/

import ZeroFrame.Proofs.Link.Calls
import ZeroFrame.Proofs.Link.Queue
import ZeroFrame.Table.Rehearsed
import ZeroFrame.Table.Verbatim

namespace ZeroFrame

variable {τ φ : Type}

/-! ### Moves -/

/-- Something that is done with a receiver or with an iterator on it. -/
inductive Move where
  | receive (chunk : Bytes)
  | decode
  | openIterator
  /-- Takes a frame from an iterator, counted from the newest. -/
  | next (iterator : Nat)

def Move.request : Move → Request
  | receive chunk => .receive chunk
  | decode => .decode
  | openIterator => .openIterator
  | next iterator => .next iterator

def Move.chunk : Move → Bytes
  | receive chunk => chunk
  | decode => []
  | openIterator => []
  | next _ => []

/-- The frame that was extracted, if one was, given its bytes. -/
def Receiver.Item.extracted (raw : Bytes) : Item φ → List Bytes
  | .frame _ => [raw]
  | .finished => []
  | .fault _ => [raw]

/-- The frame that was extracted for an answer, if one was, given its bytes. -/
def Answer.extracted (raw : Bytes) : Answer φ → List Bytes
  | .decoded outcome => (Receiver.Item.ofOutcome outcome).extracted raw
  | .item given => given.extracted raw
  | _ => []

/-- A receiver with its iterators and all that came of them. -/
structure Reading (τ φ : Type) where
  receiver : Receiver τ
  /-- Which iterators are live, the newest first. -/
  iterators : List Bool
  /-- What each iterator gave, the newest iterator first. -/
  given : List (List (Receiver.Item φ))
  /-- The bytes of all frames that were extracted, in the order of time. -/
  extracted : List Bytes

namespace Reading

def start (limit : Option Nat) (table : τ) : Reading τ φ := ⟨.fresh limit table, [], [], []⟩

/-- Keeps what a move has led to: an iterator that gave nothing yet, or one thing more that an
iterator gave. -/
def give (given : List (List (Receiver.Item φ))) : Move → Answer φ → List (List (Receiver.Item φ))
  | .openIterator, _ => [] :: given
  | .next iterator, .item item => given.modify iterator (· ++ [item])
  | _, _ => given

variable [Table τ φ]

def step (reading : Reading τ φ) (move : Move) : Reading τ φ :=
  let endpoint : Endpoint :=
    ⟨reading.receiver.limit, reading.receiver.pending, reading.iterators⟩
  let (answer, iterators, receiver) := endpoint.serve reading.receiver move.request
  ⟨receiver, iterators, give reading.given move answer,
    reading.extracted ++ answer.extracted reading.receiver.nextRaw⟩

def run (reading : Reading τ φ) (moves : List Move) : Reading τ φ := moves.foldl step reading

/-- An iterator is live if everything that it gave so far is a frame. -/
def Marked (reading : Reading τ φ) : Prop :=
  reading.iterators = reading.given.map fun items => items.all Receiver.Item.isFrame

/-! ### Single moves -/

variable {reading : Reading τ φ} {place : Nat} {items : List (Receiver.Item φ)}

theorem step_receive (reading : Reading τ φ) (chunk : Bytes) :
    reading.step (.receive chunk) = { reading with receiver := reading.receiver.receive chunk } :=
  congrArg (Reading.mk _ _ _) (List.append_nil _)

theorem step_decode (reading : Reading τ φ) :
    reading.step .decode =
      { reading with
        receiver := (reading.receiver.decode (φ := φ)).2
        extracted := reading.extracted ++
          (Receiver.Item.ofOutcome (reading.receiver.decode (φ := φ)).1).extracted
            reading.receiver.nextRaw } := rfl

theorem step_decode_of_cut?_eq_none (none : reading.receiver.cut? = .none) :
    reading.step .decode = reading := by
  rw [step_decode, Receiver.decode_of_cut?_eq_none none]
  exact congrArg (Reading.mk _ _ _) (List.append_nil _)

theorem step_openIterator (reading : Reading τ φ) :
    reading.step .openIterator =
      { reading with iterators := true :: reading.iterators, given := [] :: reading.given } :=
  congrArg (Reading.mk _ _ _) (List.append_nil _)

omit [Table τ φ] in
theorem getD_iterators (marked : reading.Marked) (found : reading.given[place]? = some items) :
    reading.iterators.getD place false = items.all Receiver.Item.isFrame := by
  rw [List.getD_eq_getElem?_getD, marked, List.getElem?_map, found]
  rfl

/-- A live iterator does what decoding does, and gives what came of it. -/
theorem step_next_live (marked : reading.Marked) (found : reading.given[place]? = some items)
    (live : items.all Receiver.Item.isFrame = true) :
    reading.step (.next place) =
      { reading.step .decode with
        iterators := reading.iterators.set place
          (Receiver.Item.ofOutcome (reading.receiver.decode (φ := φ)).1).isFrame
        given := reading.given.modify place
          (· ++ [.ofOutcome (reading.receiver.decode (φ := φ)).1]) } := by
  have flag := (getD_iterators marked found).trans live
  simp only [step, Move.request, Endpoint.serve, flag, Receiver.next_true]
  rfl

/-- An iterator that ended gives its end once more. -/
theorem step_next_of_ended (ended : reading.iterators.getD place false = false) :
    reading.step (.next place) =
      { reading with
        iterators := reading.iterators.set place false
        given := reading.given.modify place (· ++ [.finished]) } := by
  simp only [step, Move.request, Endpoint.serve, ended]
  exact congrArg (Reading.mk _ _ _) (List.append_nil _)

omit [Table τ φ] in
theorem modify_given (found : reading.given[place]? = some items) (item : Receiver.Item φ) :
    reading.given.modify place (· ++ [item]) = reading.given.set place (items ++ [item]) := by
  rw [List.modify_eq_set_getElem?, found]
  rfl

omit [Table τ φ] in
/-- Nothing is marked live where there is no iterator. -/
theorem Marked.of_getElem?_eq_none (marked : reading.Marked)
    (absent : reading.given[place]? = none) : reading.iterators[place]? = none := by
  rw [marked, List.getElem?_map, absent]
  rfl

/-! ### What every move keeps -/

/-- What an iterator gives last decides whether it goes on. -/
theorem all_isFrame_concat (items : List (Receiver.Item φ)) (item : Receiver.Item φ) :
    (items ++ [item]).all Receiver.Item.isFrame =
      (items.all Receiver.Item.isFrame && item.isFrame) := by
  rw [List.all_append, List.all_cons, List.all_nil, Bool.and_true]

theorem Marked.step (marked : reading.Marked) (move : Move) : (reading.step move).Marked := by
  cases move with
  | receive chunk => rwa [step_receive]
  | decode => rwa [step_decode]
  | openIterator =>
    rw [step_openIterator]
    exact congrArg (List.cons true) marked
  | next place =>
    cases found : reading.given[place]? with
    | none =>
      have absent := marked.of_getElem?_eq_none found
      rw [step_next_of_ended (by rw [List.getD_eq_getElem?_getD, absent]; rfl), Marked]
      rw [List.set_eq_of_length_le (List.getElem?_eq_none_iff.mp absent),
        List.modify_eq_self (List.getElem?_eq_none_iff.mp found)]
      exact marked
    | some items =>
      cases live : items.all Receiver.Item.isFrame with
      | true =>
        rw [step_next_live marked found live, Marked, modify_given found, List.map_set,
          all_isFrame_concat, live, Bool.true_and, ← marked]
      | false =>
        rw [step_next_of_ended ((getD_iterators marked found).trans live), Marked,
          modify_given found, List.map_set, all_isFrame_concat, live, Bool.false_and, ← marked]

/-- A live iterator makes the move that decoding is, and any other makes none. -/
theorem step_next_cases (marked : reading.Marked) (place : Nat) :
    ((reading.step (.next place)).receiver = (reading.step .decode).receiver ∧
        (reading.step (.next place)).extracted = (reading.step .decode).extracted) ∨
      (reading.step (.next place)).receiver = reading.receiver ∧
        (reading.step (.next place)).extracted = reading.extracted := by
  cases flag : reading.iterators.getD place false with
  | false =>
    rw [step_next_of_ended flag]
    exact Or.inr ⟨rfl, rfl⟩
  | true =>
    cases found : reading.given[place]? with
    | none =>
      rw [List.getD_eq_getElem?_getD, marked.of_getElem?_eq_none found] at flag
      cases flag
    | some items =>
      rw [step_next_live marked found ((getD_iterators marked found).symm.trans flag)]
      exact Or.inl ⟨rfl, rfl⟩

/-- The extracted frames are the first ones of a stream, and what follows them is pending. -/
structure Follows (stream : Bytes) (reading : Reading τ φ) : Prop where
  unlimited : reading.receiver.limit = none
  aligned : Aligned stream reading.extracted.length reading.receiver.pending
  frames : reading.extracted <+: (segments stream).ended

/-- Whatever the table makes of it, a frame that is cut off was extracted. -/
theorem ofOutcome_judge_extracted (receiver : Receiver τ) (cut : Cut) (raw : Bytes) :
    (Receiver.Item.ofOutcome (receiver.judge (φ := φ) cut).1).extracted raw = [raw] := by
  cases judged : (receiver.judge (φ := φ) cut).1 with
  | ok frame => rfl
  | error fault =>
    obtain ⟨given, same⟩ :=
      Receiver.Item.exists_ofOutcome_error (φ := φ) (Receiver.kind_judge_ne judged)
    rw [same]
    rfl

namespace Follows

variable {stream : Bytes}

omit [Table τ φ] in
/-- The iterators do not count. -/
theorem congr {next : Reading τ φ} (follows : Follows stream reading)
    (receiver : next.receiver = reading.receiver)
    (extracted : next.extracted = reading.extracted) : Follows stream next := by
  refine ⟨?_, ?_, ?_⟩
  · exact (congrArg Receiver.limit receiver).trans follows.unlimited
  · rw [receiver, extracted]
    exact follows.aligned
  · rw [extracted]
    exact follows.frames

theorem decode (follows : Follows stream reading) : Follows stream (reading.step .decode) := by
  cases found : reading.receiver.cut? with
  | none => rwa [step_decode_of_cut?_eq_none found]
  | some cut =>
    rcases Receiver.cases_of_cut? found with ⟨stop, rfl, separated⟩ | ⟨bound, _, _, limited, _⟩
    · obtain ⟨next, aligned⟩ := follows.aligned.take separated
      rw [step_decode, Receiver.decode_of_cut? found, ofOutcome_judge_extracted,
        Receiver.nextRaw_of_separator? separated]
      refine ⟨follows.unlimited, ?_, append_singleton_prefix follows.frames next⟩
      rw [List.length_append, List.length_singleton]
      exact aligned
    · rw [follows.unlimited] at limited
      cases limited

theorem step (follows : Follows stream reading) (marked : reading.Marked) (move : Move) :
    Follows (stream ++ move.chunk) (reading.step move) := by
  cases move with
  | receive chunk =>
    rw [step_receive]
    exact ⟨follows.unlimited, follows.aligned.receive chunk,
      follows.frames.trans (ended_prefix_append stream chunk)⟩
  | decode =>
    rw [Move.chunk, List.append_nil]
    exact follows.decode
  | openIterator =>
    rw [Move.chunk, List.append_nil, step_openIterator]
    exact follows.congr rfl rfl
  | next place =>
    rw [Move.chunk, List.append_nil]
    rcases step_next_cases marked place with ⟨receiver, extracted⟩ | ⟨receiver, extracted⟩
    · exact follows.decode.congr receiver extracted
    · exact follows.congr receiver extracted

theorem run (follows : Follows stream reading) (marked : reading.Marked) (moves : List Move) :
    Follows (stream ++ moves.flatMap Move.chunk) (reading.run moves) := by
  induction moves generalizing stream reading with
  | nil => simpa [Reading.run] using follows
  | cons move moves inductionHypothesis =>
    rw [List.flatMap_cons, ← List.append_assoc]
    exact inductionHypothesis (follows.step marked move) (marked.step move)

end Follows

/-! ### Iterators at any moment -/

end Reading

end ZeroFrame

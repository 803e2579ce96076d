/-
This file follows payloads over a link: written as codewords, sent with separators between
them, received in chunks, cut into frames again, read and handed to a table.

The codewords are the frames of the stream, because writing uses no separator and gives every
payload at least one byte. So what tracks a receiver through its stream already says which
frames it takes and how many; only what becomes of a frame is left. Reading it gives the
payload with some zeros at its end. A table that removes such zeros takes them away, together
with those that the payload had itself, and a registry that had enough without them does not
look at them.
-/

import ZeroFrame.Proofs.Codeword.Writing
import ZeroFrame.Proofs.Link.Tracking

namespace ZeroFrame

/-! ### What is sent -/

/-- A payload that is sent, and how many separators follow the one that ends its frame. -/
structure Dispatch where
  payload : Bytes
  nonempty : payload ≠ []
  gap : Nat

namespace Dispatch

def codeword (dispatch : Dispatch) : Bytes := Codeword.encode dispatch.payload

def bytes (dispatch : Dispatch) : Bytes :=
  dispatch.codeword ++ separator :: List.replicate dispatch.gap separator

theorem separator_notMem_codeword (dispatch : Dispatch) : separator ∉ dispatch.codeword :=
  Codeword.separator_notMem_encode dispatch.payload

theorem codeword_ne_nil (dispatch : Dispatch) : dispatch.codeword ≠ [] := fun empty =>
  dispatch.nonempty ((Codeword.encode_eq_nil_iff dispatch.payload).mp empty)

end Dispatch

/-- Payloads on the wire, after some leading separators. -/
def transmission (lead : Nat) (dispatches : List Dispatch) : Bytes :=
  List.replicate lead separator ++ dispatches.flatMap Dispatch.bytes

/-- The frames of a transmission are its codewords, and no byte is left over. -/
theorem segments_transmission (lead : Nat) (dispatches : List Dispatch) :
    segments (transmission lead dispatches) = ⟨dispatches.map Dispatch.codeword, []⟩ := by
  rw [transmission, segments_separators_append]
  induction dispatches with
  | nil => rfl
  | cons dispatch dispatches inductionHypothesis =>
    rw [List.flatMap_cons, Dispatch.bytes, List.append_assoc, List.cons_append,
      segments_frame dispatch.separator_notMem_codeword dispatch.codeword_ne_nil,
      segments_separators_append, inductionHypothesis, List.map_cons]

/-! ### What becomes of a codeword -/

/-- A table that strips payloads removes what closing the last group has added. -/
theorem frameOf_encode_strip (payload : Bytes) :
    frameOf (fun payload => .ok (Verbatim.frame ⟨true⟩ payload,
        (Verbatim.frame ⟨true⟩ payload).length)) (Codeword.encode payload) =
      .ok payload.stripZeros := by
  rw [frameOf_of_decode (Codeword.decode_encode payload), Table.delimit, Verbatim.frame, if_pos rfl,
    Bytes.stripZeros_append_separators]

/-- A registry does not look past the bytes that it needs. -/
theorem frameOf_encode_registry {registry : Registry} {payload : Bytes}
    (satisfied : ∀ fault, registry.decode payload = .error fault → fault.kind ≠ .unexpectedEnd) :
    frameOf registry.decode (Codeword.encode payload) =
      (registry.decode payload).map Prod.fst := by
  rw [frameOf_of_decode (Codeword.decode_encode payload), Registry.decode_append satisfied]
  cases outcome : registry.decode payload with
  | ok frame => rfl
  | error fault => exact if_neg (satisfied fault outcome)

/-! ### How many frames a call takes -/

namespace Tracks

variable {τ φ : Type} [Table τ φ] {answer : Bytes → Except Fault (φ × Nat)} {stream : Bytes}
  {progress : Progress τ φ}

/-- There is a next frame as long as not all have been taken. -/
theorem min_succ (tracks : Tracks answer stream progress.taken progress.receiver) :
    min (progress.taken.length + 1) (segments stream).ended.length =
      if Pending.separator? progress.receiver.pending = none then progress.taken.length
      else progress.taken.length + 1 := by
  have most := tracks.aligned.complete
  have last := tracks.aligned.separator?_eq_none_iff
  rw [List.getElem?_eq_none_iff] at last
  split
  case isTrue none =>
    have all := last.mp none
    omega
  case isFalse some =>
    have more := Nat.lt_of_not_le (some ∘ last.mpr)
    omega

theorem length_step_decode (tracks : Tracks answer stream progress.taken progress.receiver) :
    (progress.step .decode).taken.length =
      min (progress.taken.length + 1) (segments stream).ended.length := by
  rw [tracks.min_succ, Progress.step, Call.run]
  cases found : Pending.separator? progress.receiver.pending with
  | none =>
    rw [Receiver.decode_of_none tracks.unlimited found]
    simp [Answer.takings, Fault.kind]
  | some stop =>
    simp only [Receiver.nextRaw_of_separator? found, (tracks.decode_of_separator? found).1,
      Answer.takings_decoded tracks.lawful.isDecode]
    simp

theorem length_step_reportNext (tracks : Tracks answer stream progress.taken progress.receiver)
    (listener : Listener φ) :
    (progress.step (.reportNext listener)).taken.length =
      min (progress.taken.length + 1) (segments stream).ended.length := by
  rw [tracks.min_succ, Progress.step, Call.run]
  cases found : Pending.separator? progress.receiver.pending with
  | none =>
    rw [Exchange.reportNext_of_none tracks.begun.unlimited found]
    simp [Answer.takings, Exchange.start]
  | some stop =>
    obtain ⟨report, after, reported, heard, _⟩ :=
      tracks.begun.reportNext_of_separator? found listener 0
    rw [reported]
    simp [Answer.takings, heard, Exchange.start, Event.report?]

/-- Reports to a listener that raises no fault go on to the last frame. -/
theorem length_step_reportAll (tracks : Tracks answer stream progress.taken progress.receiver) :
    (progress.step (.reportAll (.silent φ))).taken.length = (segments stream).ended.length := by
  obtain ⟨reports, ending, after, finished, heard, next, ⟨_, none⟩ | ⟨_, _, raised⟩⟩ :=
    tracks.reportAll (.silent φ) 0 (Nat.lt_succ_self _)
  · rw [← (next.exhausts none).1, List.length_map, Progress.step, Call.run, finished]
    simp only [heard, Answer.takings, List.reverse_reverse, filterMap_report?]
  · cases raised

end Tracks

/-! ### Delivery -/

/-- What a transmission of some payloads comes to when all of it has been handed over: the frames
are the codewords, in order and each once, and show outcomes that are expected of their
payloads. A call takes a frame exactly as long as there is one left. -/
structure Delivery {τ φ : Type} [Table τ φ] (payloads : List Bytes)
    (expects : Bytes → Except Fault φ → Prop) (progress : Progress τ φ) : Prop where
  codewords : progress.taken.map Taking.raw <+: payloads.map Codeword.encode
  outcomes : ∀ (place : Nat) (payload : Bytes) (taking : Taking φ),
    payloads[place]? = some payload → progress.taken[place]? = some taking →
    ∃ outcome, taking.Shows outcome ∧ expects payload outcome
  decode : (progress.step .decode).taken.length =
    min (progress.taken.length + 1) payloads.length
  reportNext : ∀ listener, (progress.step (.reportNext listener)).taken.length =
    min (progress.taken.length + 1) payloads.length
  reportAll : (progress.step (.reportAll (.silent φ))).taken.length = payloads.length
  pending : progress.taken.length = payloads.length → progress.receiver.pending = []

theorem Tracks.delivery {τ φ : Type} [Table τ φ] {answer : Bytes → Except Fault (φ × Nat)}
    {lead : Nat} {dispatches : List Dispatch} {progress : Progress τ φ}
    {expects : Bytes → Except Fault φ → Prop}
    (tracks : Tracks answer (transmission lead dispatches) progress.taken progress.receiver)
    (expected : ∀ payload, expects payload (frameOf answer (Codeword.encode payload))) :
    Delivery (dispatches.map Dispatch.payload) expects progress := by
  have ended : (segments (transmission lead dispatches)).ended =
      (dispatches.map Dispatch.payload).map Codeword.encode := by
    rw [segments_transmission, List.map_map]
    rfl
  have number := congrArg List.length ended
  rw [List.length_map] at number
  constructor
  case codewords => exact ended ▸ tracks.frames
  case outcomes =>
    intro place payload taking sent taken
    obtain ⟨frame, agrees⟩ := tracks.getElem? taken
    rw [ended, List.getElem?_map, sent] at frame
    have raw := Option.some.inj frame
    exact ⟨frameOf answer taking.raw, agrees.shows, raw ▸ expected payload⟩
  case decode => exact number ▸ tracks.length_step_decode
  case reportNext => exact number ▸ tracks.length_step_reportNext
  case reportAll => exact number ▸ tracks.length_step_reportAll
  case pending =>
    intro all
    rw [tracks.aligned.pending_eq_rest (all.trans number.symm), segments_transmission]

/-- A transmission arrives whole, however it is cut into chunks and whenever frames are taken: each
payload gives one frame, in order, and nothing is left over. A table that strips payloads
delivers them without their trailing zeros; a registry treats them as it would have treated
the ones that were sent, unless it asks for more bytes than these. -/
theorem transmission_delivered (lead : Nat) (dispatches : List Dispatch) :
    (∀ {τ φ : Type} [Table τ φ] {table : τ} {answer : Bytes → Except Fault (φ × Nat)},
      Table.Lawful table answer → ∀ calls : List (Call φ),
        supply calls = transmission lead dispatches →
        Delivery (dispatches.map Dispatch.payload)
          (fun payload outcome => outcome = frameOf answer (Codeword.encode payload))
          ((Progress.start table).run calls)) ∧
      (∀ calls : List (Call Bytes), supply calls = transmission lead dispatches →
        Delivery (dispatches.map Dispatch.payload)
          (fun payload outcome => outcome = .ok payload.stripZeros ∧
            (payload.getLast? ≠ some separator → outcome = .ok payload))
          ((Progress.start (⟨true⟩ : Verbatim)).run calls)) ∧
      ∀ (registry : Registry) (calls : List (Call Message)),
        supply calls = transmission lead dispatches →
        Delivery (dispatches.map Dispatch.payload)
          (fun payload outcome =>
            (∀ fault, registry.decode payload = .error fault → fault.kind ≠ .unexpectedEnd) →
              outcome = (registry.decode payload).map Prod.fst)
          ((Progress.start registry).run calls) := by
  refine ⟨?_, ?_, ?_⟩
  · intro τ φ _ table answer lawful calls whole
    have tracks := Tracks.run_start lawful calls
    exact (whole ▸ tracks).delivery fun _ => rfl
  · intro calls whole
    have tracks := Tracks.run_start (Verbatim.lawful ⟨true⟩) calls
    rw [whole] at tracks
    refine tracks.delivery fun payload => ⟨frameOf_encode_strip payload, fun literal => ?_⟩
    rw [frameOf_encode_strip, Bytes.stripZeros_of_getLast?_ne literal]
  · intro registry calls whole
    have tracks := Tracks.run_start registry.lawful calls
    rw [whole] at tracks
    exact tracks.delivery fun payload => frameOf_encode_registry

theorem transmission_delivered_ping_and_unknown :
    let dispatches : List Dispatch := [⟨[5, 0], nofun, 1⟩, ⟨[9, 0], nofun, 0⟩]
    let calls : List (Call Message) := [.receive [0, 5], .decode, .receive [0x7e, 0, 0, 9], .decode,
      .receive [0x7e, 0], .reportAll (.silent Message)]
    let registry : Registry := ⟨[⟨5, ⟨"Ping", some 5, "", []⟩, ⟨⟨.little, false⟩, []⟩⟩]⟩
    let progress := (Progress.start registry).run calls
    supply calls = transmission 1 dispatches ∧
      (progress.step (.reportAll (.silent Message))).taken.length = 2 ∧
      (∀ taking, progress.taken[0]? = some taking → taking.Shows (.ok ⟨"Ping", []⟩)) ∧
      ∀ taking, progress.taken[1]? = some taking → taking.Shows (.error (.unknownIndex 9)) := by
  intro dispatches calls registry progress
  have whole : supply calls = transmission 1 dispatches := by decide
  have known : registry.decode [5, 0] = .ok (⟨"Ping", []⟩, 2) := rfl
  have unknown : registry.decode [9, 0] = .error (.unknownIndex 9) := rfl
  have delivery := (transmission_delivered 1 dispatches).2.2 registry calls whole
  refine ⟨whole, delivery.reportAll, fun taking taken => ?_, fun taking taken => ?_⟩
  · obtain ⟨outcome, shows, expected⟩ := delivery.outcomes 0 [5, 0] taking rfl taken
    rw [known] at expected
    obtain rfl := expected nofun
    exact shows
  · obtain ⟨outcome, shows, expected⟩ := delivery.outcomes 1 [9, 0] taking rfl taken
    rw [unknown] at expected
    obtain rfl := expected fun | _, rfl => nofun
    exact shows

end ZeroFrame

/-
This file says which frames a receiver holds at a moment, and what is left when some are gone.

The pending bytes are a stream of their own. Its ended segments are frames, and the bytes after
the last separator are one more frame if they pass the limit. A cut takes the first of these
frames, so a receiver from which some were cut holds the others. Neither the table nor the
records have a say in this.
-/

import ZeroFrame.Proofs.Link.Trimming

namespace ZeroFrame

open Bytes

/-! ### What is left of pending bytes -/

/-- The pending bytes without their first `count` frames and the zeros that follow these. -/
def Pending.remaining (pending : Bytes) (count : Nat) : Bytes :=
  dropZeros (afterFrames pending count)

namespace Pending

/-- Frames are passed from the front on, and it makes no difference where the passing begins. -/
theorem afterFrames_succ (stream : Bytes) (count : Nat) :
    afterFrames stream (count + 1) = afterFrames (afterFrames stream 1) count := by
  induction count with
  | zero => rfl
  | succ count inductionHypothesis =>
    rw [afterFrames, inductionHypothesis]
    rfl

theorem remaining_dropZeros (stream : Bytes) (count : Nat) :
    remaining (dropZeros stream) count = remaining stream count := by
  unfold remaining
  cases count with
  | zero => exact dropZeros_dropZeros stream
  | succ count =>
    have first : afterFrames (dropZeros stream) 1 = afterFrames stream 1 := by
      rw [afterFrames, afterFrames, afterFrames, afterFrames, dropZeros_dropZeros]
    rw [afterFrames_succ, afterFrames_succ stream, first]

/-- Frames that are passed one after the other are passed together. -/
theorem remaining_succ (stream : Bytes) (count : Nat) :
    remaining stream (count + 1) = remaining (remaining stream 1) count := by
  unfold remaining
  rw [afterFrames_succ]
  exact (remaining_dropZeros _ count).symm

theorem remaining_add (stream : Bytes) (first second : Nat) :
    remaining stream (first + second) = remaining (remaining stream first) second := by
  induction first generalizing stream with
  | zero =>
    rw [Nat.zero_add]
    exact (remaining_dropZeros stream second).symm
  | succ first inductionHypothesis =>
    rw [Nat.succ_add, remaining_succ, inductionHypothesis, remaining_succ stream first]

theorem remaining_one_of_split {raw rest : Bytes} (trimmed : raw ≠ [])
    (zeroFree : separator ∉ raw) : remaining (raw ++ separator :: rest) 1 = dropZeros rest := by
  have front : dropZeros (raw ++ separator :: rest) = raw ++ separator :: rest := by
    refine dropZeros_of_head_ne fun first => zeroFree ?_
    rw [List.head?_append_of_ne_nil _ trimmed] at first
    exact List.mem_of_mem_head? first
  unfold remaining
  rw [afterFrames, afterFrames, front, dropWhile_frame zeroFree, dropZeros_separator]

/-- Without a separator, passing a frame passes everything. -/
theorem remaining_one_of_notMem {pending : Bytes} (zeroFree : separator ∉ pending) :
    remaining pending 1 = [] := by
  have nothing : (dropZeros pending).dropWhile (· != separator) = [] := by
    rw [List.dropWhile_eq_nil_iff]
    intro byte member
    have inside := (List.dropWhile_suffix _).mem member
    exact bne_iff_ne.mpr fun zero => zeroFree (zero ▸ inside)
  unfold remaining
  rw [afterFrames, afterFrames, nothing, dropZeros_nil]

end Pending

/-! ### Frames under a limit -/

theorem segments_of_notMem {stream : Bytes} (zeroFree : separator ∉ stream) :
    segments stream = ⟨[], stream⟩ := segmentsAfter_of_notMem zeroFree []

/-- The bytes after the last separator are given up as a frame if they pass the limit. -/
def excess (limit : Option Nat) (rest : Bytes) : List Bytes :=
  match limit with
  | none => []
  | some bound => if bound < rest.length then [rest] else []

theorem excess_cases (limit : Option Nat) (rest : Bytes) :
    (∃ bound, limit = some bound ∧ bound < rest.length ∧ excess limit rest = [rest]) ∨
      (∀ bound, limit = some bound → rest.length ≤ bound) ∧ excess limit rest = [] := by
  cases limit with
  | none => exact Or.inr ⟨nofun, rfl⟩
  | some bound =>
    rcases Nat.lt_or_ge bound rest.length with beyond | within
    · exact Or.inl ⟨bound, rfl, beyond, if_pos beyond⟩
    · refine Or.inr ⟨fun other same => ?_, if_neg (Nat.not_lt.mpr within)⟩
      obtain rfl := Option.some.inj same
      exact within

namespace Receiver

variable {τ : Type} {receiver next last : Receiver τ} {cut : Cut} {place : Nat}

/-- The frames that are pending, encoded, in the order in which they will be cut off. -/
def frames (receiver : Receiver τ) : List Bytes :=
  (segments receiver.pending).ended ++ excess receiver.limit (segments receiver.pending).rest

/-- The place where the next frame ends: its separator, or the end of all pending bytes if they
pass the limit without one. -/
inductive EndsAt (receiver : Receiver τ) : Nat → Prop where
  | separator {raw rest : Bytes} (split : receiver.pending = raw ++ separator :: rest)
    (zeroFree : separator ∉ raw) : EndsAt receiver raw.length
  | overflow {bound : Nat} (zeroFree : separator ∉ receiver.pending)
    (limited : receiver.limit = some bound) (beyond : bound < receiver.pending.length) :
    EndsAt receiver receiver.pending.length

/-- The receiver cuts where the next frame ends, and nowhere else. -/
theorem endsAt_iff :
    EndsAt receiver place ↔ ∃ cut, receiver.cut? = some cut ∧ cut.stop = place := by
  constructor
  · intro ends
    cases ends with
    | separator split zeroFree =>
      refine ⟨_, cut?_of_separator? ?_, rfl⟩
      rw [split, Pending.separator?_append zeroFree]
    | @overflow bound zeroFree limited beyond =>
      refine ⟨.overflow receiver.pending.length bound, ?_, rfl⟩
      rw [cut?, (Pending.separator?_eq_none_iff _).mpr zeroFree, limited]
      exact if_pos beyond
  · rintro ⟨cut, found, rfl⟩
    rcases cases_of_cut? found with ⟨stop, rfl, separated⟩ | ⟨bound, rfl, zeroFree, limited, beyond⟩
    · obtain ⟨rest, split, zeroFree, _⟩ := Pending.exists_of_separator? separated
      have length : (receiver.pending.take stop).length = stop :=
        List.length_take_of_le (Pending.le_of_separator? separated)
      exact length ▸ EndsAt.separator split zeroFree
    · exact .overflow zeroFree limited beyond

theorem cut?_eq_none_iff : receiver.cut? = none ↔ ∀ place, ¬EndsAt receiver place := by
  constructor
  · intro lack place ends
    obtain ⟨cut, found, _⟩ := endsAt_iff.mp ends
    rw [lack] at found
    cases found
  · intro nowhere
    cases found : receiver.cut? with
    | none => rfl
    | some cut => exact absurd (endsAt_iff.mpr ⟨cut, found, rfl⟩) (nowhere cut.stop)

theorem frames_of_cut?_eq_none (lack : receiver.cut? = none) : receiver.frames = [] := by
  obtain ⟨zeroFree, within⟩ := of_cut?_eq_none lack
  rw [frames, segments_of_notMem zeroFree, List.nil_append]
  rcases excess_cases receiver.limit receiver.pending with
    ⟨bound, limited, beyond, _⟩ | ⟨_, nothing⟩
  · exact absurd (within bound limited) (Nat.not_le_of_lt beyond)
  · exact nothing

/-! ### A receiver that some frames have left -/

/-- The first `count` frames of a receiver are gone, and nothing else is. -/
structure Leaves (receiver : Receiver τ) (count : Nat) (last : Receiver τ) : Prop where
  limit : last.limit = receiver.limit
  pending : last.pending = Pending.remaining receiver.pending count
  frames : last.frames = receiver.frames.drop count
  complete : count ≤ receiver.frames.length

namespace Leaves

theorem trimmed {count : Nat} (leaves : Leaves receiver count last) : last.Trimmed := by
  rw [Trimmed, leaves.pending]
  exact head?_dropZeros _

theorem refl (trimmed : receiver.Trimmed) (limit : last.limit = receiver.limit)
    (pending : last.pending = receiver.pending) : Leaves receiver 0 last := by
  refine ⟨limit, ?_, ?_, Nat.zero_le _⟩
  · rw [pending]
    exact (dropZeros_of_head_ne trimmed).symm
  · rw [Receiver.frames, limit, pending]
    rfl

theorem trans {first second : Nat} (before : Leaves receiver first next)
    (after : Leaves next second last) : Leaves receiver (first + second) last := by
  refine ⟨after.limit.trans before.limit, ?_, ?_, ?_⟩
  · rw [after.pending, before.pending, Pending.remaining_add]
  · rw [after.frames, before.frames, List.drop_drop]
  · have most := after.complete
    rw [before.frames, List.length_drop] at most
    have earlier := before.complete
    omega

/-- Only the limit and the pending bytes count. -/
theorem congr {count : Nat} (leaves : Leaves receiver count next) (limit : last.limit = next.limit)
    (pending : last.pending = next.pending) : Leaves receiver count last := by
  have frames : last.frames = next.frames := by
    unfold Receiver.frames
    rw [limit, pending]
  exact ⟨limit.trans leaves.limit, pending.trans leaves.pending, frames.trans leaves.frames,
    leaves.complete⟩

/-- A cut takes one frame, and its bytes are those of the first. -/
theorem of_cut? (trimmed : receiver.Trimmed) (found : receiver.cut? = some cut)
    (last : Receiver τ) (limit : last.limit = receiver.limit)
    (pending : last.pending = Pending.dropFrame receiver.pending cut.stop) :
    Leaves receiver 1 last ∧
      receiver.frames = receiver.pending.take cut.stop :: last.frames := by
  suffices facts : last.pending = Pending.remaining receiver.pending 1 ∧
      receiver.frames = receiver.pending.take cut.stop :: last.frames by
    obtain ⟨left, order⟩ := facts
    refine ⟨⟨limit, left, ?_, ?_⟩, order⟩
    · rw [order, List.drop_one, List.tail_cons]
    · rw [order]
      exact Nat.le_add_left 1 _
  obtain ⟨some, zeroFree⟩ := trimmed.take_of_cut? found
  rcases cases_of_cut? found with ⟨stop, rfl, separated⟩ | ⟨bound, rfl, _, limited, beyond⟩
  · obtain ⟨rest, split, _, dropped⟩ := Pending.exists_of_separator? separated
    rw [Cut.stop] at pending some zeroFree ⊢
    rw [dropped] at pending
    generalize receiver.pending.take stop = raw at split some zeroFree ⊢
    constructor
    · rw [pending, split, Pending.remaining_one_of_split some zeroFree]
    · unfold Receiver.frames
      rw [split, segments_frame zeroFree some, limit, pending, segments_dropZeros]
      rfl
  · rw [Cut.stop, List.take_length] at zeroFree
    rw [Cut.stop] at pending ⊢
    rw [Pending.dropFrame, List.drop_length, dropZeros_nil] at pending
    constructor
    · rw [pending, Pending.remaining_one_of_notMem zeroFree]
    · unfold Receiver.frames
      rw [pending, limit, limited, segments_of_notMem zeroFree, List.take_length, List.nil_append,
        excess, if_pos beyond]
      rfl

end Leaves

end Receiver

end ZeroFrame

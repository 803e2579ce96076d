/-
This file says what a cut at any whole number leaves, and that cuts and arrivals commute.

The search for the first byte to keep counts up from the place where it is told to start. From a
place that is not negative it meets the bytes in order, so the cut drops what is before the place
and the zeros that follow. From a negative place it meets the last bytes first; if all of them are
zeros it reaches the place zero and goes on there, so the cut drops no more than the zeros in
front. Only a place before the first byte is refused, and then no byte goes.
A chunk that arrives is added behind everything that a cut within the pending bytes looks
at first. So it makes no difference which of the two comes before the other.
-/

import ZeroFrame.Proofs.Link.Stream

namespace ZeroFrame

open Bytes

namespace Pending

variable {pending : Bytes}

/-! ### The bytes at places -/

theorem byteAt?_natCast (pending : Bytes) (place : Nat) :
    byteAt? pending place = pending[place]? := by
  simp [byteAt?]

/-- A negative place counts from the end. -/
theorem byteAt?_neg {back : Nat} (behind : 0 < back) (within : back ≤ pending.length) :
    byteAt? pending (-back) = pending[pending.length - back]? := by
  have negative : ¬0 ≤ (-back : Int) := by omega
  have inside : 0 ≤ (pending.length : Int) + -back := by omega
  have same : ((pending.length : Int) + -back).toNat = pending.length - back := by omega
  rw [byteAt?, if_neg negative, if_pos inside, same]

theorem byteAt?_of_lt {place : Int} (before : place < -pending.length) :
    byteAt? pending place = none := by
  have negative : ¬0 ≤ place := by omega
  have outside : ¬0 ≤ pending.length + place := by omega
  rw [byteAt?, if_neg negative, if_neg outside]

theorem dropTo_neg (pending : Bytes) {back : Nat} (behind : 0 < back) :
    dropTo pending (-back) = pending.drop (pending.length - back) := by
  have negative : ¬0 ≤ (-back : Int) := by omega
  have same : ((pending.length : Int) + -back).toNat = pending.length - back := by omega
  rw [dropTo, if_neg negative, same]

/-! ### One step of the search -/

section Search

variable {place : Int} {byte : UInt8}

theorem dropFrameAt_of_length_le (beyond : pending.length ≤ place) :
    dropFrameAt pending place = .ok [] := by
  rw [dropFrameAt, skipZeros, dif_neg (Int.not_lt.mpr beyond)]
  exact if_pos beyond

theorem dropFrameAt_of_none (within : place < pending.length)
    (none : byteAt? pending place = none) :
    dropFrameAt pending place = .error (placeFault place) := by
  rw [dropFrameAt, skipZeros, dif_pos within, none]

/-- A zero is passed. -/
theorem dropFrameAt_of_separator (within : place < pending.length)
    (zero : byteAt? pending place = some separator) :
    dropFrameAt pending place = dropFrameAt pending (place + 1) := by
  have step : skipZeros pending place = skipZeros pending (place + 1) := by
    rw [skipZeros, dif_pos within, zero]
    exact if_pos rfl
  rw [dropFrameAt, step, dropFrameAt]

/-- Any other byte is the first to keep. -/
theorem dropFrameAt_of_literal (within : place < pending.length)
    (here : byteAt? pending place = some byte) (literal : byte ≠ separator) :
    dropFrameAt pending place = .ok (dropTo pending place) := by
  have stop : skipZeros pending place = .ok place := by
    rw [skipZeros, dif_pos within, here]
    exact if_neg literal
  rw [dropFrameAt, stop]
  exact if_neg (Int.not_le.mpr within)

end Search

/-! ### The whole search -/

/-- From a place that is not negative the cut is that of a receiver. -/
theorem dropFrameAt_natCast (pending : Bytes) (place : Nat) :
    dropFrameAt pending place = .ok (dropFrame pending place) := by
  induction left : pending.length - place generalizing place with
  | zero =>
    have beyond : pending.length ≤ place := by omega
    rw [dropFrameAt_of_length_le (by omega), dropFrame, List.drop_eq_nil_of_le beyond,
      dropZeros_nil]
  | succ left inductionHypothesis =>
    have within : place < pending.length := by omega
    have here : byteAt? pending place = some pending[place] := by
      rw [byteAt?_natCast, List.getElem?_eq_getElem within]
    by_cases zero : pending[place] = separator
    · rw [dropFrameAt_of_separator (by omega) (here.trans (congrArg some zero)), dropFrame,
        List.drop_eq_getElem_cons within, zero, dropZeros_separator]
      exact inductionHypothesis (place + 1) (by omega)
    · rw [dropFrameAt_of_literal (by omega) here zero, dropTo, if_pos (Int.natCast_nonneg place),
        Int.toNat_natCast, dropFrame, List.drop_eq_getElem_cons within, dropZeros_cons_of_ne zero]

/-- From a negative place the cut looks at the last bytes, and if all of them are zeros it goes on
at the front. -/
theorem dropFrameAt_neg {back : Nat} (within : back ≤ pending.length) :
    dropFrameAt pending (-back) =
      .ok (if ∀ byte ∈ pending.drop (pending.length - back), byte = separator
        then dropZeros pending else dropFrame pending (pending.length - back)) := by
  induction back with
  | zero =>
    have nothing : pending.drop (pending.length - 0) = [] := by simp
    rw [nothing, if_pos nofun]
    exact dropFrameAt_natCast pending 0
  | succ back inductionHypothesis =>
    have inside : pending.length - (back + 1) < pending.length := by omega
    have here := byteAt?_neg (Nat.succ_pos back) within
    rw [List.getElem?_eq_getElem inside] at here
    have split := List.drop_eq_getElem_cons inside
    rw [show pending.length - (back + 1) + 1 = pending.length - back by omega] at split
    generalize pending[pending.length - (back + 1)] = first at here split
    by_cases zero : first = separator
    · have later : (-(back + 1 : Nat) : Int) + 1 = -back := by omega
      rw [dropFrameAt_of_separator (by omega) (here.trans (congrArg some zero)), later,
        inductionHypothesis (by omega), dropFrame, dropFrame, split, zero, dropZeros_separator]
      simp only [List.forall_mem_cons, true_and]
    · rw [dropFrameAt_of_literal (by omega) here zero, dropTo_neg pending (Nat.succ_pos back),
        if_neg fun all => zero (all first (split ▸ List.mem_cons_self)), dropFrame, split,
        dropZeros_cons_of_ne zero]

theorem dropFrameAt_of_lt {place : Int} (before : place < -pending.length) :
    dropFrameAt pending place = .error (placeFault place) :=
  dropFrameAt_of_none (by omega) (byteAt?_of_lt before)

theorem kind_placeFault (place : Int) : (placeFault place).kind = .position := by
  unfold placeFault
  split <;> rfl

/-! ### Cuts in place -/

/-- A fault leaves the bytes as they were. -/
theorem run_cutAt (pending : Bytes) (place : Int) :
    (cutAt place).run pending =
      match dropFrameAt pending place with
      | .error fault => .error fault pending
      | .ok rest => .ok () rest := by
  show (ofExcept (dropFrameAt pending place) >>= set : EStateM Fault Bytes Unit) pending = _
  cases dropFrameAt pending place <;> rfl

/-- A cut at any whole number either is refused, because the place lies before the first byte, and
then leaves the pending bytes as they are, or it leaves some of the last ones, which do not
start with a zero. These are the bytes from the place on without the zeros in front. Only if
the place is negative and all bytes from there on are zeros does the search go on at the
front, and the cut leaves all pending bytes without the zeros in front. -/
theorem cut_at_any_place (pending : Bytes) (place : Int) :
    let start := (if 0 ≤ place then place else pending.length + place).toNat
    let wraps := place < 0 ∧ ∀ byte ∈ pending.drop start, byte = separator
    if place < -pending.length then
      ∃ fault, (cutAt place).run pending = .error fault pending ∧ fault.kind = .position
    else
      ∃ rest, (cutAt place).run pending = .ok () rest ∧
        rest <:+ pending ∧ rest.head? ≠ some separator ∧
        (wraps → rest = dropZeros pending) ∧ (¬wraps → rest = dropZeros (pending.drop start)) := by
  intro start wraps
  split
  case isTrue before =>
    refine ⟨placeFault place, ?_, kind_placeFault place⟩
    rw [run_cutAt, dropFrameAt_of_lt before]
  case isFalse within =>
    suffices cut : dropFrameAt pending place =
        .ok (dropZeros (if wraps then pending else pending.drop start)) by
      refine ⟨_, by rw [run_cutAt, cut], ?_, head?_dropZeros _, ?_, ?_⟩
      · split
        · exact List.dropWhile_suffix _
        · exact (List.dropWhile_suffix _).trans (List.drop_suffix start pending)
      · intro wrapped
        rw [if_pos wrapped]
      · intro straight
        rw [if_neg straight]
    rcases lt_or_ge place 0 with negative | whole
    · obtain ⟨back, rfl⟩ : ∃ back : Nat, place = -back := ⟨place.natAbs, by omega⟩
      have from_end : start = pending.length - back := by
        unfold start
        rw [if_neg (by omega)]
        omega
      rw [dropFrameAt_neg (by omega), ← from_end, dropFrame]
      by_cases zeros : ∀ byte ∈ pending.drop start, byte = separator
      · rw [if_pos zeros, if_pos ⟨negative, zeros⟩]
      · rw [if_neg zeros, if_neg fun wrapped => zeros wrapped.2]
    · obtain ⟨place, rfl⟩ := Int.eq_ofNat_of_zero_le whole
      have from_front : start = place := by
        unfold start
        rw [if_pos whole, Int.toNat_natCast]
      rw [dropFrameAt_natCast, if_neg fun wrapped => absurd wrapped.1 (by omega), from_front,
        dropFrame]

/-- The last byte is a zero, so the search goes on at the front and passes the first one. -/
example : (dropFrameAt [0, 5, 0] (-1)).toOption = some [5, 0] := by decide +kernel

/-! ### Arrivals and cuts -/

/-- Two chunks that arrive one after the other arrive as one, whatever is pending. A chunk can as
well arrive before a cut within the pending bytes as after it: both leave the bytes from the
place on and the chunk behind them, without the zeros in front. The cut of a receiver is no
other than this one. -/
theorem arrivals_fuse_and_commute_with_cuts {pending : Bytes} {place : Nat}
    (within : place ≤ pending.length) (front back : Bytes) :
    receive (receive pending front) back = receive pending (front ++ back) ∧
      (cutAt place).run (receive pending front) =
        .ok () (dropZeros (pending.drop place ++ front)) ∧
      (∃ rest, (cutAt place).run pending = .ok () rest ∧ rest = dropFrame pending place ∧
        receive rest front = dropZeros (pending.drop place ++ front)) := by
  have later : receive (dropFrame pending place) front =
      dropZeros (pending.drop place ++ front) := by
    rw [dropFrame, receive_eq_dropZeros (head?_dropZeros _), dropZeros_append, dropZeros_append,
      dropZeros_dropZeros]
  refine ⟨(receive_append pending front back).symm, ?_, dropFrame pending place, ?_, rfl, later⟩
  · rw [run_cutAt, dropFrameAt_natCast, dropFrame_receive within, later]
  · rw [run_cutAt, dropFrameAt_natCast]

/-- The pending bytes start with a zero, and a separator run goes on in the chunk. -/
theorem arrivals_fuse_and_commute_with_cuts_across_separators :
    let pending : Bytes := [0, 5, 0]
    2 ≤ pending.length ∧
      receive (receive pending [0, 0]) [7] = receive pending [0, 0, 7] ∧
      (cutAt 2).run (receive pending [0, 0, 7]) = .ok () [7] ∧
      ∃ rest, (cutAt 2).run pending = .ok () rest ∧ rest = [] ∧ receive rest [0, 0, 7] = [7] := by
  intro pending
  have within : 2 ≤ pending.length := by decide
  obtain ⟨fuses, _, _⟩ := arrivals_fuse_and_commute_with_cuts within [0, 0] [7]
  obtain ⟨_, before, rest, cut, left, after⟩ :=
    arrivals_fuse_and_commute_with_cuts within [0, 0, 7] []
  exact ⟨within, fuses, before, rest, cut, left, after⟩

end Pending

end ZeroFrame

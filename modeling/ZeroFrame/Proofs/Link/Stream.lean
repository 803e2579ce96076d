/-
This file relates the pending bytes of a link to everything that has arrived on it.

A stream either has no frame left, or it begins, after some zeros, with a frame and its
separator. Taking frames off one by one therefore walks through the segments of the stream,
and what is pending after some frames is the remainder of the stream without its leading
zeros. New bytes at the end of the stream neither change the frames that are complete nor
meet the remainder in any other way than at its end. These are the two facts by which the
zeros that a receiver drops, now on arrival and now after a frame, cannot be told apart.
-/

import Mathlib
import ZeroFrame.Link.Pending
import ZeroFrame.Link.Segment

namespace ZeroFrame

/-! ### Zeros at either end -/

namespace Bytes

theorem dropZeros_of_head_ne {bytes : Bytes} (literal : bytes.head? ≠ some separator) :
    dropZeros bytes = bytes := by
  cases bytes with
  | nil => rfl
  | cons byte bytes => exact dropZeros_cons_of_ne (fun zero => literal (congrArg some zero)) bytes

theorem head?_dropZeros (bytes : Bytes) : (dropZeros bytes).head? ≠ some separator := by
  cases left : dropZeros bytes with
  | nil => simp
  | cons first rest => exact fun zero => head_dropZeros_ne left (Option.some.inj zero)

@[simp] theorem dropZeros_dropZeros (bytes : Bytes) :
    dropZeros (dropZeros bytes) = dropZeros bytes := dropZeros_of_head_ne (head?_dropZeros bytes)

theorem dropZeros_separators_append (count : Nat) (bytes : Bytes) :
    dropZeros (List.replicate count separator ++ bytes) = dropZeros bytes := by
  induction count with
  | zero => rfl
  | succ count inductionHypothesis =>
    rw [List.replicate_succ, List.cons_append, dropZeros_separator, inductionHypothesis]

theorem dropZeros_append (front back : Bytes) :
    dropZeros (front ++ back) =
      if dropZeros front = [] then dropZeros back else dropZeros front ++ back := by
  induction front with
  | nil => rw [dropZeros_nil, if_pos rfl, List.nil_append]
  | cons byte front inductionHypothesis =>
    by_cases zero : byte = separator
    · rw [zero, List.cons_append, dropZeros_separator, dropZeros_separator, inductionHypothesis]
    · rw [List.cons_append, dropZeros_cons_of_ne zero, dropZeros_cons_of_ne zero,
        if_neg (List.cons_ne_nil _ _), List.cons_append]

theorem stripZeros_append_separators (bytes : Bytes) (count : Nat) :
    stripZeros (bytes ++ List.replicate count separator) = stripZeros bytes := by
  rw [stripZeros, List.reverse_append, List.reverse_replicate, dropZeros_separators_append,
    stripZeros]

theorem stripZeros_of_getLast?_ne {bytes : Bytes} (literal : bytes.getLast? ≠ some separator) :
    stripZeros bytes = bytes := by
  rw [← List.head?_reverse] at literal
  rw [stripZeros, dropZeros_of_head_ne literal, List.reverse_reverse]

theorem getLast?_stripZeros (bytes : Bytes) : (stripZeros bytes).getLast? ≠ some separator := by
  rw [stripZeros, List.getLast?_reverse]
  exact head?_dropZeros bytes.reverse

/-- Only zeros at the end are stripped. -/
theorem exists_stripZeros (bytes : Bytes) :
    ∃ count, bytes = stripZeros bytes ++ List.replicate count separator := by
  have split := List.takeWhile_append_dropWhile (p := (· == separator)) (l := bytes.reverse)
  have zeros := List.eq_replicate_of_mem fun byte member =>
    eq_of_beq (List.mem_takeWhile_imp (p := (· == separator)) (l := bytes.reverse) member)
  refine ⟨(bytes.reverse.takeWhile (· == separator)).length, ?_⟩
  rw [stripZeros, dropZeros, ← List.reverse_replicate, ← zeros, ← List.reverse_append, split,
    List.reverse_reverse]

end Bytes

open Bytes

/-! ### The first separator -/

namespace Pending

theorem separator?_eq_none_iff (pending : Bytes) :
    separator? pending = none ↔ separator ∉ pending := by
  rw [separator?, List.findIdx?_eq_none_iff]
  constructor
  · intro absent member
    exact absurd (absent _ member) (by simp)
  · intro absent byte member
    exact beq_eq_false_iff_ne.mpr fun zero => absent (zero ▸ member)

theorem le_of_separator? {pending : Bytes} {stop : Nat}
    (found : separator? pending = some stop) : stop ≤ pending.length :=
  Nat.le_of_lt (List.findIdx?_eq_some_iff_getElem.mp found).1

theorem exists_of_separator? {pending : Bytes} {stop : Nat}
    (found : separator? pending = some stop) :
    ∃ rest, pending = pending.take stop ++ separator :: rest ∧ separator ∉ pending.take stop ∧
      dropFrame pending stop = dropZeros rest := by
  obtain ⟨bound, zero, before⟩ := List.findIdx?_eq_some_iff_getElem.mp found
  have split : pending.drop stop = separator :: pending.drop (stop + 1) := by
    rw [List.drop_eq_getElem_cons bound, eq_of_beq zero]
  refine ⟨pending.drop (stop + 1), ?_, fun member => ?_, ?_⟩
  · rw [← split, List.take_append_drop]
  · obtain ⟨place, within, same⟩ := List.getElem_of_mem member
    rw [List.getElem_take] at same
    rw [List.length_take] at within
    exact before place (by omega) (beq_iff_eq.mpr same)
  · rw [dropFrame, split, dropZeros_separator]

theorem separator?_append {frame : Bytes} (zeroFree : separator ∉ frame) (rest : Bytes) :
    separator? (frame ++ separator :: rest) = some frame.length := by
  have absent := (separator?_eq_none_iff frame).mpr zeroFree
  rw [separator?] at absent ⊢
  rw [List.findIdx?_append, absent, List.findIdx?_cons]
  simp

theorem receive_eq_dropZeros {pending : Bytes} (normal : pending.head? ≠ some separator)
    (chunk : Bytes) : receive pending chunk = dropZeros (pending ++ chunk) := by
  rw [dropZeros_append, dropZeros_of_head_ne normal, receive]
  cases pending <;> rfl

@[simp] theorem receive_nil (pending : Bytes) : receive pending [] = pending := by
  cases pending <;> simp [receive]

/-- Chunks that arrive one after the other arrive as one. -/
theorem receive_append (pending front back : Bytes) :
    receive pending (front ++ back) = receive (receive pending front) back := by
  cases pending with
  | nil =>
    simp only [receive, List.isEmpty_nil, if_true, dropZeros_append, List.isEmpty_iff]
  | cons first pending => simp [receive]

/-- A chunk changes nothing before the first separator. -/
theorem separator?_receive {pending : Bytes} {stop : Nat}
    (found : separator? pending = some stop) (chunk : Bytes) :
    separator? (receive pending chunk) = some stop := by
  cases pending with
  | nil => cases found
  | cons first pending =>
    rw [separator?] at found ⊢
    rw [receive, List.isEmpty_cons, if_neg Bool.false_ne_true, List.findIdx?_append, found,
      Option.some_or]

theorem take_receive {pending : Bytes} {stop : Nat} (within : stop ≤ pending.length)
    (chunk : Bytes) : (receive pending chunk).take stop = pending.take stop := by
  cases pending with
  | nil =>
    obtain rfl := Nat.le_zero.mp within
    rfl
  | cons first pending =>
    rw [receive, List.isEmpty_cons, if_neg Bool.false_ne_true, List.take_append_of_le_length within]

/-- A chunk can as well arrive after a cut that is made within the pending bytes. -/
theorem dropFrame_receive {pending : Bytes} {stop : Nat} (within : stop ≤ pending.length)
    (chunk : Bytes) :
    dropFrame (receive pending chunk) stop = receive (dropFrame pending stop) chunk := by
  cases pending with
  | nil =>
    obtain rfl := Nat.le_zero.mp within
    simp [dropFrame, receive]
  | cons first pending =>
    rw [dropFrame, dropFrame, receive, receive, List.isEmpty_cons, if_neg Bool.false_ne_true,
      List.drop_append_of_le_length within, dropZeros_append]
    simp only [List.isEmpty_iff]

end Pending

/-! ### Segments -/

theorem append_singleton_prefix {α : Type} {front whole : List α} {next : α}
    (sofar : front <+: whole) (found : whole[front.length]? = some next) :
    front ++ [next] <+: whole := by
  obtain ⟨later, rfl⟩ := sofar
  rw [List.getElem?_append_right (Nat.le_refl _), Nat.sub_self, ← List.head?_eq_getElem?] at found
  obtain ⟨rest, rfl⟩ := List.head?_eq_some_iff.mp found
  exact ⟨rest, List.append_assoc ..⟩

/-- Images that come first are found at the same places. -/
theorem getElem?_of_prefix_map {α β : Type} {f : α → β} {items : List α} {whole : List β}
    (sofar : items.map f <+: whole) {place : Nat} {item : α} (found : items[place]? = some item) :
    whole[place]? = some (f item) := by
  obtain ⟨within, same⟩ := List.getElem?_eq_some_iff.mp found
  rw [List.prefix_iff_getElem?.mp sofar place (by rwa [List.length_map]), List.getElem_map, same]

theorem segmentsAfter_append (begun front back : Bytes) :
    segmentsAfter begun (front ++ back) =
      let first := segmentsAfter begun front
      let second := segmentsAfter first.rest back
      ⟨first.ended ++ second.ended, second.rest⟩ := by
  induction front generalizing begun with
  | nil => rfl
  | cons byte front inductionHypothesis =>
    by_cases zero : byte = separator
    · cases begun with
      | nil => simp [segmentsAfter, zero, inductionHypothesis]
      | cons first begun => simp [segmentsAfter, zero, inductionHypothesis]
    · simp [segmentsAfter, zero, inductionHypothesis]

theorem segmentsAfter_of_notMem {bytes : Bytes} (zeroFree : separator ∉ bytes) (begun : Bytes) :
    segmentsAfter begun bytes = ⟨[], begun ++ bytes⟩ := by
  induction bytes generalizing begun with
  | nil => rw [segmentsAfter, List.append_nil]
  | cons byte bytes inductionHypothesis =>
    rw [List.mem_cons, not_or] at zeroFree
    rw [segmentsAfter, if_neg fun zero => zeroFree.1 zero.symm, inductionHypothesis zeroFree.2,
      List.append_assoc, List.singleton_append]

@[simp] theorem segments_separator (stream : Bytes) :
    segments (separator :: stream) = segments stream := rfl

@[simp] theorem segments_dropZeros (stream : Bytes) :
    segments (dropZeros stream) = segments stream := by
  induction stream with
  | nil => rfl
  | cons byte stream inductionHypothesis =>
    by_cases zero : byte = separator
    · rw [zero, dropZeros_separator, segments_separator, inductionHypothesis]
    · rw [dropZeros_cons_of_ne zero]

theorem segments_separators_append (count : Nat) (stream : Bytes) :
    segments (List.replicate count separator ++ stream) = segments stream := by
  rw [← segments_dropZeros, dropZeros_separators_append, segments_dropZeros]

/-- A separator ends whatever was begun, and the stream goes on as if it began there. -/
theorem segments_append_separator (front back : Bytes) :
    segments (front ++ separator :: back) =
      ⟨(segments (front ++ [separator])).ended ++ (segments back).ended, (segments back).rest⟩ := by
  have closed : (segments (front ++ [separator])).rest = [] := by
    rw [segments, segmentsAfter_append]
    simp only [segmentsAfter, if_true]
    split <;> rfl
  rw [← List.singleton_append, ← List.append_assoc, segments, segmentsAfter_append]
  simp only [segments] at closed ⊢
  rw [closed]

/-- What is begun is the beginning of some segment. -/
theorem exists_segment_of_begun (begun stream : Bytes) :
    ∃ segment ∈ (segmentsAfter begun stream).ended ++ [(segmentsAfter begun stream).rest],
      begun <+: segment := by
  induction stream generalizing begun with
  | nil => exact ⟨begun, List.mem_append_right _ List.mem_cons_self, List.prefix_rfl⟩
  | cons byte stream inductionHypothesis =>
    rw [segmentsAfter]
    split
    case isTrue =>
      cases begun with
      | nil => exact ⟨_, List.mem_append_right _ List.mem_cons_self, List.nil_prefix⟩
      | cons first begun => exact ⟨_, List.mem_cons_self, List.prefix_rfl⟩
    case isFalse =>
      obtain ⟨segment, member, longer⟩ := inductionHypothesis (begun ++ [byte])
      exact ⟨segment, member, (List.prefix_append begun [byte]).trans longer⟩

theorem segments_frame {frame : Bytes} (zeroFree : separator ∉ frame) (some : frame ≠ [])
    (rest : Bytes) :
    segments (frame ++ separator :: rest) =
      ⟨frame :: (segments rest).ended, (segments rest).rest⟩ := by
  rw [segments, segmentsAfter_append, segmentsAfter_of_notMem zeroFree]
  simp [segmentsAfter, some, segments]

/-- The frames that are complete stay the same, whatever arrives. -/
theorem ended_prefix_append (stream chunk : Bytes) :
    (segments stream).ended <+: (segments (stream ++ chunk)).ended := by
  rw [segments, segments, segmentsAfter_append]
  exact List.prefix_append _ _

/-- A stream without a frame is open after its leading zeros, and any other begins there with its
first frame. -/
theorem segments_cases (stream : Bytes) :
    (separator ∉ dropZeros stream ∧ segments stream = ⟨[], dropZeros stream⟩) ∨
      ∃ frame rest, dropZeros stream = frame ++ separator :: rest ∧ separator ∉ frame ∧
        segments stream = ⟨frame :: (segments rest).ended, (segments rest).rest⟩ := by
  cases found : Pending.separator? (dropZeros stream) with
  | none =>
    rw [Pending.separator?_eq_none_iff] at found
    refine Or.inl ⟨found, ?_⟩
    rw [← segments_dropZeros, segments, segmentsAfter_of_notMem found, List.nil_append]
  | some stop =>
    obtain ⟨rest, split, zeroFree, _⟩ := Pending.exists_of_separator? found
    generalize (dropZeros stream).take stop = frame at split zeroFree
    have some : frame ≠ [] := by
      rintro rfl
      exact head_dropZeros_ne split rfl
    refine Or.inr ⟨frame, rest, split, zeroFree, ?_⟩
    rw [← segments_dropZeros, split, segments_frame zeroFree some]

/-! ### What follows some frames -/

/-- The stream without everything up to the end of its first `count` frames. -/
def afterFrames (stream : Bytes) : Nat → Bytes
  | 0 => stream
  | count + 1 => (dropZeros (afterFrames stream count)).dropWhile (· != separator)

theorem dropWhile_frame {frame : Bytes} (zeroFree : separator ∉ frame) (rest : Bytes) :
    (frame ++ separator :: rest).dropWhile (· != separator) = separator :: rest := by
  rw [List.dropWhile_append_of_pos]
  · rfl
  · exact fun byte member => bne_iff_ne.mpr fun zero => zeroFree (zero ▸ member)

/-- One frame is passed, and the remainder begins with the separator of this frame. -/
theorem exists_afterFrames_succ {stream frame begun : Bytes} {count : Nat} {later : List Bytes}
    (next : segments (afterFrames stream count) = ⟨frame :: later, begun⟩) :
    ∃ rest, dropZeros (afterFrames stream count) = frame ++ separator :: rest ∧
      separator ∉ frame ∧ afterFrames stream (count + 1) = separator :: rest ∧
      segments rest = ⟨later, begun⟩ := by
  rcases segments_cases (afterFrames stream count) with
    ⟨_, none⟩ | ⟨other, rest, split, zeroFree, same⟩
  · rw [none] at next
    cases next
  · rw [next] at same
    injection same with sameEnded sameRest
    obtain ⟨rfl, rfl⟩ := List.cons.inj sameEnded
    refine ⟨rest, split, zeroFree, ?_, ?_⟩
    · rw [afterFrames, split, dropWhile_frame zeroFree]
    · rw [sameRest]

theorem segments_afterFrames {stream : Bytes} {count : Nat}
    (complete : count ≤ (segments stream).ended.length) :
    segments (afterFrames stream count) =
      ⟨(segments stream).ended.drop count, (segments stream).rest⟩ := by
  induction count with
  | zero => rfl
  | succ count inductionHypothesis =>
    have next := inductionHypothesis (Nat.le_of_succ_le complete)
    rw [List.drop_eq_getElem_cons complete] at next
    obtain ⟨rest, _, _, passed, left⟩ := exists_afterFrames_succ next
    rw [passed, segments_separator, left]

theorem afterFrames_append {stream : Bytes} {count : Nat}
    (complete : count ≤ (segments stream).ended.length) (chunk : Bytes) :
    afterFrames (stream ++ chunk) count = afterFrames stream count ++ chunk := by
  induction count with
  | zero => rfl
  | succ count inductionHypothesis =>
    have next := segments_afterFrames (Nat.le_of_succ_le complete)
    rw [List.drop_eq_getElem_cons complete] at next
    obtain ⟨rest, split, zeroFree, passed, _⟩ := exists_afterFrames_succ next
    rw [passed, afterFrames, inductionHypothesis (Nat.le_of_succ_le complete), dropZeros_append,
      split, if_neg (by simp), List.append_assoc, List.cons_append, dropWhile_frame zeroFree]

/-! ### Pending bytes and the stream -/

/-- Pending bytes that are aligned with a stream: its first `count` frames are gone, with the zeros
that follow them. -/
structure Aligned (stream : Bytes) (count : Nat) (pending : Bytes) : Prop where
  complete : count ≤ (segments stream).ended.length
  pending_eq : pending = dropZeros (afterFrames stream count)

namespace Aligned

variable {stream pending : Bytes} {count stop : Nat}

theorem start : Aligned [] 0 [] := ⟨Nat.zero_le _, rfl⟩

theorem head_ne (aligned : Aligned stream count pending) : pending.head? ≠ some separator :=
  aligned.pending_eq ▸ head?_dropZeros _

/-- Zeros that a chunk loses on arrival are zeros that the remainder of the stream begins with. -/
theorem receive (aligned : Aligned stream count pending) (chunk : Bytes) :
    Aligned (stream ++ chunk) count (Pending.receive pending chunk) := by
  constructor
  · exact Nat.le_trans aligned.complete (ended_prefix_append stream chunk).length_le
  · rw [Pending.receive_eq_dropZeros aligned.head_ne, aligned.pending_eq,
      afterFrames_append aligned.complete]
    rw [dropZeros_append, dropZeros_append, dropZeros_dropZeros]

/-- No separator is pending exactly if all frames of the stream are gone. -/
theorem separator?_eq_none_iff (aligned : Aligned stream count pending) :
    Pending.separator? pending = none ↔ (segments stream).ended[count]? = none := by
  have left := segments_afterFrames aligned.complete
  rw [Pending.separator?_eq_none_iff, aligned.pending_eq, List.getElem?_eq_none_iff,
    ← List.drop_eq_nil_iff]
  rcases segments_cases (afterFrames stream count) with
    ⟨zeroFree, none⟩ | ⟨frame, rest, split, _, same⟩
  · rw [left] at none
    exact iff_of_true zeroFree (congrArg Segments.ended none)
  · rw [left] at same
    refine iff_of_false (fun absent => absent ?_) fun nothing => ?_
    · rw [split]
      exact List.mem_append_right _ List.mem_cons_self
    · rw [nothing] at same
      cases same

/-- No separator is pending exactly if the frames that are gone are all of the stream. -/
theorem exhausts_iff {taken : List Bytes} (aligned : Aligned stream taken.length pending)
    (frames : taken <+: (segments stream).ended) :
    Pending.separator? pending = none ↔ taken = (segments stream).ended := by
  rw [aligned.separator?_eq_none_iff, List.getElem?_eq_none_iff]
  constructor
  · exact fun all => frames.eq_of_length (Nat.le_antisymm frames.length_le all)
  · exact fun same => (congrArg List.length same).ge

/-- Once all frames of the stream are gone, the bytes after its last separator are pending. -/
theorem pending_eq_rest (aligned : Aligned stream count pending)
    (all : count = (segments stream).ended.length) : pending = (segments stream).rest := by
  have left := segments_afterFrames aligned.complete
  rw [all, List.drop_length, ← all] at left
  rcases segments_cases (afterFrames stream count) with ⟨_, none⟩ | ⟨_, _, _, _, some⟩
  · rw [left] at none
    rw [aligned.pending_eq, congrArg Segments.rest none]
  · rw [left] at some
    cases some

/-- The bytes before the first separator are the next frame of the stream, and dropping them leaves
what follows this frame. -/
theorem take (aligned : Aligned stream count pending)
    (found : Pending.separator? pending = some stop) :
    (segments stream).ended[count]? = some (pending.take stop) ∧
      Aligned stream (count + 1) (Pending.dropFrame pending stop) := by
  have more : (segments stream).ended[count]? ≠ none := by
    rw [ne_eq, ← aligned.separator?_eq_none_iff, found]
    exact Option.some_ne_none _
  obtain ⟨frame, same⟩ := Option.ne_none_iff_exists'.mp more
  obtain ⟨within, isFrame⟩ := List.getElem?_eq_some_iff.mp same
  have next := segments_afterFrames aligned.complete
  rw [List.drop_eq_getElem_cons within, isFrame] at next
  obtain ⟨rest, split, zeroFree, passed, _⟩ := exists_afterFrames_succ next
  rw [← aligned.pending_eq] at split
  rw [split, Pending.separator?_append zeroFree] at found
  obtain rfl := Option.some.inj found
  have taken : pending.take frame.length = frame := by
    rw [split, List.take_left]
  have dropped : pending.drop frame.length = separator :: rest := by
    rw [split, List.drop_left]
  refine ⟨by rw [same, taken], within, ?_⟩
  rw [Pending.dropFrame, dropped, passed]

end Aligned

end ZeroFrame

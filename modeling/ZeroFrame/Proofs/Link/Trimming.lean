/-
This file shows that a receiver never cuts an empty frame off.

Nothing pending starts with a separator, at any moment of any use: a chunk that arrives on
nothing loses its leading separators, and a cut drops them at whatever place it is made, be it
stale. So the bytes before the first separator are some bytes, and bytes that the codec accepts
come to a payload of some size. The size zero in a report therefore tells that there is no
payload, and nothing else does.
-/

import ZeroFrame.Proofs.Codeword.Sizes
import ZeroFrame.Proofs.Link.History

namespace ZeroFrame

variable {τ φ : Type} [Table τ φ]

/-! ### No separator in front -/

/-- Nothing pending starts with a separator. -/
def Receiver.Trimmed (receiver : Receiver τ) : Prop := receiver.pending.head? ≠ some separator

theorem Receiver.kept_trimmed (limit : Option Nat) :
    Kept fun receiver : Receiver τ => receiver.limit = limit ∧ receiver.Trimmed := by
  constructor
  case receive =>
    rintro receiver chunk ⟨limited, trimmed⟩
    refine ⟨limited, ?_⟩
    rw [Trimmed, receive, Pending.receive_eq_dropZeros trimmed]
    exact Bytes.head?_dropZeros _
  case dropFrame => exact fun receiver stop held => ⟨held.1, Bytes.head?_dropZeros _⟩
  case tableDecode => exact fun receiver payload held => held
  case log => exact fun receiver log held => held

omit [Table τ φ] in
/-- Whatever is cut off a trimmed receiver has a byte and no separator. -/
theorem Receiver.Trimmed.take_of_cut? {receiver : Receiver τ} (trimmed : receiver.Trimmed)
    {cut : Cut} (found : receiver.cut? = some cut) :
    receiver.pending.take cut.stop ≠ [] ∧ separator ∉ receiver.pending.take cut.stop := by
  obtain ⟨stop, rfl, separated⟩ | ⟨bound, rfl, zeroFree, _, beyond⟩ := Receiver.cases_of_cut? found
  · obtain ⟨rest, split, zeroFree, _⟩ := Pending.exists_of_separator? separated
    refine ⟨fun empty => trimmed ?_, zeroFree⟩
    rw [Cut.stop] at empty
    rw [split, empty]
    rfl
  · rw [Cut.stop, List.take_length]
    exact ⟨List.ne_nil_of_length_pos (Nat.zero_lt_of_lt beyond), zeroFree⟩

omit [Table τ φ] in
/-- A trimmed receiver is cut behind its first byte. -/
theorem Receiver.Trimmed.stop_pos {receiver : Receiver τ} (trimmed : receiver.Trimmed) {cut : Cut}
    (found : receiver.cut? = some cut) : 0 < cut.stop := by
  obtain ⟨literal, _⟩ := trimmed.take_of_cut? found
  exact Nat.pos_of_ne_zero fun zero => literal (by rw [zero, List.take_zero])

/-! ### Sizes of payloads -/

/-- Only bytes without a payload have a payload of size zero. -/
theorem decodedSize_eq_zero_iff {raw : Bytes} (some : raw ≠ []) :
    decodedSize raw = 0 ↔ ∃ flaw, Codeword.decode raw = .error flaw := by
  rw [decodedSize]
  cases read : Codeword.decode raw with
  | error flaw => exact iff_of_true rfl ⟨flaw, rfl⟩
  | ok payload =>
    have enough := Codeword.bitmapSize_le_length_of_decode some read
    refine iff_of_false (fun zero => ?_) (by simp)
    rw [show payload.length = 0 from zero] at enough
    exact absurd enough (by decide)

theorem le_decodedSize {raw : Bytes} (some : raw ≠ []) (size : decodedSize raw ≠ 0) :
    7 ≤ decodedSize raw ∧
      ∃ payload, Codeword.decode raw = .ok payload ∧ decodedSize raw = payload.length := by
  rw [decodedSize] at size ⊢
  cases read : Codeword.decode raw with
  | error flaw =>
    rw [read] at size
    exact absurd rfl size
  | ok payload =>
    exact ⟨Codeword.bitmapSize_le_length_of_decode some read, payload, rfl, rfl⟩

/-! ### Reports -/

/-- All pending bytes are reported, since they are more than the limit. -/
def Report.Overflows (limit : Option Nat) (report : Report φ) : Prop :=
  report.raw = report.pending ∧ ∃ bound, limit = some bound ∧ bound < report.pending.length

/-- What every report of a receiver with a limit says. -/
structure Report.Faithful (limit : Option Nat) (report : Report φ) : Prop where
  pending : report.pending.head? ≠ some separator
  raw : report.raw ≠ [] ∧ separator ∉ report.raw
  complete : report.Overflows limit ∨ ∃ rest, report.pending = report.raw ++ separator :: rest
  /-- The size is zero if and only if the codec refuses the bytes or they are given up. -/
  size_eq_zero_iff : report.size = 0 ↔
    (∃ flaw, Codeword.decode report.raw = .error flaw) ∨ report.Overflows limit
  /-- Any other size is that of the payload, whatever the table made of it. -/
  size : report.size ≠ 0 → 7 ≤ report.size ∧
    ∃ payload, Codeword.decode report.raw = .ok payload ∧ report.size = payload.length

omit [Table τ φ] in
theorem Report.faithful_reportOf {limit : Option Nat} {receiver : Receiver τ}
    (limited : receiver.limit = limit) (trimmed : receiver.Trimmed) {cut : Cut}
    (found : receiver.cut? = some cut) (frame : Option φ) :
    (Exchange.reportOf receiver cut frame).Faithful limit := by
  have raw := trimmed.take_of_cut? found
  obtain ⟨stop, rfl, separated⟩ | ⟨bound, rfl, _, isLimit, beyond⟩ := Receiver.cases_of_cut? found
  · obtain ⟨rest, split, zeroFree, _⟩ := Pending.exists_of_separator? separated
    have within : ¬(Exchange.reportOf receiver (.frame stop) frame).Overflows limit := by
      rintro ⟨whole, _⟩
      refine zeroFree ?_
      rw [show receiver.pending.take stop = receiver.pending from whole, split]
      exact List.mem_append_right _ List.mem_cons_self
    have size : (Exchange.reportOf receiver (.frame stop) frame).size =
        decodedSize (receiver.pending.take stop) := Exchange.payloadSize_frame _
    refine ⟨trimmed, raw, Or.inr ⟨rest, split⟩, ?_, ?_⟩
    · rw [or_iff_left within, size]
      exact decodedSize_eq_zero_iff raw.1
    · rw [size]
      exact le_decodedSize raw.1
  · have overflows : (Exchange.reportOf receiver (.overflow receiver.pending.length bound)
        frame).Overflows limit :=
      ⟨List.take_length, bound, limited.symm.trans isLimit, beyond⟩
    exact ⟨trimmed, raw, Or.inl overflows, iff_of_true rfl (Or.inr overflows),
      fun some => absurd rfl some⟩

/-! ### Every moment of every run -/

theorem History.sound_run (limit : Option Nat) (table : τ) (uses : List (Use φ)) :
    Sound (fun receiver => receiver.limit = limit ∧ receiver.Trimmed) (Report.Faithful limit)
      ((History.start limit table).run uses) := by
  have begun : Sound (fun receiver => receiver.limit = limit ∧ receiver.Trimmed)
      (Report.Faithful limit) (History.start limit table : History τ φ) :=
    ⟨⟨rfl, nofun⟩, nofun, nofun⟩
  refine begun.run (Receiver.kept_trimmed limit) ?_ uses
  exact fun receiver cut frame held found => Report.faithful_reportOf held.1 held.2 found frame

/-- Whatever is done with a receiver, with any limit, any table and any observers, nothing pending
starts with a separator, neither afterwards nor at any moment before. So what the codec is
given is never empty and holds no separator. The same is true of what an observer is told,
when it is told, and the size that it is told is zero exactly if the codec refuses the bytes
or they are given up for the limit; otherwise it is at least seven. -/
theorem pending_trimmed (limit : Option Nat) (table : τ) (uses : List (Use φ)) :
    let history := (History.start limit table).run uses
    history.receiver.pending.head? ≠ some separator ∧
      (∀ receiver ∈ history.states, receiver.pending.head? ≠ some separator ∧
        ∀ stop, receiver.cut? = some (.frame stop) →
          receiver.pending.take stop ≠ [] ∧ separator ∉ receiver.pending.take stop) ∧
      ∀ report ∈ history.reports, report.Faithful limit := by
  obtain ⟨⟨_, trimmed⟩, states, reports⟩ := History.sound_run limit table uses
  refine ⟨trimmed, fun receiver member => ?_, reports⟩
  obtain ⟨_, trimmed⟩ := states receiver member
  exact ⟨trimmed, fun stop found => trimmed.take_of_cut? found⟩

end ZeroFrame

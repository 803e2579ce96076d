/-
This file shows how much of a payload a registry reads.

A layout owns a fixed stretch of bytes, item by item, and the values in it do not depend on
what follows. A registry reads an index and then the layout that it finds under the index,
so bytes after that are left alone. Only a payload that is too short for one of the two can
come out differently when more bytes follow.
-/

import Mathlib
import ZeroFrame.Message.Registry

namespace ZeroFrame

/-! ### Values of a layout -/

namespace Layout

/-- Unpacking breaks off exactly at a counted text of no bytes. -/
theorem any_isHollow_iff {layout : Layout} :
    layout.items.any Item.isHollow = true ↔ ⟨0, .counted⟩ ∈ layout.items := by
  rw [List.any_eq_true]
  constructor
  · rintro ⟨⟨count, code⟩, member, hollow⟩
    obtain ⟨rfl, rfl⟩ := of_decide_eq_true hollow
    exact member
  · exact fun member => ⟨_, member, rfl⟩

theorem pieces_append (width : Nat) {count : Nat} {bytes : Bytes}
    (enough : count * width ≤ bytes.length) (more : Bytes) :
    pieces width count (bytes ++ more) = pieces width count bytes := by
  induction count generalizing bytes with
  | zero => rfl
  | succ count inductionHypothesis =>
    rw [Nat.succ_mul] at enough
    have first : width ≤ bytes.length := by omega
    have others : count * width ≤ (bytes.drop width).length := by
      rw [List.length_drop]
      omega
    rw [pieces, pieces, List.take_append_of_le_length first, List.drop_append_of_le_length first,
      inductionHypothesis others]

theorem unpack_item_append (endian : Endian) {item : Item} {bytes : Bytes}
    (enough : item.size ≤ bytes.length) (more : Bytes) :
    item.unpack endian (bytes ++ more) = item.unpack endian bytes := by
  obtain ⟨count, code⟩ := item
  have same : Item.pieces ⟨count, code⟩ (bytes ++ more) = Item.pieces ⟨count, code⟩ bytes := by
    cases code with
    | pad => rfl
    | text =>
      change count * 1 ≤ bytes.length at enough
      rw [Nat.mul_one] at enough
      exact congrArg (fun piece => [piece]) (List.take_append_of_le_length enough)
    | counted =>
      change count * 1 ≤ bytes.length at enough
      rw [Nat.mul_one] at enough
      exact congrArg (fun piece => [piece]) (List.take_append_of_le_length enough)
    | char => exact pieces_append _ enough more
    | bool => exact pieces_append _ enough more
    | integer width signed => exact pieces_append _ enough more
    | real precision => exact pieces_append _ enough more
  rw [Item.unpack, Item.unpack, same]

theorem unpackItems_append (endian : Endian) {items : List Item} {bytes : Bytes}
    (enough : (items.map Item.size).foldr (· + ·) 0 ≤ bytes.length) (more : Bytes) :
    unpackItems endian items (bytes ++ more) = unpackItems endian items bytes := by
  induction items generalizing bytes with
  | nil => rfl
  | cons item items inductionHypothesis =>
    rw [List.map_cons, List.foldr_cons] at enough
    have first : item.size ≤ bytes.length := by omega
    have others : (items.map Item.size).foldr (· + ·) 0 ≤ (bytes.drop item.size).length := by
      rw [List.length_drop]
      omega
    rw [unpackItems, unpackItems, unpack_item_append endian first,
      List.drop_append_of_le_length first, inductionHypothesis others]

theorem unpack_append {layout : Layout} {bytes : Bytes} (enough : layout.size ≤ bytes.length)
    (more : Bytes) : layout.unpack (bytes ++ more) = layout.unpack bytes :=
  unpackItems_append _ enough more

theorem length_pieces (width count : Nat) (bytes : Bytes) :
    (pieces width count bytes).length = count := by
  induction count generalizing bytes with
  | zero => rfl
  | succ count inductionHypothesis => rw [pieces, List.length_cons, inductionHypothesis]

/-- Every piece has a value, unless it is padding. -/
theorem length_filterMap_read? {code : Code} (valued : code ≠ .pad) (endian : Endian)
    (pieces : List Bytes) : (pieces.filterMap (code.read? endian)).length = pieces.length := by
  rw [List.length_filterMap_eq_countP, List.countP_eq_length]
  intro piece _
  cases code with
  | pad => exact absurd rfl valued
  | _ => rfl

theorem length_unpack_item (endian : Endian) (item : Item) (bytes : Bytes) :
    (item.unpack endian bytes).length = item.arity := by
  obtain ⟨count, code⟩ := item
  cases code with
  | pad => rfl
  | text => rfl
  | counted => rfl
  | char => exact (length_filterMap_read? (by simp) endian _).trans (length_pieces ..)
  | bool => exact (length_filterMap_read? (by simp) endian _).trans (length_pieces ..)
  | integer width signed =>
    exact (length_filterMap_read? (by simp) endian _).trans (length_pieces ..)
  | real precision => exact (length_filterMap_read? (by simp) endian _).trans (length_pieces ..)

/-- How many values there are does not depend on the bytes, nor on their number. -/
theorem length_unpack (layout : Layout) (bytes : Bytes) :
    (layout.unpack bytes).length = layout.arity := by
  obtain ⟨convention, items⟩ := layout
  unfold unpack arity
  dsimp only
  induction items generalizing bytes with
  | nil => rfl
  | cons item items inductionHypothesis =>
    rw [unpackItems, List.length_append, length_unpack_item, inductionHypothesis, List.map_cons,
      List.foldr_cons]

end Layout

/-! ### What a registry makes of a payload -/

namespace Registry

/-- The index at the front of a payload. -/
def leadingIndex (payload : Bytes) : Nat := Bytes.ofLittleEndian (payload.take indexSize)

/-- The message that an entry makes of a body that is long enough. -/
def Entry.read (entry : Entry) (body : Bytes) : Except Fault (Message × Nat) :=
  match Message.fill entry.schema.fields (entry.layout.unpack body) with
  | .error failures => .error (.invalid entry.schema.name failures)
  | .ok fields => .ok (⟨entry.schema.name, fields⟩, indexSize + entry.layout.size)

variable {registry : Registry} {payload : Bytes} {entry : Entry}

theorem decode_of_lt (short : payload.length < indexSize) :
    registry.decode payload = .error (.shortIndex payload.length) := if_pos short

theorem decode_of_find?_eq_none (long : indexSize ≤ payload.length)
    (unknown : registry.find? (leadingIndex payload) = none) :
    registry.decode payload = .error (.unknownIndex (leadingIndex payload)) := by
  rw [leadingIndex] at unknown
  rw [decode, if_neg (Nat.not_lt.mpr long)]
  simp only [unknown, leadingIndex]

theorem decode_of_find? (long : indexSize ≤ payload.length)
    (known : registry.find? (leadingIndex payload) = some entry) :
    registry.decode payload =
      if payload.length < indexSize + entry.layout.size then
        .error (.shortBody entry.schema.name (indexSize + entry.layout.size) payload.length)
      else entry.read (payload.drop indexSize) := by
  rw [leadingIndex] at known
  rw [decode, if_neg (Nat.not_lt.mpr long)]
  simp only [known]
  rfl

/-- Only the entry under the leading index has a say. -/
theorem decode_congr {other : Registry}
    (same : other.find? (leadingIndex payload) = registry.find? (leadingIndex payload)) :
    other.decode payload = registry.decode payload := by
  unfold leadingIndex at same
  unfold decode
  simp only [same]

theorem leadingIndex_append (long : indexSize ≤ payload.length) (more : Bytes) :
    leadingIndex (payload ++ more) = leadingIndex payload := by
  rw [leadingIndex, List.take_append_of_le_length long, leadingIndex]

/-- More bytes change nothing unless the payload lacked some. -/
theorem decode_append
    (satisfied : ∀ fault, registry.decode payload = .error fault → fault.kind ≠ .unexpectedEnd)
    (more : Bytes) : registry.decode (payload ++ more) = registry.decode payload := by
  by_cases short : payload.length < indexSize
  · exact absurd rfl (satisfied _ (decode_of_lt short))
  · have long := Nat.not_lt.mp short
    have longer : indexSize ≤ (payload ++ more).length := by
      rw [List.length_append]
      omega
    have same := leadingIndex_append long more
    cases known : registry.find? (leadingIndex payload) with
    | none =>
      rw [decode_of_find?_eq_none long known, decode_of_find?_eq_none longer (same ▸ known), same]
    | some entry =>
      have answer := decode_of_find? long known
      by_cases cut : payload.length < indexSize + entry.layout.size
      · rw [if_pos cut] at answer
        exact absurd rfl (satisfied _ answer)
      · rw [if_neg cut] at answer
        have whole : entry.layout.size ≤ (payload.drop indexSize).length := by
          rw [List.length_drop]
          omega
        rw [answer, decode_of_find? longer (same ▸ known), if_neg, Entry.read,
          List.drop_append_of_le_length long, Layout.unpack_append whole, ← Entry.read]
        rw [List.length_append]
        omega

/-- The five ways in which a payload can come out, with what leads to each. -/
inductive Outcome (registry : Registry) (payload : Bytes) : Except Fault (Message × Nat) → Prop
  | shortIndex (short : payload.length < indexSize) :
      Outcome registry payload (.error (.shortIndex payload.length))
  | unknownIndex (long : indexSize ≤ payload.length)
      (unknown : registry.find? (leadingIndex payload) = none) :
      Outcome registry payload (.error (.unknownIndex (leadingIndex payload)))
  | shortBody (long : indexSize ≤ payload.length) {entry : Entry}
      (known : registry.find? (leadingIndex payload) = some entry)
      (short : payload.length < indexSize + entry.layout.size) :
      Outcome registry payload
        (.error (.shortBody entry.schema.name (indexSize + entry.layout.size) payload.length))
  | invalid {entry : Entry} (known : registry.find? (leadingIndex payload) = some entry)
      (enough : indexSize + entry.layout.size ≤ payload.length) {failures : List Message.Failure}
      (refused : Message.fill entry.schema.fields (entry.layout.unpack (payload.drop indexSize)) =
        .error failures) :
      Outcome registry payload (.error (.invalid entry.schema.name failures))
  | message {entry : Entry} (known : registry.find? (leadingIndex payload) = some entry)
      (enough : indexSize + entry.layout.size ≤ payload.length) {fields : List (String × Value)}
      (filled : Message.fill entry.schema.fields (entry.layout.unpack (payload.drop indexSize)) =
        .ok fields) :
      Outcome registry payload
        (.ok (⟨entry.schema.name, fields⟩, indexSize + entry.layout.size))

theorem outcome_decode (registry : Registry) (payload : Bytes) :
    registry.Outcome payload (registry.decode payload) := by
  by_cases short : payload.length < indexSize
  · rw [decode_of_lt short]
    exact .shortIndex short
  · have long := Nat.not_lt.mp short
    cases known : registry.find? (leadingIndex payload) with
    | none =>
      rw [decode_of_find?_eq_none long known]
      exact .unknownIndex long known
    | some entry =>
      rw [decode_of_find? long known]
      split
      case isTrue cut => exact .shortBody long known cut
      case isFalse whole =>
        have enough := Nat.not_lt.mp whole
        unfold Entry.read
        split
        case h_1 refused => exact .invalid known enough refused
        case h_2 filled => exact .message known enough filled

/-- A registry knows no faults but these two kinds. -/
theorem kind_of_decode {fault : Fault} (failed : registry.decode payload = .error fault) :
    fault.kind = .unexpectedEnd ∨ fault.kind = .malformed := by
  have outcome := registry.outcome_decode payload
  rw [failed] at outcome
  cases outcome with
  | shortIndex => exact Or.inl rfl
  | unknownIndex => exact Or.inr rfl
  | shortBody => exact Or.inl rfl
  | invalid => exact Or.inr rfl

/-- The faults of a registry are about the payload. -/
theorem isDecode_of_decode {fault : Fault} (failed : registry.decode payload = .error fault) :
    fault.isDecode = true := by
  unfold Fault.isDecode
  rcases kind_of_decode failed with kind | kind
  · rw [kind]
    rfl
  · rw [kind]
    rfl

end Registry

end ZeroFrame

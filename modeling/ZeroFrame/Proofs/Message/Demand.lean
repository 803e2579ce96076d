/-
This file says how many bytes of a payload a registry asks for, and that it reads these alone.

What it asks for is told by the index at the front: the two bytes of the index itself, and after
them the layout of the entry that is found, if there is one. A payload that is shorter lacks data,
and only such a payload does. Every other payload is decoded as its first bytes are, however
many follow them, and no part of these bytes would do.
-/

import ZeroFrame.Proofs.Message.Registration

namespace ZeroFrame.Registry

variable {registry : Registry} {payload : Bytes} {entry : Entry} {count : Nat}

/-! ### The bytes that are asked for -/

/-- The outcome is that there is not enough data. -/
def Lacks {α : Type} (outcome : Except Fault α) : Prop :=
  ∃ fault, outcome = .error fault ∧ fault.kind = .unexpectedEnd

/-- How many bytes the payload must have. -/
def demand (registry : Registry) (payload : Bytes) : Nat :=
  if payload.length < indexSize then indexSize
  else
    match registry.find? (leadingIndex payload) with
    | none => indexSize
    | some entry => indexSize + entry.layout.size

theorem demand_of_lt (short : payload.length < indexSize) :
    registry.demand payload = indexSize := if_pos short

theorem demand_of_find?_eq_none (long : indexSize ≤ payload.length)
    (unknown : registry.find? (leadingIndex payload) = none) :
    registry.demand payload = indexSize := by
  rw [demand, if_neg (Nat.not_lt.mpr long), unknown]

theorem demand_of_find? (long : indexSize ≤ payload.length)
    (known : registry.find? (leadingIndex payload) = some entry) :
    registry.demand payload = indexSize + entry.layout.size := by
  rw [demand, if_neg (Nat.not_lt.mpr long), known]

theorem indexSize_le_demand (registry : Registry) (payload : Bytes) :
    indexSize ≤ registry.demand payload := by
  unfold demand
  split
  case isTrue => exact Nat.le_refl _
  case isFalse =>
    split
    case h_1 => exact Nat.le_refl _
    case h_2 => exact Nat.le_add_right _ _

/-- Only the bytes of the index tell how many are asked for. -/
theorem demand_take (long : indexSize ≤ payload.length) (index : indexSize ≤ count) :
    registry.demand (payload.take count) = registry.demand payload := by
  have same : leadingIndex (payload.take count) = leadingIndex payload := by
    rw [leadingIndex, List.take_take, Nat.min_eq_left index, leadingIndex]
  have longer : indexSize ≤ (payload.take count).length := by
    rw [List.length_take]
    exact Nat.le_min.mpr ⟨index, long⟩
  rw [demand, demand, if_neg (Nat.not_lt.mpr longer), if_neg (Nat.not_lt.mpr long), same]

/-! ### Lack of data -/

/-- Data is lacking exactly if there are fewer bytes than are asked for. -/
theorem lacks_decode_iff (registry : Registry) (payload : Bytes) :
    Lacks (registry.decode payload) ↔ payload.length < registry.demand payload := by
  have outcome := registry.outcome_decode payload
  generalize registry.decode payload = result at outcome
  cases outcome with
  | shortIndex short =>
    rw [demand_of_lt short]
    exact iff_of_true ⟨_, rfl, rfl⟩ short
  | unknownIndex long unknown =>
    rw [demand_of_find?_eq_none long unknown]
    exact iff_of_false nofun (Nat.not_lt.mpr long)
  | shortBody long known short =>
    rw [demand_of_find? long known]
    exact iff_of_true ⟨_, rfl, rfl⟩ short
  | invalid known enough refused =>
    rw [demand_of_find? (le_of_add_le_left enough) known]
    exact iff_of_false nofun (Nat.not_lt.mpr enough)
  | message known enough filled =>
    rw [demand_of_find? (le_of_add_le_left enough) known]
    exact iff_of_false nofun (Nat.not_lt.mpr enough)

theorem lacks_decode_take (few : count < registry.demand payload) :
    Lacks (registry.decode (payload.take count)) := by
  rw [lacks_decode_iff]
  by_cases short : (payload.take count).length < indexSize
  · exact Nat.lt_of_lt_of_le short (indexSize_le_demand _ _)
  · rw [List.length_take, Nat.not_lt, Nat.le_min] at short
    rw [demand_take short.2 short.1]
    exact Nat.lt_of_le_of_lt (List.length_take_le ..) few

/-! ### The bytes that are read -/

/-- What follows the bytes that are asked for is not looked at. -/
theorem decode_take_demand (enough : registry.demand payload ≤ payload.length) :
    registry.decode (payload.take (registry.demand payload)) = registry.decode payload := by
  have index := indexSize_le_demand registry payload
  have satisfied : ¬Lacks (registry.decode (payload.take (registry.demand payload))) := by
    rw [lacks_decode_iff, demand_take (index.trans enough) index, List.length_take_of_le enough]
    exact Nat.lt_irrefl _
  have more := decode_append (fun fault failed kind => satisfied ⟨fault, failed, kind⟩)
    (payload.drop (registry.demand payload))
  rw [List.take_append_drop] at more
  exact more.symm

/-- The bytes that a message took are those that were asked for, and they were there. -/
theorem demand_of_decode {message : Message} {used : Nat}
    (done : registry.decode payload = .ok (message, used)) :
    registry.demand payload = used ∧ used ≤ payload.length := by
  have outcome := registry.outcome_decode payload
  rw [done] at outcome
  cases outcome with
  | message known enough => exact ⟨demand_of_find? (le_of_add_le_left enough) known, enough⟩

/-! ### Registries that are built by calls -/

/-- A payload that is long enough for an index is asked for more exactly if a schema is registered
under the index, and then for the bytes of its format. -/
theorem Sound.lt_demand_iff {schemas : List Schema} (sound : Sound schemas registry)
    (payload : Bytes) :
    payload.length < registry.demand payload ↔
      payload.length < 2 ∨ ∃ entry ∈ registry.entries, ∃ layout,
        entry.schema.index = some (leadingIndex payload : Int) ∧
          entry.schema.layout = .ok layout ∧ payload.length < 2 + layout.size := by
  by_cases short : payload.length < indexSize
  · rw [demand_of_lt short]
    exact iff_of_true short (Or.inl short)
  · have long := Nat.not_lt.mp short
    constructor
    · intro few
      refine Or.inr ?_
      cases known : registry.find? (leadingIndex payload) with
      | none =>
        rw [demand_of_find?_eq_none long known] at few
        exact absurd few short
      | some entry =>
        rw [demand_of_find? long known] at few
        have member := List.mem_of_find?_eq_some known
        have same : entry.index = leadingIndex payload := by simpa using List.find?_some known
        have lawful := (sound.entries entry member).1
        exact ⟨entry, member, entry.layout, same ▸ lawful.index, lawful.layout, few⟩
    · rintro (few | ⟨entry, member, layout, index, laid, few⟩)
      · exact absurd few short
      · have lawful := (sound.entries entry member).1
        obtain rfl := Except.ok.inj (lawful.layout.symm.trans laid)
        have same : entry.index = leadingIndex payload :=
          Int.natCast_inj.mp (Option.some.inj (lawful.index.symm.trans index))
        rw [demand_of_find? long (same ▸ sound.find?_of_mem member)]
        exact few

/-- Whatever schemas are to be registered, in whatever order and however many of the calls fail:
data is lacking exactly if a payload has no room for an index, or if a schema is registered under
its index and it has no room for the body of that schema. Under an index that is not registered
it is malformed, however short it is after that. A payload that does not lack data is decoded in
the same way with any bytes after it. A message took at least the index and at most the payload;
the bytes it took give the same message by themselves, and with fewer of them data is lacking. -/
theorem decode_reads_least_prefix (memory : Memory) (schemas : List Schema) (payload : Bytes) :
    let registry := empty.run memory schemas
    (Lacks (registry.decode payload) ↔
      payload.length < 2 ∨ ∃ entry ∈ registry.entries, ∃ layout,
        entry.schema.index = some (leadingIndex payload : Int) ∧
          entry.schema.layout = .ok layout ∧ payload.length < 2 + layout.size) ∧
      (2 ≤ payload.length → registry.contains (leadingIndex payload) = false →
        ∃ fault, registry.decode payload = .error fault ∧
          fault = .unknownIndex (leadingIndex payload) ∧ fault.kind = .malformed) ∧
      (¬Lacks (registry.decode payload) →
        (∀ more, registry.decode (payload ++ more) = registry.decode payload) ∧
          ∀ fault, registry.decode payload = .error fault → fault.kind = .malformed) ∧
      ∀ message used, registry.decode payload = .ok (message, used) →
        2 ≤ used ∧ used ≤ payload.length ∧
          registry.decode (payload.take used) = .ok (message, used) ∧
          ∀ count < used, Lacks (registry.decode (payload.take count)) := by
  intro registry
  refine ⟨?_, ?_, ?_, ?_⟩
  · rw [lacks_decode_iff]
    exact (Sound.start.run memory schemas).lt_demand_iff payload
  · intro long unknown
    rw [contains_eq_find?, Option.isSome_eq_false_iff, Option.isNone_iff_eq_none] at unknown
    exact ⟨_, decode_of_find?_eq_none long unknown, rfl, rfl⟩
  · intro satisfied
    refine ⟨decode_append fun fault failed kind => satisfied ⟨fault, failed, kind⟩, ?_⟩
    intro fault failed
    exact (kind_of_decode failed).resolve_left fun kind => satisfied ⟨fault, failed, kind⟩
  · intro message used done
    obtain ⟨rfl, enough⟩ := demand_of_decode done
    exact ⟨indexSize_le_demand .., enough, (decode_take_demand enough).trans done,
      fun count few => lacks_decode_take few⟩

theorem decode_reads_least_prefix_trailing :
    let registry := empty.run .boundless
      [⟨"Ping", some 7, "H", [⟨"number", .int ⟨none, none, none, none⟩⟩]⟩]
    let message : Message := ⟨"Ping", [("number", .int 300)]⟩
    registry.decode [7, 0, 0x2c, 1] = .ok (message, 4) ∧
      (∀ count < 4, Lacks (registry.decode (List.take count [7, 0, 0x2c, 1, 9]))) ∧
      ∀ more, registry.decode ([7, 0, 0x2c, 1, 9] ++ more) = .ok (message, 4) := by
  intro registry message
  have done : registry.decode [7, 0, 0x2c, 1, 9] = .ok (message, 4) := rfl
  obtain ⟨_, _, later, taken⟩ := decode_reads_least_prefix .boundless
    [⟨"Ping", some 7, "H", [⟨"number", .int ⟨none, none, none, none⟩⟩]⟩] [7, 0, 0x2c, 1, 9]
  obtain ⟨_, _, alone, fewer⟩ := taken message 4 done
  refine ⟨alone, fewer, fun more => ((later ?_).1 more).trans done⟩
  rintro ⟨fault, failed, _⟩
  cases done.symm.trans failed

end ZeroFrame.Registry

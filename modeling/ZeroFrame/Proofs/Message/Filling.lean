/-
This file shows that every field of a message is filled with one value of its own.

A registry checks how many values a layout has only once, when it registers the schema, and it
puts values into fields without looking whether some of either are left over. The strict decoder
looks at every step: the bytes may end within an index or a layout, and a field may have no value
or a value no field. It gets through whatever the payload is, because the number of values does
not depend on the bytes, and it comes to the same as the registry. So a registry knows no faults
but the two kinds that it reports.
-/

import ZeroFrame.Proofs.Layout.Strict
import ZeroFrame.Proofs.Message.Inheritance
import ZeroFrame.Proofs.Message.Registration

namespace ZeroFrame

/-! ### Fields with their values -/

namespace Message

variable {fields : List Field} {values : List Value} {pairs : List (Field × Value)}
  {results : List (Except Failure (String × Value))} {contents : List (String × Value)}
  {failures : List Failure}

/-- Each field with the value that falls to it, unless a field or a value is left over. -/
def pair? : List Field → List Value → Option (List (Field × Value))
  | [], [] => some []
  | field :: fields, value :: values => (pair? fields values).map ((field, value) :: ·)
  | [], _ :: _ => none
  | _ :: _, [] => none

theorem pair?_of_length_eq (same : values.length = fields.length) :
    pair? fields values = some (fields.zip values) := by
  induction fields generalizing values with
  | nil =>
    obtain rfl := List.eq_nil_of_length_eq_zero same
    rfl
  | cons field fields inductionHypothesis =>
    cases values with
    | nil => cases same
    | cons value values =>
      rw [pair?, inductionHypothesis (Nat.succ.inj same)]
      rfl

/-! ### What the fields come to -/

/-- What some fields come to: the contents of all, or the failures among them. -/
def gather (results : List (Except Failure (String × Value))) :
    Except (List Failure) (List (String × Value)) :=
  match failuresOf results with
  | [] => .ok (results.filterMap (·.toOption))
  | failures => .error failures

theorem fill_eq_gather (fields : List Field) (values : List Value) :
    fill fields values =
      gather ((fields.zip values).map fun (field, value) => field.accept value) := by
  rw [List.map_zip_eq_zipWith]
  rfl

theorem failuresOf_eq_nil_iff :
    failuresOf results = [] ↔ ∃ contents : List (String × Value), results = contents.map .ok := by
  constructor
  · intro sound
    refine ⟨results.filterMap (·.toOption), ?_⟩
    induction results with
    | nil => rfl
    | cons result results inductionHypothesis =>
      cases result with
      | error failure => cases sound
      | ok content => exact congrArg (.ok content :: ·) (inductionHypothesis sound)
  · rintro ⟨contents, rfl⟩
    rw [failuresOf, List.filterMap_map]
    exact List.filterMap_eq_nil_iff.mpr fun _ _ => rfl

theorem gather_map_ok (contents : List (String × Value)) :
    gather (contents.map .ok) = .ok contents := by
  rw [gather, failuresOf_eq_nil_iff.mpr ⟨contents, rfl⟩, List.filterMap_map]
  exact congrArg Except.ok List.filterMap_some

theorem gather_eq_ok_iff : gather results = .ok contents ↔ results = contents.map .ok := by
  constructor
  · intro done
    cases failed : failuresOf results with
    | nil =>
      obtain ⟨others, rfl⟩ := failuresOf_eq_nil_iff.mp failed
      rw [gather_map_ok] at done
      rw [Except.ok.inj done]
    | cons failure failures =>
      rw [gather, failed] at done
      cases done
  · rintro rfl
    exact gather_map_ok contents

theorem gather_eq_error_iff :
    gather results = .error failures ↔ failuresOf results = failures ∧ failures ≠ [] := by
  unfold gather
  cases failed : failuresOf results with
  | nil => exact iff_of_false nofun fun ⟨same, nonempty⟩ => nonempty same.symm
  | cons failure others =>
    constructor
    · intro refused
      obtain rfl := Except.error.inj refused
      exact ⟨rfl, List.cons_ne_nil _ _⟩
    · rintro ⟨rfl, _⟩
      rfl

/-- Fields that are filled hold, each in its place, what they made of the values. -/
theorem getElem?_of_fill (filled : fill fields values = .ok contents) {place : Nat} {field : Field}
    {value : Value} (own : fields[place]? = some field) (given : values[place]? = some value) :
    ∃ content, field.accept value = .ok content ∧ contents[place]? = some content := by
  rw [fill_eq_gather, gather_eq_ok_iff] at filled
  have both : (fields.zip values)[place]? = some (field, value) :=
    List.getElem?_zip_eq_some.mpr ⟨own, given⟩
  have result := congrArg (·[place]?) filled
  rw [List.getElem?_map, both, List.getElem?_map] at result
  cases found : contents[place]? with
  | none =>
    rw [found] at result
    cases result
  | some content =>
    rw [found] at result
    exact ⟨content, Option.some.inj result, rfl⟩

theorem name_of_accept {field : Field} {value : Value} {content : String × Value}
    (accepted : field.accept value = .ok content) : content.1 = field.name := by
  unfold Field.accept at accepted
  split at accepted
  case h_1 =>
    obtain rfl := Except.ok.inj accepted
    rfl
  case h_2 => cases accepted

/-- The contents of a message have the names of its fields, in order. -/
theorem map_fst_of_fill (same : values.length = fields.length)
    (filled : fill fields values = .ok contents) :
    contents.map Prod.fst = fields.map Field.name := by
  rw [fill_eq_gather, gather_eq_ok_iff] at filled
  have pairs : (fields.zip values).map Prod.fst = fields := List.map_fst_zip same.ge
  rw [← pairs, List.map_map]
  generalize fields.zip values = pairs at filled
  induction pairs generalizing contents with
  | nil =>
    obtain rfl := List.map_eq_nil_iff.mp filled.symm
    rfl
  | cons pair pairs inductionHypothesis =>
    obtain ⟨content, others, rfl, first, rest⟩ := List.map_eq_cons_iff.mp filled.symm
    rw [List.map_cons, List.map_cons, inductionHypothesis rest.symm, name_of_accept first.symm]
    rfl

/-- Whether a field of the type holds the value as it is. -/
def FieldType.Keeps (type : FieldType) (value : Value) : Prop := type.accept value = .ok value

/-- Fields that keep their values are filled with them, in order. -/
theorem fill_of_keeps (kept : List.Forall₂ FieldType.Keeps (fields.map Field.type) values) :
    fill fields values = .ok ((fields.map Field.name).zip values) := by
  have results : ((fields.zip values).map fun (field, value) => field.accept value) =
      ((fields.map Field.name).zip values).map .ok := by
    rw [List.forall₂_map_left_iff] at kept
    induction kept with
    | nil => rfl
    | cons first others inductionHypothesis =>
      rw [List.zip_cons_cons, List.map_cons, inductionHypothesis]
      dsimp only
      rw [Field.accept, first]
      rfl
  rw [fill_eq_gather, results, gather_map_ok]

end Message

/-! ### The strict decoder -/

namespace Registry

open Message

variable {registry : Registry} {payload : Bytes} {entry : Entry}

/-- The message that an entry makes of a body, unless the bytes end within the layout or a field
or a value is left over. -/
def Entry.read? (entry : Entry) (body : Bytes) : Option (Except Fault (Message × Nat)) := do
  let values ← entry.layout.unpack? body
  let pairs ← pair? entry.schema.fields values
  return match gather (pairs.map fun (field, value) => field.accept value) with
    | .error failures => .error (.invalid entry.schema.name failures)
    | .ok fields => .ok (⟨entry.schema.name, fields⟩, indexSize + entry.layout.size)

/-- The message that a payload holds, unless a step fails without a fault of its own. -/
def decode? (registry : Registry) (payload : Bytes) : Option (Except Fault (Message × Nat)) :=
  if payload.length < indexSize then some (.error (.shortIndex payload.length))
  else do
    let (digits, body) ← Layout.cut? indexSize payload
    match registry.find? (Bytes.ofLittleEndian digits) with
    | none => return .error (.unknownIndex (Bytes.ofLittleEndian digits))
    | some entry =>
      if payload.length < indexSize + entry.layout.size then
        return .error
          (.shortBody entry.schema.name (indexSize + entry.layout.size) payload.length)
      else entry.read? body

/-- A sound entry gives each of its fields a value, if it has the bytes for it. -/
theorem Entry.Sound.read?_eq (sound : entry.Sound) {body : Bytes}
    (enough : entry.layout.size ≤ body.length) : entry.read? body = some (entry.read body) := by
  unfold Entry.read? Entry.read
  rw [Layout.unpack?_of_le enough, Option.bind_eq_bind, Option.bind_some,
    pair?_of_length_eq (sound.arity body), Option.bind_eq_bind, Option.bind_some, fill_eq_gather]
  rfl

/-- No step fails in a registry of sound entries. -/
theorem Sound.decode?_eq {schemas : List Schema} (sound : Sound schemas registry)
    (payload : Bytes) : registry.decode? payload = some (registry.decode payload) := by
  unfold decode?
  by_cases short : payload.length < indexSize
  · rw [if_pos short, decode_of_lt short]
  · have long := Nat.not_lt.mp short
    rw [if_neg short, Layout.cut?, if_pos long, Option.bind_eq_bind, Option.bind_some]
    change (match registry.find? (leadingIndex payload) with | none => _ | some entry => _) = _
    cases known : registry.find? (leadingIndex payload) with
    | none =>
      rw [decode_of_find?_eq_none long known]
      rfl
    | some entry =>
      rw [decode_of_find? long known]
      dsimp only
      split
      case isTrue => rfl
      case isFalse whole =>
        refine (sound.entries entry (List.mem_of_find?_eq_some known)).1.read?_eq ?_
        rw [List.length_drop]
        omega

/-- Whatever schemas are to be registered, in whatever order and however many of the calls fail:
the strict decoder gets through every payload and comes to the same as the registry, which is a
message or a fault of one of two kinds. Bytes of the size of a layout have as many values as the
same number of zeros has, and this is the number that was compared with that of the fields when
the schema was registered. A message has the fields of its schema by name, those of an extended
schema first, and each field holds what it made of the value in its place. -/
theorem decode_fills_every_field (memory : Memory) (schemas : List Schema) :
    let registry := empty.run memory schemas
    (∀ payload, registry.decode? payload = some (registry.decode payload) ∧
      ((∃ message used, registry.decode payload = .ok (message, used)) ∨
        ∃ fault, registry.decode payload = .error fault ∧
          (fault.kind = .unexpectedEnd ∨ fault.kind = .malformed))) ∧
      (∀ entry ∈ registry.entries, ∀ body : Bytes, body.length = entry.layout.size →
        ∃ values zeros, entry.layout.unpack? body = some values ∧
          entry.layout.unpack? (List.replicate entry.layout.size 0) = some zeros ∧
          values.length = zeros.length ∧ zeros.length = entry.layout.arity ∧
          zeros.length = entry.schema.fields.length) ∧
      ∀ payload message used, registry.decode payload = .ok (message, used) →
        ∃ entry ∈ registry.entries, ∃ values,
          registry.find? (leadingIndex payload) = some entry ∧
          entry.layout.unpack? (payload.drop 2) = some values ∧
          values.length = entry.schema.fields.length ∧
          message.name = entry.schema.name ∧
          message.fields.map Prod.fst = entry.schema.fields.map Field.name ∧
          (∀ (definition : Schema.Definition) extended, entry.schema = definition.over extended →
            extended.fields.map Field.name <+: message.fields.map Prod.fst) ∧
          ∀ (place : Nat) field value, entry.schema.fields[place]? = some field →
            values[place]? = some value →
              ∃ content, field.accept value = .ok content ∧ content.1 = field.name ∧
                message.fields[place]? = some content := by
  intro registry
  have sound : Sound ([] ++ schemas) registry := Sound.start.run memory schemas
  refine ⟨fun payload => ⟨sound.decode?_eq payload, ?_⟩, ?_, ?_⟩
  · cases outcome : registry.decode payload with
    | error fault => exact Or.inr ⟨fault, rfl, kind_of_decode outcome⟩
    | ok result => exact Or.inl ⟨result.1, result.2, rfl⟩
  · intro entry member body sized
    have arity := (sound.entries entry member).1.arity
    have zeros : (List.replicate entry.layout.size (0 : UInt8)).length = entry.layout.size :=
      List.length_replicate
    exact ⟨_, _, Layout.unpack?_of_le sized.ge, Layout.unpack?_of_le zeros.ge,
      (arity _).trans (arity _).symm, Layout.length_unpack .., arity _⟩
  · intro payload message used done
    have outcome := registry.outcome_decode payload
    rw [done] at outcome
    cases outcome with
    | @message entry known enough contents filled =>
      have member := List.mem_of_find?_eq_some known
      have arity := (sound.entries _ member).1.arity (payload.drop indexSize)
      have body : entry.layout.size ≤ (payload.drop 2).length := by
        rw [List.length_drop]
        exact Nat.le_sub_of_add_le' enough
      have names := map_fst_of_fill arity filled
      refine ⟨entry, member, _, known, Layout.unpack?_of_le body, arity, rfl, names, ?_, ?_⟩
      · intro definition extended defined
        have inherited := definition.prefix_over extended
        rwa [← defined, ← names] at inherited
      · intro place field value own given
        obtain ⟨content, accepted, placed⟩ := getElem?_of_fill filled own given
        exact ⟨content, accepted, name_of_accept accepted, placed⟩

theorem decode_fills_every_field_inherited :
    let station : Schema.Definition :=
      ⟨"Station", none, none, [⟨"level", .int ⟨none, none, none, none⟩⟩], none⟩
    let probe : Schema.Definition :=
      ⟨"Probe", some (some 5), some "Bh", [⟨"offset", .int ⟨none, none, none, none⟩⟩], some 0⟩
    let registry := empty.run .boundless (Schema.ofDefinitions [station, probe])
    registry.decode [5, 0, 7, 0xfe, 0xff, 9] =
        .ok (⟨"Probe", [("level", .int 7), ("offset", .int (-2))]⟩, 5) ∧
      ["level"] <+: ["level", "offset"] ∧
      ∃ entry, registry.find? 5 = some entry ∧
        entry.schema.fields.map Field.name = ["level", "offset"] := by
  have run : empty.run .boundless (Schema.ofDefinitions
      [⟨"Station", none, none, [⟨"level", .int ⟨none, none, none, none⟩⟩], none⟩,
        ⟨"Probe", some (some 5), some "Bh", [⟨"offset", .int ⟨none, none, none, none⟩⟩],
          some 0⟩]) =
      ⟨[⟨5, ⟨"Probe", some 5, "Bh", [⟨"level", .int ⟨none, none, none, none⟩⟩,
        ⟨"offset", .int ⟨none, none, none, none⟩⟩]⟩,
        ⟨⟨.little, false⟩, [⟨1, .integer 1 false⟩, ⟨1, .integer 2 true⟩]⟩⟩]⟩ := rfl
  intro station probe registry
  have done : registry.decode [5, 0, 7, 0xfe, 0xff, 9] =
      .ok (⟨"Probe", [("level", .int 7), ("offset", .int (-2))]⟩, 5) := by
    rw [show registry = _ from run]
    rfl
  obtain ⟨entry, _, _, known, _, _, _, names, inherited, _⟩ :=
    (decode_fills_every_field .boundless (Schema.ofDefinitions [station, probe])).2.2 _ _ _ done
  have defined : entry.schema = probe.over (station.over Schema.base) := by
    rw [run] at known
    obtain rfl := Option.some.inj known
    rfl
  exact ⟨done, inherited probe _ defined, entry, known, names.symm⟩

/-- In a registry that no calls build, a value can be left over. -/
example :
    let entry : Entry := ⟨5, ⟨"Bare", some 5, "B", []⟩, ⟨⟨.little, false⟩, [⟨1, .integer 1 false⟩]⟩⟩
    (decode? ⟨[entry]⟩ [5, 0, 7]).isNone = true := rfl

end Registry

end ZeroFrame

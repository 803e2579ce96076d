/-
This file shows what registrations make of a registry, also the ones that fail.

A registration checks the schema step by step, and each check can end it with a fault. Only
when all have passed, an entry is added at the end, under an index that was free. So a fault
leaves the registry as it was, and what is registered stays: an entry is found under its
index whatever is registered later. Payloads with another index do not see the difference.
-/

import ZeroFrame.Proofs.Bytes.Numeral
import ZeroFrame.Proofs.Message.Reading

namespace ZeroFrame.Registry

/-! ### Registration in place -/

/-- Gives a schema an index in place, unless the index has an owner or there can be no entry. -/
def enlist (memory : Memory) (schema : Schema) (index : Nat) :
    Option Entry → ExceptT Fault (StateM Registry) Unit
  | some owner => throw (.schema schema.name (.indexTaken index owner.schema.name))
  | none => do
    let entry ← MonadExcept.ofExcept (entryAt memory index schema)
    modify fun registry => ⟨registry.entries ++ [entry]⟩

/-- Registers a schema in place. The checks come one after the other, and each may raise a fault;
the registry is changed last. -/
def enter (memory : Memory) (schema : Schema) : ExceptT Fault (StateM Registry) Unit := do
  let index ← MonadExcept.ofExcept (indexOf schema)
  enlist memory schema index ((← get).find? index)

/-- What a call comes to that registers a schema, and the registry afterwards. -/
def call (registry : Registry) (memory : Memory) (schema : Schema) :
    Except Fault Unit × Registry :=
  (enter memory schema).run.run registry

/-- The registry after some calls, whatever they come to. -/
def run (registry : Registry) (memory : Memory) (schemas : List Schema) : Registry :=
  schemas.foldl (fun registry schema => (registry.call memory schema).2) registry

variable {memory : Memory} {registry next : Registry} {schema : Schema} {schemas : List Schema}
  {fault : Fault}

/-- In place or not, a registration comes to the same. -/
theorem call_eq (registry : Registry) (memory : Memory) (schema : Schema) :
    registry.call memory schema =
      match registry.register memory schema with
      | .ok next => (.ok (), next)
      | .error fault => (.error fault, registry) := by
  unfold call enter register entryFor
  cases indexOf schema with
  | error fault => rfl
  | ok index =>
    change (enlist memory schema index (registry.find? index)).run.run registry = _
    dsimp only
    cases registry.find? index with
    | some owner => rfl
    | none =>
      unfold enlist
      cases entryAt memory index schema with
      | error fault => rfl
      | ok entry => rfl

theorem call_of_register (done : registry.register memory schema = .ok next) :
    registry.call memory schema = (.ok (), next) := by
  rw [call_eq, done]

theorem call_of_error (failed : registry.register memory schema = .error fault) :
    registry.call memory schema = (.error fault, registry) := by
  rw [call_eq, failed]

theorem run_cons (registry : Registry) (memory : Memory) (schema : Schema)
    (schemas : List Schema) :
    registry.run memory (schema :: schemas) =
      (registry.call memory schema).2.run memory schemas := rfl

/-- The first call, and the others on the registry that it leaves. -/
theorem forall_append_cons_iff {holds : List Schema → Schema → Prop} :
    (∀ before later after, schema :: schemas = before ++ later :: after → holds before later) ↔
      holds [] schema ∧
        ∀ before later after, schemas = before ++ later :: after →
          holds (schema :: before) later := by
  constructor
  · intro all
    refine ⟨all [] schema schemas rfl, fun before later after split => ?_⟩
    exact all (schema :: before) later after (congrArg _ split)
  · rintro ⟨first, others⟩ before later after split
    cases before with
    | nil =>
      obtain ⟨rfl, -⟩ := List.cons.inj split
      exact first
    | cons head before =>
      obtain ⟨rfl, rest⟩ := List.cons.inj split
      exact others before later after rest

theorem exists_append_cons_iff {holds : List Schema → Schema → Prop} :
    (∃ before later after, schema :: schemas = before ++ later :: after ∧ holds before later) ↔
      holds [] schema ∨
        ∃ before later after, schemas = before ++ later :: after ∧
          holds (schema :: before) later := by
  constructor
  · rintro ⟨before, later, after, split, held⟩
    cases before with
    | nil =>
      obtain ⟨rfl, -⟩ := List.cons.inj split
      exact Or.inl held
    | cons head before =>
      obtain ⟨rfl, rest⟩ := List.cons.inj split
      exact Or.inr ⟨before, later, after, rest, held⟩
  · rintro (first | ⟨before, later, after, rfl, held⟩)
    · exact ⟨[], schema, schemas, rfl, first⟩
    · exact ⟨schema :: before, later, after, rfl, held⟩

/-- Schemas are registered at once exactly if no call fails, and then as the calls would do it. -/
theorem foldlM_eq_ok_iff :
    schemas.foldlM (·.register memory ·) registry = .ok next ↔
      registry.run memory schemas = next ∧
        ∀ before schema after, schemas = before ++ schema :: after →
          ((registry.run memory before).call memory schema).1 = .ok () := by
  induction schemas generalizing registry with
  | nil =>
    refine (Except.ok.injEq registry next).to_iff.trans (and_iff_left ?_).symm
    intro before schema after split
    exact absurd split.symm (List.append_ne_nil_of_right_ne_nil _ (List.cons_ne_nil _ _))
  | cons schema schemas inductionHypothesis =>
    rw [List.foldlM_cons, run_cons, forall_append_cons_iff]
    cases outcome : registry.register memory schema with
    | error fault =>
      refine iff_of_false nofun fun both => ?_
      have first : (registry.call memory schema).1 = .ok () := both.2.1
      rw [call_of_error outcome] at first
      cases first
    | ok middle =>
      have first : (registry.call memory schema).1 = .ok () := by rw [call_of_register outcome]
      have rest (before : List Schema) :
          registry.run memory (schema :: before) = middle.run memory before := by
        rw [run_cons, call_of_register outcome]
      simp only [rest, call_of_register outcome]
      refine (@inductionHypothesis middle).trans (and_congr_right fun _ => ?_)
      exact (and_iff_right first).symm

/-- Schemas are not registered at once exactly if a call fails, and the first one that does says
why. -/
theorem foldlM_eq_error_iff :
    schemas.foldlM (·.register memory ·) registry = .error fault ↔
      ∃ before schema after, schemas = before ++ schema :: after ∧
        before.foldlM (·.register memory ·) registry = .ok (registry.run memory before) ∧
        ((registry.run memory before).call memory schema).1 = .error fault := by
  induction schemas generalizing registry with
  | nil =>
    refine iff_of_false nofun ?_
    rintro ⟨before, schema, after, split, _⟩
    exact absurd split.symm (List.append_ne_nil_of_right_ne_nil _ (List.cons_ne_nil _ _))
  | cons schema schemas inductionHypothesis =>
    have rest (before : List Schema) :
        registry.run memory (schema :: before) =
          (registry.call memory schema).2.run memory before := rfl
    have first (before : List Schema) :
        (schema :: before).foldlM (·.register memory ·) registry =
          (registry.register memory schema).bind (before.foldlM (·.register memory ·)) := rfl
    rw [first, exists_append_cons_iff]
    simp only [rest, first]
    cases outcome : registry.register memory schema with
    | error other =>
      have failed : (registry.call memory schema).1 = .error other := by
        rw [call_of_error outcome]
      refine Iff.trans ?_ (or_iff_left ?_).symm
      · refine Iff.trans ?_ (and_iff_right rfl).symm
        change _ ↔ (registry.call memory schema).1 = .error fault
        rw [failed, Except.error.injEq]
        exact (Except.error.injEq ..).to_iff
      · rintro ⟨_, _, _, _, begun, _⟩
        cases begun
    | ok middle =>
      simp only [call_of_register outcome]
      refine (@inductionHypothesis middle).trans (or_iff_right ?_).symm
      rintro ⟨_, failed⟩
      change (registry.call memory schema).1 = .error fault at failed
      rw [call_of_register outcome] at failed
      cases failed

/-! ### What a registration adds -/

/-- What holds of every entry: its index can be written in two bytes and is that of its schema, and
its layout is that of the schema and has a value for each of its fields, whatever the bytes. No
counted text of the layout is without its length byte. -/
structure Entry.Sound (entry : Entry) : Prop where
  range : entry.index ≤ 65535
  index : entry.schema.index = some (entry.index : Int)
  layout : entry.schema.layout = .ok entry.layout
  arity : ∀ bytes, (entry.layout.unpack bytes).length = entry.schema.fields.length
  sized : ⟨0, .counted⟩ ∉ entry.layout.items

theorem index_of_indexOf {index : Nat} (given : indexOf schema = .ok index) :
    schema.index = some (index : Int) ∧ index ≤ 65535 := by
  unfold indexOf at given
  split at given
  case h_1 => cases given
  case h_2 number same =>
    split at given
    case isFalse => cases given
    case isTrue bounds =>
      obtain rfl := Except.ok.inj given
      rw [same, Int.toNat_of_nonneg bounds.1]
      unfold indexLimit at bounds
      exact ⟨rfl, by omega⟩

theorem of_entryAt {index : Nat} {entry : Entry} (built : entryAt memory index schema = .ok entry) :
    entry.index = index ∧ entry.schema = schema ∧ schema.layout = .ok entry.layout ∧
      entry.layout.arity = schema.fields.length ∧ ⟨0, .counted⟩ ∉ entry.layout.items := by
  unfold entryAt at built
  split at built
  case h_1 => cases built
  case h_2 layout laid =>
    split at built
    case h_1 => cases built
    case h_2 =>
      split at built
      case isTrue => cases built
      case isFalse sized =>
        split at built
        case isFalse => cases built
        case isTrue arity =>
          obtain rfl := Except.ok.inj built
          exact ⟨rfl, rfl, laid, arity, Layout.any_isHollow_iff.not.mp sized⟩

/-- A registration that does not fail adds a sound entry under an index that was free. -/
theorem exists_of_register (done : registry.register memory schema = .ok next) :
    ∃ entry : Entry, entry.Sound ∧ entry.schema = schema ∧ registry.find? entry.index = none ∧
      next = ⟨registry.entries ++ [entry]⟩ := by
  unfold register entryFor at done
  cases given : indexOf schema with
  | error fault =>
    rw [given] at done
    cases done
  | ok index =>
    cases found : registry.find? index with
    | some owner =>
      simp only [given, found] at done
      cases done
    | none =>
      cases built : entryAt memory index schema with
      | error fault =>
        simp only [given, found, built] at done
        cases done
      | ok entry =>
        simp only [given, found, built] at done
        obtain rfl := Except.ok.inj done
        obtain ⟨rfl, rfl, laid, arity, sized⟩ := of_entryAt built
        obtain ⟨own, range⟩ := index_of_indexOf given
        have sound : entry.Sound :=
          ⟨range, own, laid, fun bytes => (Layout.length_unpack _ bytes).trans arity, sized⟩
        exact ⟨entry, sound, rfl, found, rfl⟩

/-! ### What holds after any calls -/

/-- What holds of every registry: its entries are sound, each is of one of the schemas that were to
be registered, and no two have the same index. -/
structure Sound (schemas : List Schema) (registry : Registry) : Prop where
  entries : ∀ entry ∈ registry.entries, entry.Sound ∧ entry.schema ∈ schemas
  distinct : (registry.entries.map Entry.index).Nodup

theorem find?_append (registry : Registry) (entry : Entry) (index : Nat) :
    find? ⟨registry.entries ++ [entry]⟩ index =
      (registry.find? index).or (if entry.index = index then some entry else none) := by
  unfold find?
  rw [List.find?_append, List.find?_singleton]
  simp only [decide_eq_true_eq]

theorem find?_eq_none_iff (registry : Registry) (index : Nat) :
    registry.find? index = none ↔ index ∉ registry.entries.map Entry.index := by
  unfold find?
  rw [List.find?_eq_none, List.mem_map]
  constructor
  · rintro absent ⟨entry, member, same⟩
    exact absent entry member (decide_eq_true same)
  · intro absent entry member same
    exact absent ⟨entry, member, of_decide_eq_true same⟩

namespace Sound

theorem call (sound : Sound schemas registry) (memory : Memory) (schema : Schema) :
    Sound (schemas ++ [schema]) (registry.call memory schema).2 := by
  cases outcome : registry.register memory schema with
  | error fault =>
    rw [call_of_error outcome]
    refine ⟨fun entry member => ?_, sound.distinct⟩
    obtain ⟨lawful, known⟩ := sound.entries entry member
    exact ⟨lawful, List.mem_append_left _ known⟩
  | ok next =>
    rw [call_of_register outcome]
    obtain ⟨entry, lawful, rfl, free, rfl⟩ := exists_of_register outcome
    constructor
    · intro other member
      rcases List.mem_append.mp member with earlier | last
      · obtain ⟨otherLawful, known⟩ := sound.entries other earlier
        exact ⟨otherLawful, List.mem_append_left _ known⟩
      · obtain rfl := List.mem_singleton.mp last
        exact ⟨lawful, List.mem_append_right _ List.mem_cons_self⟩
    · rw [List.map_append, List.map_singleton, List.nodup_append_comm, List.singleton_append,
        List.nodup_cons]
      exact ⟨(find?_eq_none_iff _ _).mp free, sound.distinct⟩

theorem run (sound : Sound schemas registry) (memory : Memory) (later : List Schema) :
    Sound (schemas ++ later) (registry.run memory later) := by
  induction later generalizing schemas registry with
  | nil =>
    rw [List.append_nil]
    exact sound
  | cons schema later inductionHypothesis =>
    rw [← List.singleton_append, ← List.append_assoc]
    exact inductionHypothesis (sound.call memory schema)

theorem start : Sound [] empty := ⟨nofun, List.nodup_nil⟩

/-- Every entry is found under its index. -/
theorem find?_of_mem (sound : Sound schemas registry) {entry : Entry}
    (member : entry ∈ registry.entries) : registry.find? entry.index = some entry := by
  cases found : registry.find? entry.index with
  | none => exact absurd (List.mem_map_of_mem member) ((find?_eq_none_iff _ _).mp found)
  | some other =>
    unfold find? at found
    have same : other.index = entry.index := by simpa using List.find?_some found
    have known := List.mem_of_find?_eq_some found
    rw [List.inj_on_of_nodup_map sound.distinct known member same]

end Sound

/-! ### Difference that a call makes -/

/-- A registry differs from an earlier one in a new entry and in nothing else. -/
structure Adds (registry : Registry) (index : Nat) (next : Registry) : Prop where
  free : registry.contains index = false
  size : next.size = registry.size + 1
  contains : ∀ other : Int, next.contains other = (registry.contains other || other = index)
  /-- Payloads that do not begin with the index are decoded as before. -/
  decode : ∀ payload, payload.take 2 ≠ Bytes.toLittleEndian 2 index →
    next.decode payload = registry.decode payload

theorem contains_eq_find? (registry : Registry) (index : Nat) :
    registry.contains index = (registry.find? index).isSome := by
  unfold contains find?
  rw [Bool.eq_iff_iff, List.find?_isSome, List.any_eq_true]
  simp only [Int.natCast_inj]

theorem adds_of_register (done : registry.register memory schema = .ok next) :
    ∃ index : Nat, schema.index = some (index : Int) ∧ registry.Adds index next := by
  obtain ⟨entry, lawful, rfl, free, rfl⟩ := exists_of_register done
  refine ⟨entry.index, lawful.index, ?_⟩
  constructor
  case free => rw [contains_eq_find?, free, Option.isSome_none]
  case size => exact List.length_append
  case contains =>
    intro other
    unfold contains
    rw [List.any_append, List.any_cons, List.any_nil, Bool.or_false]
    simp only [eq_comm]
  case decode =>
    intro payload unlike
    by_cases short : payload.length < indexSize
    · rw [decode_of_lt short, decode_of_lt short]
    · refine decode_congr ?_
      have other : entry.index ≠ leadingIndex payload := by
        intro same
        refine unlike ?_
        have digits := Bytes.toLittleEndian_ofLittleEndian (payload.take indexSize)
        rw [List.length_take_of_le (Nat.not_lt.mp short)] at digits
        rw [same]
        exact digits.symm
      rw [find?_append, if_neg other, Option.or_none]

/-- What is found under an index stays. -/
theorem find?_run {index : Nat} {entry : Entry} (found : registry.find? index = some entry)
    (memory : Memory) (later : List Schema) :
    (registry.run memory later).find? index = some entry := by
  induction later generalizing registry with
  | nil => exact found
  | cons schema later inductionHypothesis =>
    rw [run_cons]
    refine inductionHypothesis ?_
    cases outcome : registry.register memory schema with
    | error fault => rwa [call_of_error outcome]
    | ok next =>
      obtain ⟨added, _, _, _, rfl⟩ := exists_of_register outcome
      rw [call_of_register outcome, find?_append, found, Option.some_or]

/-- Whatever schemas are to be registered, in whatever order and however many of the calls fail:
every entry is under an index of two bytes, which is that of its schema and of no other entry,
and its layout has a value for each field of the schema. A call that fails leaves the registry
as it was. Any other call adds one index that was free, and no payload with another index is
decoded differently. What is under an index stays there. A registry can be built with all
schemas at once exactly if none of the calls fails, and it is then the one that they come to;
otherwise it fails with the fault of the first call that does. -/
theorem registrations_only_add (memory : Memory) (schemas : List Schema) :
    let registry := empty.run memory schemas
    registry.Sound schemas ∧
      (∀ schema fault, (registry.call memory schema).1 = .error fault →
        (registry.call memory schema).2 = registry) ∧
      (∀ schema, (registry.call memory schema).1 = .ok () →
        ∃ index : Nat, schema.index = some (index : Int) ∧
          registry.Adds index (registry.call memory schema).2) ∧
      (∀ index entry later, registry.find? index = some entry →
        (registry.run memory later).find? index = some entry) ∧
      (∀ next, ofSchemas memory schemas = .ok next ↔
        registry = next ∧ ∀ before schema after, schemas = before ++ schema :: after →
          ((empty.run memory before).call memory schema).1 = .ok ()) ∧
      (∀ fault, ofSchemas memory schemas = .error fault ↔
        ∃ before schema after, schemas = before ++ schema :: after ∧
          ofSchemas memory before = .ok (empty.run memory before) ∧
          ((empty.run memory before).call memory schema).1 = .error fault) := by
  intro registry
  refine ⟨Sound.start.run memory schemas, ?_, ?_, fun index entry later found =>
    find?_run found memory later, fun next => foldlM_eq_ok_iff, fun fault => foldlM_eq_error_iff⟩
  · intro schema fault failed
    cases outcome : registry.register memory schema with
    | error fault => rw [call_of_error outcome]
    | ok next =>
      rw [call_of_register outcome] at failed
      cases failed
  · intro schema done
    cases outcome : registry.register memory schema with
    | error fault =>
      rw [call_of_error outcome] at done
      cases done
    | ok next =>
      rw [call_of_register outcome]
      exact adds_of_register outcome

theorem registrations_only_add_taken_index :
    let ping : Schema := ⟨"Ping", some 7, "H", [⟨"number", .int ⟨none, none, none, none⟩⟩]⟩
    let echo : Schema := ⟨"Echo", some 7, "", []⟩
    let registry : Registry := ⟨[⟨7, ping, ⟨⟨.little, false⟩, [⟨1, .integer 2 false⟩]⟩⟩]⟩
    ofSchemas .boundless [ping] = .ok registry ∧
      ofSchemas .boundless [ping, echo] = .error (.schema "Echo" (.indexTaken 7 "Ping")) ∧
      (registry.call .boundless echo).2 = registry := by
  have read : Layout.ofFormat "H" = .ok ⟨⟨.little, false⟩, [⟨1, .integer 2 false⟩]⟩ := rfl
  intro ping echo registry
  have entry : entryAt .boundless 7 ping =
      .ok ⟨7, ping, ⟨⟨.little, false⟩, [⟨1, .integer 2 false⟩]⟩⟩ := by
    simp only [entryAt, Schema.layout, ping, read]
    rfl
  have added : empty.call .boundless ping = (.ok (), registry) :=
    call_of_register (congrArg (Except.map _) entry)
  have taken : registry.call .boundless echo =
      (.error (.schema "Echo" (.indexTaken 7 "Ping")), registry) := call_of_error rfl
  have run : empty.run .boundless [ping] = registry := congrArg Prod.snd added
  obtain ⟨_, unchanged, _, _, built, _⟩ := registrations_only_add .boundless [ping]
  obtain ⟨_, _, _, _, _, broken⟩ := registrations_only_add .boundless [ping, echo]
  rw [run] at unchanged built
  have first : ofSchemas .boundless [ping] = .ok registry := by
    refine (built registry).mpr ⟨rfl, forall_append_cons_iff.mpr ⟨congrArg Prod.fst added, ?_⟩⟩
    intro before schema after split
    exact absurd split.symm (List.append_ne_nil_of_right_ne_nil _ (List.cons_ne_nil _ _))
  refine ⟨first, (broken _).mpr ⟨[ping], echo, [], rfl, run ▸ first, ?_⟩, ?_⟩
  · rw [run, taken]
  · exact unchanged echo _ (congrArg Prod.fst taken)

end ZeroFrame.Registry

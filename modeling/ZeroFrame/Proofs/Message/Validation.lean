/-
This file shows that a registry hands out valid messages and that its rejections are exact.

A field fits a value if the value converts to one of its type that keeps every limit; this is said
without the checks of the library, and the checks are shown to come to the same. So a message
holds values that keep all limits of their fields, values that do so already are held unchanged,
and a body is refused exactly if some field does not fit its value. The failures then name all of
these fields and no others, in order.
-/

import ZeroFrame.Proofs.Message.Conversion
import ZeroFrame.Proofs.Message.Filling
import ZeroFrame.Proofs.Message.Inheritance

namespace ZeroFrame

open Number

namespace Message

/-! ### Limits -/

/-- A number keeps the bounds that there are, in an order that is given with its strict form. -/
structure Range.Holds {α : Type} (range : Range α) (weak strict : α → α → Prop) (value : α) :
    Prop where
  atMost : ∀ bound, range.atMost = some bound → weak value bound
  below : ∀ bound, range.below = some bound → strict value bound
  atLeast : ∀ bound, range.atLeast = some bound → weak bound value
  above : ∀ bound, range.above = some bound → strict bound value

/-- A length keeps the bounds that there are. -/
structure Extent.Holds (extent : Extent) (length : Nat) : Prop where
  atLeast : ∀ bound, extent.atLeast = some bound → bound ≤ length
  atMost : ∀ bound, extent.atMost = some bound → length ≤ bound

/-- The value is of the type and keeps all limits. The length of a text counts its characters. -/
def FieldType.Allows : FieldType → Value → Prop
  | .int range, .int value => range.Holds (· ≤ ·) (· < ·) value
  | .real range, .real value => range.Holds Binary64.AtMost Binary64.Below value
  | .bool, .bool _ => True
  | .bytes extent, .bytes value => extent.Holds value.length
  | .text extent, .text value => extent.Holds value.length
  | _, _ => False

/-- The value converts to none of the type, or to one that breaks a limit. -/
def FieldType.Refuses (type : FieldType) (value : Value) : Prop :=
  (∀ result, ¬Converts type.kind value result) ∨
    ∃ result, Converts type.kind value result ∧ ¬type.Allows result

theorem FieldType.Allows.kind_eq {type : FieldType} {value : Value} (allowed : type.Allows value) :
    value.kind = type.kind := by
  cases type <;> cases value <;> first | rfl | cases allowed

/-! ### The checks of the limits -/

theorem require_eq_ok_iff {α : Type} {limit : Option α} {holds : α → Bool}
    {rejection : α → Rejection} :
    require limit holds rejection = .ok () ↔ ∀ bound, limit = some bound → holds bound = true := by
  unfold require
  cases limit with
  | none => exact iff_of_true rfl nofun
  | some bound =>
    dsimp only
    split
    case isTrue kept =>
      refine iff_of_true rfl ?_
      rintro _ ⟨⟩
      exact kept
    case isFalse broken => exact iff_of_false nofun fun all => broken (all bound rfl)

theorem seq_eq_ok_iff {first second : Except Rejection Unit} :
    (do first; second) = .ok () ↔ first = .ok () ∧ second = .ok () := by
  cases first with
  | error rejection => exact iff_of_false nofun fun both => nomatch both.1
  | ok _ => exact (and_iff_right rfl).symm

theorem checkInt_eq_ok_iff {range : Range Int} {value : Int} :
    range.checkInt value = .ok () ↔ range.Holds (· ≤ ·) (· < ·) value := by
  unfold Range.checkInt
  simp only [seq_eq_ok_iff, require_eq_ok_iff, decide_eq_true_eq]
  exact ⟨fun ⟨atMost, below, atLeast, above⟩ => ⟨atMost, below, atLeast, above⟩,
    fun kept => ⟨kept.atMost, kept.below, kept.atLeast, kept.above⟩⟩

theorem checkReal_eq_ok_iff {range : Range Binary64} {value : Binary64} :
    range.checkReal value = .ok () ↔ range.Holds Binary64.AtMost Binary64.Below value := by
  unfold Range.checkReal
  simp only [seq_eq_ok_iff, require_eq_ok_iff, Binary64.le_eq_true_iff, Binary64.lt_eq_true_iff]
  exact ⟨fun ⟨atMost, below, atLeast, above⟩ => ⟨atMost, below, atLeast, above⟩,
    fun kept => ⟨kept.atMost, kept.below, kept.atLeast, kept.above⟩⟩

theorem check_eq_ok_iff {extent : Extent} {measure : Measure} {length : Nat} :
    extent.check measure length = .ok () ↔ extent.Holds length := by
  unfold Extent.check
  simp only [seq_eq_ok_iff, require_eq_ok_iff, decide_eq_true_eq]
  exact ⟨fun ⟨atLeast, atMost⟩ => ⟨atLeast, atMost⟩, fun kept => ⟨kept.atLeast, kept.atMost⟩⟩

/-- A NaN keeps no bound at all. -/
theorem Range.Holds.isNaN_eq_false {range : Range Binary64} {value : Binary64}
    (kept : range.Holds Binary64.AtMost Binary64.Below value)
    (bounded : range ≠ ⟨none, none, none, none⟩) : value.isNaN = false := by
  rw [← Bool.not_eq_true, ← Binary64.value?_eq_none_iff]
  intro nothing
  obtain ⟨atMost, below, atLeast, above⟩ := range
  cases atMost with
  | some bound =>
    obtain ⟨_, _, valued, _⟩ := kept.atMost bound rfl
    cases nothing.symm.trans valued
  | none =>
    cases below with
    | some bound =>
      obtain ⟨_, _, valued, _⟩ := kept.below bound rfl
      cases nothing.symm.trans valued
    | none =>
      cases atLeast with
      | some bound =>
        obtain ⟨_, _, _, valued, _⟩ := kept.atLeast bound rfl
        cases nothing.symm.trans valued
      | none =>
        cases above with
        | some bound =>
          obtain ⟨_, _, _, valued, _⟩ := kept.above bound rfl
          cases nothing.symm.trans valued
        | none => exact bounded rfl

/-! ### Acceptance -/

variable {type : FieldType} {value result : Value}

/-- A conversion and a check accept what they should, if each of them does its part and only values
of one form are of the type. -/
theorem convert_check_eq_ok_iff {α : Type} {converted : Except Rejection α}
    {check : α → Except Rejection Unit} {form : α → Value}
    (conversion : ∀ content, converted = .ok content ↔ Converts type.kind value (form content))
    (limits : ∀ content, check content = .ok () ↔ type.Allows (form content))
    (formed : ∀ result : Value, result.kind = type.kind → ∃ content, form content = result) :
    (do
      let content ← converted
      check content
      return form content) = .ok result ↔
      Converts type.kind value result ∧ type.Allows result := by
  constructor
  · intro accepted
    cases found : converted with
    | error rejection =>
      rw [found] at accepted
      cases accepted
    | ok content =>
      rw [found] at accepted
      change (do check content; return form content) = .ok result at accepted
      cases checked : check content with
      | error rejection =>
        rw [checked] at accepted
        cases accepted
      | ok _ =>
        rw [checked] at accepted
        obtain rfl := Except.ok.inj accepted
        exact ⟨(conversion content).mp found, (limits content).mp checked⟩
  · rintro ⟨converts, allowed⟩
    obtain ⟨content, rfl⟩ := formed result converts.kind_eq
    rw [(conversion content).mpr converts]
    change (do check content; return form content) = .ok (form content)
    rw [(limits content).mpr allowed]
    rfl

/-- A field of truth values has nothing left to check once a value is converted. -/
theorem accept_bool (value : Value) :
    FieldType.bool.accept value = (do
      let truth ← toTruth value
      Except.ok ()
      return .bool truth) := by
  change (toTruth value).map Value.bool = _
  cases toTruth value <;> rfl

/-- A field accepts a value in some form exactly if the value converts to it and it is allowed. -/
theorem accept_eq_ok_iff :
    type.accept value = .ok result ↔ Converts type.kind value result ∧ type.Allows result := by
  cases type with
  | int range =>
    exact convert_check_eq_ok_iff (fun _ => toInt_eq_ok_iff) (fun _ => checkInt_eq_ok_iff)
      fun _ => Value.exists_int
  | real range =>
    exact convert_check_eq_ok_iff (fun _ => toReal_eq_ok_iff) (fun _ => checkReal_eq_ok_iff)
      fun _ => Value.exists_real
  | bool =>
    rw [accept_bool]
    exact convert_check_eq_ok_iff (fun _ => toTruth_eq_ok_iff) (fun _ => iff_of_true rfl trivial)
      fun _ => Value.exists_bool
  | bytes extent =>
    exact convert_check_eq_ok_iff (fun _ => toBytes_eq_ok_iff) (fun _ => check_eq_ok_iff)
      fun _ => Value.exists_bytes
  | text extent =>
    exact convert_check_eq_ok_iff (fun _ => toText_eq_ok_iff) (fun _ => check_eq_ok_iff)
      fun _ => Value.exists_text

theorem FieldType.Allows.keeps (allowed : type.Allows value) : type.Keeps value :=
  accept_eq_ok_iff.mpr ⟨.same allowed.kind_eq, allowed⟩

/-- Whatever a field does not accept it refuses for one of the two reasons. -/
theorem refuses_iff : type.Refuses value ↔ ∃ rejection, type.accept value = .error rejection := by
  cases accepted : type.accept value with
  | ok result =>
    obtain ⟨converts, allowed⟩ := accept_eq_ok_iff.mp accepted
    refine iff_of_false ?_ nofun
    rintro (nothing | ⟨other, otherwise, broken⟩)
    · exact nothing result converts
    · exact broken (converts.unique otherwise ▸ allowed)
  | error rejection =>
    refine iff_of_true ?_ ⟨rejection, rfl⟩
    by_cases converted : ∃ result, Converts type.kind value result
    · obtain ⟨result, converts⟩ := converted
      refine Or.inr ⟨result, converts, fun allowed => ?_⟩
      cases accepted.symm.trans (accept_eq_ok_iff.mpr ⟨converts, allowed⟩)
    · exact Or.inl (not_exists.mp converted)

theorem not_refuses_of_accept (accepted : type.accept value = .ok result) :
    ¬type.Refuses value := by
  intro refuses
  obtain ⟨rejection, other⟩ := refuses_iff.mp refuses
  cases accepted.symm.trans other

instance (type : FieldType) (value : Value) : Decidable (type.Refuses value) :=
  match accepted : type.accept value with
  | .ok _ => .isFalse (not_refuses_of_accept accepted)
  | .error rejection => .isTrue (refuses_iff.mpr ⟨rejection, accepted⟩)

/-- What a field holds when it has taken a value: under the name of the field, a value of its type
that keeps all limits and to which the given one converts. With any bound it is no NaN. -/
structure Field.Takes (field : Field) (value : Value) (content : String × Value) : Prop where
  name : content.1 = field.name
  converts : Converts field.type.kind value content.2
  kind : content.2.kind = field.type.kind
  allowed : field.type.Allows content.2
  notNaN : ∀ range number, field.type = .real range → range ≠ ⟨none, none, none, none⟩ →
    content.2 = .real number → number.isNaN = false

theorem Field.takes_of_accept {field : Field} {content : String × Value}
    (accepted : field.accept value = .ok content) : field.Takes value content := by
  unfold Field.accept at accepted
  split at accepted
  case h_1 result found =>
    obtain rfl := Except.ok.inj accepted
    obtain ⟨converts, allowed⟩ := accept_eq_ok_iff.mp found
    refine ⟨rfl, converts, converts.kind_eq, allowed, ?_⟩
    rintro range number real bounded rfl
    rw [real] at allowed
    exact Range.Holds.isNaN_eq_false allowed bounded
  case h_2 => cases accepted

/-! ### All fields of a message -/

variable {fields : List Field} {values : List Value} {contents : List (String × Value)}
  {failures : List Failure}

/-- Fields that are filled have each taken their value. -/
theorem takes_of_fill (filled : fill fields values = .ok contents) :
    List.Forall₂ (fun pair content => pair.1.Takes pair.2 content) (fields.zip values)
      contents := by
  rw [fill_eq_gather, gather_eq_ok_iff] at filled
  generalize fields.zip values = pairs at filled ⊢
  induction pairs generalizing contents with
  | nil =>
    obtain rfl := List.map_eq_nil_iff.mp filled.symm
    exact .nil
  | cons pair pairs inductionHypothesis =>
    obtain ⟨content, others, rfl, accepted, rest⟩ := List.map_eq_cons_iff.mp filled.symm
    exact .cons (Field.takes_of_accept accepted.symm) (inductionHypothesis rest.symm)

/-- The name of a field and the value that it did not accept. -/
def Failure.subject (failure : Failure) : String × Value := (failure.field, failure.value)

/-- The failures are about the fields that refuse their values, in order. -/
theorem map_subject_failuresOf (pairs : List (Field × Value)) :
    (failuresOf (pairs.map fun (field, value) => field.accept value)).map Failure.subject =
      (pairs.filter fun pair => pair.1.type.Refuses pair.2).map
        fun pair => (pair.1.name, pair.2) := by
  induction pairs with
  | nil => rfl
  | cons pair pairs inductionHypothesis =>
    obtain ⟨field, value⟩ := pair
    rw [List.map_cons]
    dsimp only
    unfold Field.accept
    cases accepted : field.type.accept value with
    | ok result =>
      have taken := not_refuses_of_accept accepted
      rw [List.filter_cons_of_neg (by simpa using taken)]
      exact inductionHypothesis
    | error rejection =>
      have refuses : field.type.Refuses value := refuses_iff.mpr ⟨rejection, accepted⟩
      rw [List.filter_cons_of_pos (by simpa using refuses), List.map_cons, ← inductionHypothesis]
      rfl

/-- Filling fails with the failures of all fields that refuse their values, and only if there are
any. -/
theorem fill_eq_error (refused : fill fields values = .error failures) :
    failures ≠ [] ∧ failures.map Failure.subject =
      ((fields.zip values).filter fun pair => pair.1.type.Refuses pair.2).map
        fun pair => (pair.1.name, pair.2) := by
  rw [fill_eq_gather] at refused
  obtain ⟨rfl, nonempty⟩ := gather_eq_error_iff.mp refused
  exact ⟨nonempty, map_subject_failuresOf (fields.zip values)⟩

theorem exists_fill_eq_error_iff :
    (∃ failures, fill fields values = .error failures) ↔
      ∃ pair ∈ fields.zip values, pair.1.type.Refuses pair.2 := by
  simp only [fill_eq_gather, gather_eq_error_iff, exists_eq_left']
  rw [Ne, ← List.map_eq_nil_iff (f := Failure.subject), map_subject_failuresOf,
    List.map_eq_nil_iff, List.filter_eq_nil_iff]
  simp only [decide_eq_true_eq, not_forall, not_not, exists_prop]

/-- Fields that allow their values hold them as they are. -/
theorem fill_of_allows (same : values.length = fields.length)
    (allowed : ∀ pair ∈ fields.zip values, pair.1.type.Allows pair.2) :
    fill fields values = .ok ((fields.map Field.name).zip values) :=
  fill_of_keeps <| List.forall₂_map_left_iff.mpr <|
    List.forall₂_iff_zip.mpr ⟨same.symm, fun member => (allowed _ member).keeps⟩

/-- If no two fields have the same name, no field is named twice. -/
theorem nodup_refused (distinct : (fields.map Field.name).Nodup)
    (same : values.length = fields.length) :
    (((fields.zip values).filter fun pair => pair.1.type.Refuses pair.2).map
      fun pair => pair.1.name).Nodup := by
  have all : (fields.zip values).map (fun pair => pair.1.name) = fields.map Field.name := by
    change (fields.zip values).map (Field.name ∘ Prod.fst) = _
    rw [← List.map_map, List.map_fst_zip same.ge]
  exact distinct.sublist (all ▸ List.filter_sublist.map _)

end Message

/-! ### Messages of a registry -/

namespace Registry

open Message

variable {registry : Registry} {payload : Bytes} {entry : Entry} {body : Bytes}

theorem Entry.read_eq_ok_iff {message : Message} {used : Nat} :
    entry.read body = .ok (message, used) ↔
      ∃ contents, fill entry.schema.fields (entry.layout.unpack body) = .ok contents ∧
        ⟨entry.schema.name, contents⟩ = message ∧ indexSize + entry.layout.size = used := by
  unfold Entry.read
  cases fill entry.schema.fields (entry.layout.unpack body) with
  | error failures => exact iff_of_false nofun nofun
  | ok contents =>
    simp only [Except.ok.injEq, Prod.mk.injEq, exists_eq_left']

theorem Entry.read_eq_error_iff {fault : Fault} :
    entry.read body = .error fault ↔
      ∃ failures, fill entry.schema.fields (entry.layout.unpack body) = .error failures ∧
        .invalid entry.schema.name failures = fault := by
  unfold Entry.read
  cases fill entry.schema.fields (entry.layout.unpack body) with
  | error failures => simp only [Except.error.injEq, exists_eq_left']
  | ok contents => exact iff_of_false nofun nofun

/-- Whatever schemas are registered, and for every payload that has the bytes for the message that
its index announces: each field has one value. A message holds in each field a value of the type of
the field that keeps all of its limits and to which the given value converts. There is a fault
exactly if some field refuses its value, because this does not convert or breaks a limit; it names
all such fields with their values and no others, in order and each once, and there is at least one.
If all values keep the limits of their fields already, the message holds these values. -/
theorem decode_validates (memory : Memory) (schemas : List Schema) (payload : Bytes)
    (entry : Entry) (known : (empty.run memory schemas).find? (leadingIndex payload) = some entry)
    (enough : 2 + entry.layout.size ≤ payload.length) :
    let outcome := (empty.run memory schemas).decode payload
    let values := entry.layout.unpack (payload.drop 2)
    let pairs := entry.schema.fields.zip values
    values.length = entry.schema.fields.length ∧
      (∀ message used, outcome = .ok (message, used) →
        message.name = entry.schema.name ∧
          List.Forall₂ (fun pair content => pair.1.Takes pair.2 content)
            pairs message.fields) ∧
      ((∃ fault, outcome = .error fault) ↔ ∃ pair ∈ pairs, pair.1.type.Refuses pair.2) ∧
      (∀ fault, outcome = .error fault → ∃ failures,
        fault = .invalid entry.schema.name failures ∧ failures ≠ [] ∧
          failures.map Failure.subject =
            (pairs.filter fun pair => pair.1.type.Refuses pair.2).map
              (fun pair => (pair.1.name, pair.2)) ∧
          ∀ definitions, entry.schema ∈ Schema.ofDefinitions definitions →
            (failures.map Failure.field).Nodup) ∧
      ((∀ pair ∈ pairs, pair.1.type.Allows pair.2) →
        outcome = .ok (⟨entry.schema.name, (entry.schema.fields.map Field.name).zip values⟩,
          2 + entry.layout.size)) := by
  intro outcome values pairs
  have sound : Sound ([] ++ schemas) (empty.run memory schemas) := Sound.start.run memory schemas
  have arity : values.length = entry.schema.fields.length :=
    (sound.entries entry (List.mem_of_find?_eq_some known)).1.arity _
  have read : outcome = entry.read (payload.drop 2) :=
    (decode_of_find? (le_of_add_le_left enough) known).trans (if_neg (Nat.not_lt.mpr enough))
  rw [read]
  refine ⟨arity, ?_, ?_, ?_, ?_⟩
  · intro message used done
    obtain ⟨contents, filled, rfl, rfl⟩ := Entry.read_eq_ok_iff.mp done
    exact ⟨rfl, takes_of_fill filled⟩
  · rw [← exists_fill_eq_error_iff]
    constructor
    · rintro ⟨fault, failed⟩
      obtain ⟨failures, refused, _⟩ := Entry.read_eq_error_iff.mp failed
      exact ⟨failures, refused⟩
    · rintro ⟨failures, refused⟩
      exact ⟨_, Entry.read_eq_error_iff.mpr ⟨failures, refused, rfl⟩⟩
  · intro fault failed
    obtain ⟨failures, refused, rfl⟩ := Entry.read_eq_error_iff.mp failed
    obtain ⟨nonempty, named⟩ := fill_eq_error refused
    refine ⟨failures, rfl, nonempty, named, ?_⟩
    intro definitions defined
    have names := congrArg (List.map Prod.fst) named
    rw [List.map_map, List.map_map] at names
    exact names ▸ nodup_refused (Schema.distinct_of_mem_ofDefinitions defined) arity
  · intro allowed
    exact Entry.read_eq_ok_iff.mpr ⟨_, fill_of_allows arity allowed, rfl, rfl⟩

/-- Of five fields, three refuse their values; the last one takes the number its bytes spell. -/
theorem decode_validates_three_refusals :
    let probe : Schema := ⟨"Probe", some 5, "bfB2s2s",
      [⟨"level", .int ⟨none, none, some 0, none⟩⟩,
        ⟨"ratio", .real ⟨none, some ⟨0x4000000000000000⟩, none, none⟩⟩, ⟨"flag", .bool⟩,
        ⟨"label", .text ⟨none, some 3⟩⟩, ⟨"count", .int ⟨none, some 20, none, none⟩⟩]⟩
    let counter : Schema := ⟨"Counter", some 6, "2s", [⟨"count", .int ⟨none, some 20, none, none⟩⟩]⟩
    let registry := empty.run .boundless [probe, counter]
    (∃ failures,
      registry.decode [5, 0, 0xff, 0, 0, 0xc0, 0x7f, 2, 0x68, 0x69, 0x31, 0x32] =
        .error (.invalid "Probe" failures) ∧
      failures.map Failure.subject =
        [("level", .int (-1)), ("ratio", .real ⟨0x7ff8000000000000⟩), ("flag", .int 2)]) ∧
    registry.decode [6, 0, 0x31, 0x32] = .ok (⟨"Counter", [("count", .int 12)]⟩, 4) ∧
    Converts .int (.bytes [0x31, 0x32]) (.int 12) := by
  intro probe counter registry
  have known : registry.find? (leadingIndex [6, 0, 0x31, 0x32]) =
      some ⟨6, counter, ⟨⟨.little, false⟩, [⟨2, .text⟩]⟩⟩ := by decide
  constructor
  · let layout : Layout := ⟨⟨.little, false⟩, [⟨1, .integer 1 true⟩, ⟨1, .real .single⟩,
      ⟨1, .integer 1 false⟩, ⟨2, .text⟩, ⟨2, .text⟩]⟩
    obtain ⟨_, _, failed, named, _⟩ := decode_validates .boundless [probe, counter]
      [5, 0, 0xff, 0, 0, 0xc0, 0x7f, 2, 0x68, 0x69, 0x31, 0x32] ⟨5, probe, layout⟩
      (by decide) (by decide)
    have refuses : (FieldType.int ⟨none, none, some 0, none⟩).Refuses (.int (-1)) :=
      Or.inr ⟨.int (-1), .same rfl, fun allowed => absurd (allowed.atLeast 0 rfl) (by decide)⟩
    obtain ⟨fault, outcome⟩ := failed.mpr ⟨_, List.mem_cons_self, refuses⟩
    obtain ⟨failures, rfl, _, subjects, _⟩ := named fault outcome
    exact ⟨failures, outcome, subjects.trans (by decide +kernel)⟩
  · have done : registry.decode [6, 0, 0x31, 0x32] =
        .ok (⟨"Counter", [("count", .int 12)]⟩, 4) := by
      rw [decode_of_find? (by decide) known]
      rfl
    obtain ⟨_, taken, _⟩ := decode_validates .boundless [probe, counter] [6, 0, 0x31, 0x32] _ known
      (by decide)
    obtain ⟨_, takes⟩ := taken _ _ done
    exact ⟨done, (List.forall₂_cons.mp takes).1.converts⟩

end Registry

end ZeroFrame

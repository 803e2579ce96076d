/-
This file shows which fields the schema of a definition has.

The fields of the extended schema come first and keep their places; a field that is defined again
takes the place of the one with its name. So the names of the fields of a schema are distinct,
however many definitions it goes back to, and the names of the extended schema begin them.
-/

import Mathlib
import ZeroFrame.Message.Schema

namespace ZeroFrame.Schema

open Message

variable {fields : List Field} {field : Field}

/-! ### Placing a field -/

/-- A field that is placed adds its name at the end, unless there is a field of that name. -/
theorem map_name_placeField (fields : List Field) (field : Field) :
    (placeField fields field).map Field.name =
      if field.name ∈ fields.map Field.name then fields.map Field.name
      else fields.map Field.name ++ [field.name] := by
  have known : fields.any (·.name = field.name) = true ↔ field.name ∈ fields.map Field.name := by
    simp only [List.any_eq_true, decide_eq_true_eq, List.mem_map]
  unfold placeField
  by_cases taken : field.name ∈ fields.map Field.name
  · rw [if_pos (known.mpr taken), if_pos taken, List.map_map]
    refine List.map_congr_left fun other _ => ?_
    rw [Function.comp_apply]
    split
    case isTrue same => exact same.symm
    case isFalse => rfl
  · rw [if_neg (known.not.mpr taken), if_neg taken, List.map_append]
    rfl

theorem nodup_placeField (distinct : (fields.map Field.name).Nodup) (field : Field) :
    ((placeField fields field).map Field.name).Nodup := by
  rw [map_name_placeField]
  split
  case isTrue => exact distinct
  case isFalse new =>
    rw [List.nodup_append_comm, List.singleton_append, List.nodup_cons]
    exact ⟨new, distinct⟩

theorem prefix_placeField (fields : List Field) (field : Field) :
    fields.map Field.name <+: (placeField fields field).map Field.name := by
  rw [map_name_placeField]
  split
  case isTrue => exact List.prefix_rfl
  case isFalse => exact List.prefix_append ..

/-! ### Definitions -/

/-- The names of the fields of a schema are distinct. -/
def Distinct (schema : Schema) : Prop := (schema.fields.map Field.name).Nodup

variable {definition : Definition} {definitions : List Definition} {extended schema : Schema}
  {earlier : List Schema}

theorem Definition.distinct_over (distinct : extended.Distinct) (definition : Definition) :
    (definition.over extended).Distinct := by
  unfold Definition.over Distinct
  dsimp only
  generalize definition.fields.filter (!·.isPrivate) = own
  unfold Distinct at distinct
  generalize extended.fields = fields at distinct
  induction own generalizing fields with
  | nil => exact distinct
  | cons field own inductionHypothesis =>
    exact inductionHypothesis _ (nodup_placeField distinct field)

/-- The fields of the extended schema come first, in their order. -/
theorem Definition.prefix_over (definition : Definition) (extended : Schema) :
    extended.fields.map Field.name <+: (definition.over extended).fields.map Field.name := by
  unfold Definition.over
  dsimp only
  generalize definition.fields.filter (!·.isPrivate) = own
  generalize extended.fields = fields
  induction own generalizing fields with
  | nil => exact List.prefix_rfl
  | cons field own inductionHypothesis =>
    exact (prefix_placeField fields field).trans (inductionHypothesis _)

theorem distinct_of_mem_define (distinct : ∀ schema ∈ earlier, schema.Distinct)
    (member : schema ∈ define earlier definition) : schema.Distinct := by
  unfold define at member
  rcases List.mem_append.mp member with old | new
  · exact distinct schema old
  · obtain rfl := List.mem_singleton.mp new
    refine Definition.distinct_over ?_ definition
    cases found : definition.extended.bind fun place => earlier[place]? with
    | none => exact List.nodup_nil
    | some extended =>
      obtain ⟨place, _, there⟩ := Option.bind_eq_some_iff.mp found
      exact distinct extended (List.mem_of_getElem? there)

theorem distinct_of_mem_foldl (distinct : ∀ schema ∈ earlier, schema.Distinct)
    (member : schema ∈ definitions.foldl define earlier) : schema.Distinct := by
  induction definitions generalizing earlier with
  | nil => exact distinct schema member
  | cons definition definitions inductionHypothesis =>
    exact inductionHypothesis (fun _ => distinct_of_mem_define distinct) member

/-- However many definitions a schema goes back to, no two of its fields have the same name. -/
theorem distinct_of_mem_ofDefinitions (member : schema ∈ ofDefinitions definitions) :
    schema.Distinct :=
  distinct_of_mem_foldl (List.forall_mem_nil _) member

end ZeroFrame.Schema

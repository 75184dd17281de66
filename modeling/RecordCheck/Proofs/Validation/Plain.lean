import RecordCheck.Proofs.Validation.Carries

/-! Trees and the values that they stand for. -/

namespace RecordCheck

namespace Value

theorem allWellFormed_iff {items : List Value} :
    AllWellFormed items ↔ ∀ u ∈ items, u.WellFormed := by
  induction items with
  | nil => simp [AllWellFormed]
  | cons v rest ih => simp [AllWellFormed, ih]

theorem fieldsWellFormed_iff {entries : List (String × Value)} :
    FieldsWellFormed entries ↔ ∀ u ∈ entries.map (·.2), u.WellFormed := by
  induction entries with
  | nil => simp [FieldsWellFormed]
  | cons entry rest ih => simp only [FieldsWellFormed, ih, List.map_cons, List.forall_mem_cons]

theorem WellFormed.part {v u : Value} (h : v.WellFormed) (hu : u ∈ v.parts) : u.WellFormed := by
  cases v with
  | list items => exact allWellFormed_iff.mp h u hu
  | map entries => exact fieldsWellFormed_iff.mp h.2 u hu
  | object name fields => exact fieldsWellFormed_iff.mp h.2 u hu
  | _ => cases hu

theorem WellFormed.at? {v u : Value} {steps : List Step} (h : v.WellFormed)
    (hu : v.at? steps = some u) : u.WellFormed := by
  induction steps generalizing v with
  | nil =>
    cases hu
    exact h
  | cons step rest ih =>
    rw [Value.at?, List.foldlM_cons] at hu
    obtain ⟨mid, hm, hr⟩ := Option.bind_eq_some_iff.mp hu
    exact ih (h.part (mem_parts_of_child? hm)) hr

end Value

namespace Validated

theorem toItems_eq (trees : List Validated) : toItems trees = trees.map toValue := by
  induction trees with
  | nil => rfl
  | cons t rest ih => simp [toItems, ih]

theorem toFields_eq (fields : List (String × Validated)) :
    toFields fields = Fields.mapValues toValue fields := by
  induction fields with
  | nil => rfl
  | cons entry rest ih => simp [toFields, Fields.mapValues, ih]

/-- Nothing is lost when an object of distinct names is built anew. -/
theorem toValue_object {name : String} {fields : List (String × Validated)}
    (h : (Fields.names fields).Nodup) :
    (object name fields).toValue = .object name (Fields.mapValues toValue fields) := by
  rw [toValue, toFields_eq, Fields.ofList, Fields.insertAll_of_nodup, List.nil_append]
  simpa using h

/-- A value that is taken as it is stays what it is. -/
theorem toValue_ofValue {v : Value} (h : v.WellFormed) : (ofValue v).toValue = v := by
  induction v using Value.induction_parts with
  | h v ih =>
    have entries {fields : List (String × Value)}
        (hf : ∀ u ∈ fields.map (·.2), (ofValue u).toValue = u) :
        Fields.mapValues toValue (Fields.mapValues ofValue fields) = fields := by
      rw [Fields.mapValues_mapValues]
      exact Fields.mapValues_eq_self_iff.mpr hf
    have parts : ∀ u ∈ v.parts, (ofValue u).toValue = u := fun u hu => ih u hu (h.part hu)
    cases v with
    | list items =>
      rw [ofValue, toValue, toItems_eq, ofItems_eq, List.map_map]
      exact congrArg Value.list (Results.map_eq_self_iff.mpr parts)
    | map fields => rw [ofValue, toValue, toFields_eq, ofFields_eq, entries parts]
    | object name fields =>
      rw [ofValue, ofFields_eq, toValue_object (by simpa using h.1), entries parts]
    | _ => rfl

end Validated

end RecordCheck

import RecordCheck.Proofs.Value.Fields
import RecordCheck.Proofs.Value.Parts
import RecordCheck.Validation.Basic

/-! The outcomes of checks that a tree carries, at whatever place. -/

namespace RecordCheck.Validated

inductive Carries : Validated → Checks → Prop where
  | here {node checks} : Carries (.checked node checks) checks
  | inside {node checks found} (h : Carries node found) : Carries (.checked node checks) found
  | item {items t found} (ht : t ∈ items) (h : Carries t found) : Carries (.list items) found
  | entry {entries k t found} (ht : (k, t) ∈ entries) (h : Carries t found) :
      Carries (.map entries) found
  | field {className fields name t found} (ht : (name, t) ∈ fields) (h : Carries t found) :
      Carries (.object className fields) found

theorem carries_wrap {hasChecks : Bool} {checks found : Checks} {node : Validated} :
    (Validation.wrap hasChecks checks node).Carries found ↔
      hasChecks = true ∧ found = checks ∨ node.Carries found := by
  cases hasChecks with
  | false => simp [Validation.wrap]
  | true =>
    simp only [Validation.wrap, if_true, true_and]
    constructor
    · intro h
      cases h with
      | here => exact .inl rfl
      | inside h => exact .inr h
    · intro hx
      rcases hx with rfl | h
      · exact .here
      · exact .inside h

theorem carries_of_checks? {t : Validated} {found : Checks} (h : t.checks? = some found) :
    t.Carries found := by
  cases t with
  | checked =>
    cases h
    exact .here
  | _ => cases h

theorem Carries.of_inner {t : Validated} {found : Checks} (h : t.inner.Carries found) :
    t.Carries found := by
  cases t with
  | checked => exact .inside h
  | _ => exact h

theorem carries_of_child? {t u : Validated} {step : Step} {found : Checks}
    (h : t.child? step = some u) (hc : u.Carries found) : t.Carries found := by
  apply Carries.of_inner
  cases step with
  | field name =>
    simp only [child?] at h
    split at h
    next hi =>
      rw [hi]
      exact .field (Fields.mem_of_find? h) hc
    next => cases h
  | index i =>
    simp only [child?] at h
    split at h
    next hi =>
      rw [hi]
      exact .item (List.mem_of_getElem? h) hc
    next => cases h
  | key k =>
    simp only [child?] at h
    split at h
    next hi =>
      rw [hi]
      exact .entry (Fields.mem_of_find? h) hc
    next => cases h

theorem ofItems_eq (items : List Value) : ofItems items = items.map ofValue := by
  induction items with
  | nil => rfl
  | cons v rest ih => simp [ofItems, ih]

theorem ofFields_eq (fields : List (String × Value)) :
    ofFields fields = Fields.mapValues ofValue fields := by
  induction fields with
  | nil => rfl
  | cons entry rest ih => simp [ofFields, Fields.mapValues, ih]

theorem not_carries_ofValue {v : Value} {found : Checks} : ¬ (ofValue v).Carries found := by
  induction v using Value.induction_parts with
  | h v ih =>
    intro h
    have entry {entries : List (String × Value)} {k : String} {t : Validated}
        (he : ∀ u ∈ entries.map (·.2), ¬ (ofValue u).Carries found)
        (ht : (k, t) ∈ ofFields entries) (hc : t.Carries found) : False := by
      rw [ofFields_eq] at ht
      obtain ⟨⟨k', u⟩, hm, hu⟩ := List.mem_map.mp ht
      obtain ⟨-, rfl⟩ := Prod.mk.inj hu
      exact he u (List.mem_map_of_mem (f := (·.2)) hm) hc
    cases v with
    | list items =>
      rw [ofValue, ofItems_eq] at h
      cases h with
      | item ht hc =>
        obtain ⟨u, hu, rfl⟩ := List.mem_map.mp ht
        exact ih u hu hc
    | map entries =>
      rw [ofValue] at h
      cases h with
      | entry ht hc => exact entry ih ht hc
    | object name fields =>
      rw [ofValue] at h
      cases h with
      | field ht hc => exact entry ih ht hc
    | _ => cases h

end RecordCheck.Validated

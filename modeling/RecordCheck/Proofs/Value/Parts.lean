import Mathlib.Data.List.Basic
import RecordCheck.Proofs.Value.Fields
import RecordCheck.Validation.Path
import RecordCheck.Value.Basic

/-! Induction on values by their immediate parts, and the steps that lead to parts. -/

namespace RecordCheck.Value

/-- The items of a list, the values of a map or those of the fields of an object. -/
def parts : Value → List Value
  | list items => items
  | map entries => entries.map (·.2)
  | object _ fields => fields.map (·.2)
  | _ => []

mutual

private theorem of_parts {P : Value → Prop} (h : ∀ v, (∀ u ∈ v.parts, P u) → P v) (v : Value) :
    P v := by
  apply h
  match v with
  | .list items => exact of_items h items
  | .map entries => exact of_entries h entries
  | .object _ fields => exact of_entries h fields
  | .null | .bool _ | .int _ | .float _ | .string _ | .member _ _ => simp [parts]

private theorem of_items {P : Value → Prop} (h : ∀ v, (∀ u ∈ v.parts, P u) → P v)
    (items : List Value) : ∀ u ∈ items, P u := by
  match items with
  | [] => simp
  | v :: rest => exact List.forall_mem_cons.mpr ⟨of_parts h v, of_items h rest⟩

private theorem of_entries {P : Value → Prop} (h : ∀ v, (∀ u ∈ v.parts, P u) → P v)
    (entries : List (String × Value)) : ∀ u ∈ entries.map (·.2), P u := by
  match entries with
  | [] => simp
  | (_, v) :: rest => exact List.forall_mem_cons.mpr ⟨of_parts h v, of_entries h rest⟩

end

/-- A property of values holds if each value has it whose parts all have it. -/
theorem induction_parts {P : Value → Prop} (h : ∀ v, (∀ u ∈ v.parts, P u) → P v) (v : Value) :
    P v := of_parts h v

/-- The same where a null may stand beside the parts, for what an object lacks. -/
theorem induction_parts_null {P : Value → Prop}
    (h : ∀ v, (∀ u ∈ v.parts, P u) → (v ≠ .null → P .null) → P v) (v : Value) : P v := by
  have hn : P .null := h .null (by simp [parts]) (fun hne => absurd rfl hne)
  exact induction_parts (fun v ih => h v ih fun _ => hn) v

/-! ### Steps -/

/-- The value one step inwards. -/
def child? (v : Value) : Step → Option Value
  | .field name =>
    match v with
    | object _ fields => Fields.find? name fields
    | _ => none
  | .index i =>
    match v with
    | list items => items[i]?
    | _ => none
  | .key key =>
    match v with
    | map entries => Fields.find? key entries
    | _ => none

/-- The value that some steps lead to. -/
def at? (v : Value) (steps : List Step) : Option Value := steps.foldlM child? v

theorem at?_cons (v : Value) (step : Step) (rest : List Step) :
    v.at? (step :: rest) = (v.child? step).bind (·.at? rest) := List.foldlM_cons

theorem mem_parts_of_child? {v u : Value} {step : Step} (h : v.child? step = some u) :
    u ∈ v.parts := by
  cases step with
  | field name =>
    cases v with
    | object _ fields => exact List.mem_map_of_mem (Fields.mem_of_find? h)
    | _ => cases h
  | index i =>
    cases v with
    | list items => exact List.mem_of_getElem? h
    | _ => cases h
  | key key =>
    cases v with
    | map entries => exact List.mem_map_of_mem (Fields.mem_of_find? h)
    | _ => cases h

end RecordCheck.Value

import Mathlib.Data.List.Basic
import RecordCheck.FieldType

/-! Alternatives of types, and the one that a value lives in. -/

namespace RecordCheck.FieldType

/-- The tag of the alternative that a value lives in. -/
def liveTag? (type : FieldType) (v : Value) : Option Tag := (type.select? v).bind (·.tag?)

theorem variants_of_tag {type : FieldType} (h : type.tag?.isSome) : type.variants = [type] := by
  cases type <;> first | rfl | simp [tag?] at h

theorem eq_class_of_tag? {type : FieldType} {name : String} (h : type.tag? = some (.class name)) :
    type = .class name := by
  cases type <;> simp_all [tag?]

mutual

/-- No alternative is a union or optional. -/
theorem tag_of_mem_variants (type : FieldType) : ∀ a ∈ type.variants, a.tag?.isSome := by
  match type with
  | union members => exact tag_of_mem_variantsOf members
  | optional base =>
    intro a ha
    rcases List.mem_append.mp ha with ha | ha
    · exact tag_of_mem_variants base a ha
    · rw [List.mem_singleton.mp ha]
      rfl
  | null | bool | int | float | string | enum _ | .class _ | list _ | map _ _ =>
    simp [variants, tag?]

theorem tag_of_mem_variantsOf (types : List FieldType) :
    ∀ a ∈ variantsOf types, a.tag?.isSome := by
  match types with
  | [] => simp [variantsOf]
  | type :: rest =>
    intro a ha
    rcases List.mem_append.mp ha with ha | ha
    · exact tag_of_mem_variants type a ha
    · exact tag_of_mem_variantsOf rest a ha

end

theorem admits_of_tag {a : FieldType} {v : Value} (h : a.tag? = some v.tag) : a.admits v := by
  simp [admits, h]

theorem eq_list_of_admits {item : FieldType} {v : Value} (h : (list item).admits v = true) :
    ∃ items, v = .list items := by
  cases v with
  | list items => exact ⟨items, rfl⟩
  | _ => cases h

theorem eq_map_of_admits {key item : FieldType} {v : Value} (h : (map key item).admits v = true) :
    ∃ entries, v = .map entries := by
  cases v with
  | map entries => exact ⟨entries, rfl⟩
  | _ => cases h

theorem eq_object_of_admits {name : String} {v : Value} (h : («class» name).admits v = true) :
    ∃ fields, v = .object name fields := by
  cases v with
  | object n fields =>
    obtain rfl : name = n := by simpa [admits, tag?, Value.tag] using h
    exact ⟨fields, rfl⟩
  | _ => simp [admits, tag?, Value.tag] at h

theorem select?_spec {type a : FieldType} {v : Value} (h : type.select? v = some a) :
    a ∈ type.variants ∧ a.admits v := by
  simp only [select?] at h
  split at h
  next b hb =>
    cases h
    exact ⟨List.mem_of_find?_eq_some hb, admits_of_tag (by simpa using List.find?_some hb)⟩
  next =>
    have ha := List.find?_some h
    exact ⟨List.mem_of_find?_eq_some h, ha⟩

theorem tag_of_select? {type a : FieldType} {v : Value} (h : type.select? v = some a) :
    a.tag?.isSome :=
  tag_of_mem_variants type a (select?_spec h).1

theorem eq_of_select? {type a : FieldType} {v : Value} (ht : type.tag?.isSome)
    (h : type.select? v = some a) : a = type := by
  have hm := (select?_spec h).1
  rw [variants_of_tag ht] at hm
  exact List.mem_singleton.mp hm

/-- A type with a tag has itself for its only alternative. -/
theorem select?_of_tag {type : FieldType} {v : Value} (ht : type.tag?.isSome)
    (hv : type.admits v) : type.select? v = some type := by
  simp only [select?, variants_of_tag ht]
  split
  next a ha =>
    have hm := List.mem_of_find?_eq_some ha
    rw [List.mem_singleton.mp hm]
  next => simp [hv]

/-- Which alternative a value lives in depends on its tag alone. -/
theorem select?_congr (type : FieldType) {v w : Value} (h : v.tag = w.tag) :
    type.select? v = type.select? w := by
  simp only [select?, admits, h]

theorem liveTag?_congr (type : FieldType) {v w : Value} (h : v.tag = w.tag) :
    type.liveTag? v = type.liveTag? w := by
  rw [liveTag?, liveTag?, type.select?_congr h]

theorem select?_list (type : FieldType) (items : List Value) :
    (list type).select? (.list items) = some (list type) := select?_of_tag rfl rfl

theorem select?_map (key type : FieldType) (entries : List (String × Value)) :
    (map key type).select? (.map entries) = some (map key type) := select?_of_tag rfl rfl

theorem select?_class (name : String) (fields : List (String × Value)) :
    (FieldType.class name).select? (.object name fields) = some (.class name) :=
  select?_of_tag rfl (admits_of_tag rfl)

/-- The alternative that a value lives in is its own alternative. -/
theorem select?_of_select? {type a : FieldType} {v : Value} (h : type.select? v = some a) :
    a.select? v = some a := select?_of_tag (tag_of_select? h) (select?_spec h).2

/-- A type accepts the values for which some alternative is selected. -/
theorem accepts_iff_select? {type : FieldType} {v : Value} :
    type.accepts v = true ↔ (type.select? v).isSome := by
  simp only [accepts, select?, List.any_eq_true]
  split
  next a ha =>
    have hm := List.mem_of_find?_eq_some ha
    have hp := List.find?_some ha
    simp only [Option.isSome_some, iff_true]
    exact ⟨a, hm, admits_of_tag (by simpa using hp)⟩
  next => simp

/-- A type with a tag accepts the values that it admits. -/
theorem accepts_of_tag {type : FieldType} {v : Value} (h : type.tag?.isSome) :
    type.accepts v = type.admits v := by
  simp [accepts, variants_of_tag h]

end RecordCheck.FieldType

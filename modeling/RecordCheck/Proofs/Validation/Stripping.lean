import RecordCheck.Proofs.Validation.Reorder
import RecordCheck.Proofs.Value.Equality

/-! Trees without their checks. Such a tree is that of the value alone, and has its JSON. -/

namespace RecordCheck

namespace Value

theorem jsonItems_eq (items : List Value) : jsonItems items = items.map json := by
  induction items with
  | nil => rfl
  | cons v rest ih => simp [jsonItems, ih]

theorem jsonMembers_eq (fields : List (String × Value)) :
    jsonMembers fields = Fields.mapValues json fields := by
  induction fields with
  | nil => rfl
  | cons entry rest ih => simp [jsonMembers, Fields.mapValues, ih]

end Value

namespace Validated

theorem jsonItems_eq (items : List Validated) : jsonItems items = items.map json := by
  induction items with
  | nil => rfl
  | cons t rest ih => simp [jsonItems, ih]

theorem jsonFields_eq (fields : List (String × Validated)) :
    jsonFields fields = Fields.mapValues json fields := by
  induction fields with
  | nil => rfl
  | cons entry rest ih => simp [jsonFields, Fields.mapValues, ih]

mutual

/-- The tree without any checks, at whatever depth. -/
def strip : Validated → Validated
  | scalar v => scalar v
  | list items => list (stripItems items)
  | map entries => map (stripFields entries)
  | object className fields => object className (stripFields fields)
  | checked node _ => strip node

def stripItems : List Validated → List Validated
  | [] => []
  | t :: rest => strip t :: stripItems rest

def stripFields : List (String × Validated) → List (String × Validated)
  | [] => []
  | (name, t) :: rest => (name, strip t) :: stripFields rest

end

theorem stripItems_eq (items : List Validated) : stripItems items = items.map strip := by
  induction items with
  | nil => rfl
  | cons t rest ih => simp [stripItems, ih]

theorem stripFields_eq (fields : List (String × Validated)) :
    stripFields fields = Fields.mapValues strip fields := by
  induction fields with
  | nil => rfl
  | cons entry rest ih => simp [stripFields, Fields.mapValues, ih]

/-! ### Values taken as they are -/

/-- The names of an object are distinct, so that building its JSON anew loses none. -/
theorem json_object {className : String} {fields : List (String × Validated)}
    (h : (Fields.names fields).Nodup) :
    (object className fields).json = .object (Fields.mapValues json fields) := by
  rw [json, jsonFields_eq, Fields.ofList, Fields.insertAll_of_nodup, List.nil_append]
  simpa using h

theorem json_ofValue {v : Value} (h : v.WellFormed) : (ofValue v).json = v.json := by
  induction v using Value.induction_parts with
  | h v ih =>
    have parts : ∀ u ∈ v.parts, (ofValue u).json = u.json := fun u hu => ih u hu (h.part hu)
    cases v with
    | list items =>
      rw [ofValue, json, jsonItems_eq, ofItems_eq, List.map_map, Value.json, Value.jsonItems_eq]
      exact congrArg Json.array (List.map_congr_left parts)
    | map fields =>
      rw [ofValue, json, jsonFields_eq, ofFields_eq, Fields.mapValues_mapValues, Value.json,
        Value.jsonMembers_eq]
      exact congrArg Json.object (Fields.mapValues_congr parts)
    | object className fields =>
      rw [ofValue, ofFields_eq, json_object (by simpa using h.1), Fields.mapValues_mapValues,
        Value.json, Value.jsonMembers_eq]
      exact congrArg Json.object (Fields.mapValues_congr parts)
    | _ => rfl

/-! ### Trees -/

/-- Scalars have no parts, the keys of maps ascend, and the names of objects are distinct. -/
inductive WellFormed : Validated → Prop where
  | scalar {v} (h : ¬ v.IsContainer) : WellFormed (.scalar v)
  | list {items} (h : ∀ t ∈ items, WellFormed t) : WellFormed (.list items)
  | map {entries} (hs : Entries.Sorted entries) (h : ∀ t ∈ entries.map (·.2), WellFormed t) :
      WellFormed (.map entries)
  | object {className fields} (hn : (Fields.names fields).Nodup)
      (h : ∀ t ∈ fields.map (·.2), WellFormed t) : WellFormed (.object className fields)
  | checked {node checks} (h : WellFormed node) : WellFormed (.checked node checks)

theorem wellFormed_ofValue {v : Value} (h : v.WellFormed) : (ofValue v).WellFormed := by
  induction v using Value.induction_parts with
  | h v ih =>
    have parts : ∀ u ∈ v.parts, (ofValue u).WellFormed := fun u hu => ih u hu (h.part hu)
    cases v with
    | list items =>
      rw [ofValue, ofItems_eq]
      exact .list (List.forall_mem_map.mpr parts)
    | map entries =>
      rw [ofValue, ofFields_eq]
      exact .map (List.pairwise_map.mpr h.1) (Fields.forall_mapValues_iff.mpr parts)
    | object className fields =>
      rw [ofValue, ofFields_eq]
      exact .object (by simpa using h.1) (Fields.forall_mapValues_iff.mpr parts)
    | _ => exact .scalar not_false

theorem WellFormed.wrap {node : Validated} (h : node.WellFormed) (hasChecks : Bool)
    (checks : Checks) : (Validation.wrap hasChecks checks node).WellFormed := by
  cases hasChecks with
  | false => exact h
  | true => exact .checked h

/-- The value alone, taken as it is, is the tree without its checks. -/
theorem ofValue_toValue {t : Validated} (h : t.WellFormed) : ofValue t.toValue = t.strip := by
  induction h with
  | @scalar v h =>
    cases v with
    | list _ | map _ | object _ _ => exact absurd trivial h
    | _ => rfl
  | list _ ih =>
    rw [toValue, toItems_eq, ofValue, ofItems_eq, List.map_map, strip, stripItems_eq]
    exact congrArg list (List.map_congr_left ih)
  | map _ _ ih =>
    rw [toValue, toFields_eq, ofValue, ofFields_eq, Fields.mapValues_mapValues, strip,
      stripFields_eq]
    exact congrArg map (Fields.mapValues_congr ih)
  | object hn _ ih =>
    rw [toValue_object hn, ofValue, ofFields_eq, Fields.mapValues_mapValues, strip, stripFields_eq]
    exact congrArg (object _) (Fields.mapValues_congr ih)
  | checked _ ih => rw [toValue, strip, ih]

theorem wellFormed_toValue {t : Validated} (h : t.WellFormed) : t.toValue.WellFormed := by
  induction h with
  | @scalar v h =>
    cases v with
    | list _ | map _ | object _ _ => exact absurd trivial h
    | _ => trivial
  | list _ ih =>
    rw [toValue, toItems_eq]
    exact Value.allWellFormed_iff.mpr (List.forall_mem_map.mpr ih)
  | map hs _ ih =>
    rw [toValue, toFields_eq]
    exact ⟨List.pairwise_map.mpr hs,
      Value.fieldsWellFormed_iff.mpr (Fields.forall_mapValues_iff.mpr ih)⟩
  | object hn _ ih =>
    rw [toValue_object hn]
    exact ⟨by simpa using hn,
      Value.fieldsWellFormed_iff.mpr (Fields.forall_mapValues_iff.mpr ih)⟩
  | checked _ ih => rwa [toValue]

theorem json_strip {t : Validated} (h : t.WellFormed) : t.strip.json = t.toValue.json := by
  rw [← ofValue_toValue h, json_ofValue (wellFormed_toValue h)]

end Validated

/-! ### Validated values -/

namespace Validation

variable {w : Validation} {path : Path} {type : FieldType} {v : Value} {tree : Validated}

theorem wellFormed_objectTree {c : OrderedClass} (hc : c.Complete) {fields : List (String × Value)}
    (hf : (Value.object c.name fields).WellFormed) {values : Field → Value}
    {nodes : Field → Validated} (hn : ∀ f ∈ c.fields, (nodes f).WellFormed) :
    (w.objectTree c.toClass fields values nodes).WellFormed := by
  refine .wrap (.object (hc.names_nodup_append hf.1 _ _) ?_) ..
  rw [List.map_append, List.forall_mem_append, Fields.forall_mapValues_iff, List.map_map]
  refine ⟨List.forall_mem_map.mpr fun f hm => (hn f hm).wrap .., fun u hu => ?_⟩
  obtain ⟨entry, he, rfl⟩ := List.mem_map.mp hu
  have hm : entry.2 ∈ (Value.object c.name fields).parts :=
    List.mem_map_of_mem (List.mem_filter.mp he).1
  exact Validated.wellFormed_ofValue (hf.part hm)

theorem Derivation.wellFormed (hw : w.schema.Complete) (h : Derivation w path type v tree)
    (hv : v.WellFormed) : tree.WellFormed := by
  induction h with
  | alternative _ _ _ ih => exact ih hv
  | scalar _ hs =>
    refine .scalar ?_
    cases hs <;> exact not_false
  | list _ _ ih =>
    refine .list fun t ht => ?_
    obtain ⟨i, rfl⟩ := List.mem_ofFn.mp ht
    exact ih i (hv.part (List.getElem_mem _))
  | @map _ _ _ entries nodes _ _ _ ih =>
    have hnames : Fields.names (List.ofFn fun i => (entries[i].1, nodes i)) =
        Fields.names entries := by
      rw [Fields.names, Fields.names, List.map_ofFn, ← List.ofFn_getElem_eq_map]
      rfl
    have hsorted := hv.1.names_sorted
    rw [← hnames] at hsorted
    refine .map (List.pairwise_map.mp hsorted) fun t ht => ?_
    rw [List.map_ofFn] at ht
    obtain ⟨i, rfl⟩ := List.mem_ofFn.mp ht
    exact ih i (hv.part (List.mem_map_of_mem (List.getElem_mem _)))
  | object _ hc hval _ _ _ ih =>
    obtain ⟨hmem, rfl⟩ := Schema.mem_of_class? hc
    exact wellFormed_objectTree (hw _ hmem) hv fun f hf => ih f hf (hv.fieldValue (hval f hf))

end Validation

namespace Validated

/-- A value that is taken as it is keeps its content and its JSON. The value of a validated tree,
taken as it is, is the tree without its checks; no others are left in it, and it has the JSON of
that value. -/
theorem ofValue_round_trips (v : Value) (hv : v.WellFormed) :
    ((ofValue v).toValue = v ∧ (ofValue v).json = v.json) ∧
    ∀ (schema : Schema) settings type tree, schema.Built →
      schema.validate settings type v = .ok tree →
      ofValue tree.toValue = tree.strip ∧ (∀ found, ¬ tree.strip.Carries found) ∧
        tree.strip.json = tree.toValue.json := by
  refine ⟨⟨toValue_ofValue hv, json_ofValue hv⟩, fun schema settings type tree hb ht => ?_⟩
  have hd : Validation.Derivation ⟨schema, settings, v⟩ ⟨type.rootName, []⟩ type v tree :=
    Validation.derivation_of_visit hb.complete ht
  have hwf : tree.WellFormed := hd.wellFormed hb.complete hv
  have hstrip := ofValue_toValue hwf
  refine ⟨hstrip, fun found => ?_, json_strip hwf⟩
  rw [← hstrip]
  exact not_carries_ofValue

/-- A field and its object with a check each, of which the one on the object fails, beside a field
that is not declared. -/
theorem ofValue_round_trips_of_checks :
    let point : ClassDecl := ⟨"Point", [⟨"x", .int, []⟩], [⟨.check, "right", "this.x > 0", none⟩]⟩
    let mark : ClassDecl := ⟨"Mark", [⟨"place", .class "Point",
      [⟨.check, "known", "this != null", none⟩]⟩], []⟩
    let v : Value := .object "Mark" [("notes", .map [("by", .null), ("on", .list [])]),
      ("place", .object "Point" [("x", .int (-1))])]
    ∃ (schema : Schema) (tree : Validated),
      Schema.ofDeclarations [.class point, .class mark] = .ok schema ∧ schema.Built ∧
      v.WellFormed ∧ schema.validate (Settings.mk 128 false true) (.class "Mark") v = .ok tree ∧
      (tree.child? (.field "place")).any (·.inner.isChecked) = true ∧
      (ofValue v).toValue = v ∧ (ofValue v).json = v.json ∧
      ofValue tree.toValue = tree.strip ∧ tree.strip.json = tree.toValue.json := by
  intro point mark v
  have hsorted : Entries.Sorted [("by", Value.null), ("on", .list [])] :=
    List.pairwise_pair.mpr (by decide)
  have hv : v.WellFormed :=
    ⟨by decide, ⟨hsorted, trivial, trivial, trivial⟩, ⟨by decide, trivial, trivial⟩, trivial⟩
  have hs : (Schema.ofDeclarations [.class point, .class mark]).toOption.any (fun schema =>
      (schema.validate (Settings.mk 128 false true) (.class "Mark") v).toOption.any fun tree =>
        (tree.child? (.field "place")).any (·.inner.isChecked)) = true := by
    decide +kernel
  obtain ⟨schema, hs, hall⟩ := Results.toOption_any_iff.mp hs
  obtain ⟨tree, ht, hchecked⟩ := Results.toOption_any_iff.mp hall
  have hb := Schema.built_of_declarations hs
  obtain ⟨⟨hvalue, hjson⟩, htrees⟩ := ofValue_round_trips v hv
  obtain ⟨hstrip, -, hplain⟩ := htrees schema _ _ tree hb ht
  exact ⟨schema, tree, hs, hb, hv, ht, hchecked, hvalue, hjson, hstrip, hplain⟩

end Validated

end RecordCheck

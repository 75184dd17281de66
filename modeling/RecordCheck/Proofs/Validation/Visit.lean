import RecordCheck.Proofs.FieldType
import RecordCheck.Proofs.Validation.Constraints
import RecordCheck.Proofs.Value.Fields
import RecordCheck.Validation.Basic

/-! What a visit requires at one place and of one field. -/

namespace RecordCheck

open Results

/-- The values of a type without parts. An integer stands for a float. -/
inductive Schema.Scalar (schema : Schema) : FieldType → Value → Prop where
  | null : Scalar schema .null .null
  | bool (b) : Scalar schema .bool (.bool b)
  | int (i) : Scalar schema .int (.int i)
  | float (x) : Scalar schema .float (.float x)
  | widened (i) : Scalar schema .float (.int i)
  | string (s) : Scalar schema .string (.string s)
  | member {name variant enum} (he : schema.enum? name = some enum)
      (hv : variant ∈ enum.variants) : Scalar schema (.enum name) (.member name variant)

/-- An object of a class, filled: the fields that are given, and after them the declared ones that
are absent and may be null, each as null and in the order of their declaration. -/
inductive Class.Filled (c : Class) (fields : List (String × Value)) : Value → Prop where
  | mk {absent : List String} (ordered : absent.Sublist (c.fields.map (·.name)))
      (mem_iff : ∀ name, name ∈ absent ↔
        name ∉ Fields.names fields ∧ ∃ f ∈ c.fields, f.name = name ∧ f.type.accepts .null = true) :
      Filled c fields (.object c.name (fields ++ absent.map (·, .null)))

namespace Validation

/-- The value that a declared field has: null, if it is absent and may be null. -/
def fieldValue? (fields : List (String × Value)) (field : Field) : Option Value :=
  match Fields.find? field.name fields with
  | some v => some v
  | none => if field.type.accepts .null then some .null else none

/-- The names of the declared fields that an object lacks and that may be null. -/
def omitted (c : Class) (fields : List (String × Value)) : List String :=
  (c.fields.filter fun f =>
    decide (f.name ∉ Fields.names fields ∧ f.type.accepts .null = true)).map (·.name)

/-- The fields of an object, with those that are absent and may be null. -/
def filledFields (c : Class) (fields : List (String × Value)) : List (String × Value) :=
  fields ++ (omitted c fields).map (·, .null)

/-- The filled object. -/
def filled (c : Class) (fields : List (String × Value)) : Value :=
  .object c.name (filledFields c fields)

/-- What the constraints of a field see. -/
def fieldContext (w : Validation) (c : Class) (fields : List (String × Value)) (v : Value) :
    Eval.Context := ⟨v, filled c fields, w.root⟩

/-- What the constraints of a class see. -/
def objectContext (w : Validation) (c : Class) (fields : List (String × Value)) : Eval.Context :=
  .ofObject (filled c fields) w.root

variable {w : Validation} {path : Path} {type : FieldType} {v : Value} {tree : Validated}

theorem checkDepth_eq_ok {u : Unit} :
    w.checkDepth path = .ok u ↔ path.depth ≤ w.settings.maxDepth := by
  simp only [checkDepth]
  split
  next h => simpa using h
  next h => simpa using h

theorem isVariant_iff {name variant : String} :
    w.isVariant name variant ↔
      ∃ enum, w.schema.enum? name = some enum ∧ variant ∈ enum.variants := by
  simp [isVariant, Option.any_eq_true, EnumType.hasVariant]

theorem alternative_of_tag (ht : type.tag?.isSome) : alternative path type v = .ok type := by
  cases type <;> first | rfl | simp [FieldType.tag?] at ht

theorem alternative_of_choice (ht : type.tag? = none) :
    alternative path type v =
      match type.select? v with
      | some a => .ok a
      | none => mismatch path type.text v.typeName := by
  cases type <;> first | rfl | simp [FieldType.tag?] at ht

theorem leaf_enum_eq_ok {name : String} :
    w.leaf path (.enum name) v = .ok tree ↔ w.schema.Scalar (.enum name) v ∧ tree = .scalar v := by
  constructor
  · intro h
    cases v with
    | member enumName variant =>
      simp only [leaf, mismatch] at h
      split at h
      next hv =>
        rw [Bool.and_eq_true, decide_eq_true_eq, isVariant_iff] at hv
        obtain ⟨rfl, enum, he, hm⟩ := hv
        cases h
        exact ⟨.member he hm, rfl⟩
      next => cases h
    | _ => cases h
  · intro hx
    obtain ⟨h, rfl⟩ := hx
    cases h with
    | member he hv => simp [leaf, isVariant_iff.mpr ⟨_, he, hv⟩]

theorem leaf_eq_ok (ht : type.tag?.isSome) :
    w.leaf path type v = .ok tree ↔ w.schema.Scalar type v ∧ tree = .scalar v := by
  have admits {type : FieldType} (ht : type.tag?.isSome)
      (hs : w.schema.Scalar type v ↔ type.admits v) :
      (if type.accepts v then .ok (.scalar v) else mismatch path type.text v.typeName) =
        .ok tree ↔ w.schema.Scalar type v ∧ tree = .scalar v := by
    rw [hs, FieldType.accepts_of_tag ht]
    cases type.admits v <;> simp [mismatch, eq_comm]
  cases type with
  | null | bool | int | float | string =>
    apply admits ht
    constructor
    · intro h
      cases h <;> rfl
    · intro h
      cases v <;> first | constructor | cases h
  | enum name => exact leaf_enum_eq_ok
  | «class» name =>
    simp only [leaf, mismatch]
    constructor
    · intro h
      split at h <;> cases h
    · intro hx
      obtain ⟨h, -⟩ := hx
      cases h
  | list _ | map _ _ =>
    simp only [leaf, mismatch]
    constructor
    · intro h
      cases h
    · intro hx
      obtain ⟨h, -⟩ := hx
      cases h
  | union _ | optional _ => simp [FieldType.tag?] at ht

/-! ### Values of fields -/

section

variable {fields : List (String × Value)} {field : Field} {u : Value}

theorem fieldValue?_eq_some_iff :
    fieldValue? fields field = some u ↔ Fields.find? field.name fields = some u ∨
      Fields.find? field.name fields = none ∧ field.type.accepts .null = true ∧ u = .null := by
  rw [fieldValue?]
  cases Fields.find? field.name fields with
  | some v => simp
  | none =>
    by_cases ha : field.type.accepts .null = true
    · simpa [ha] using eq_comm
    · simp [ha]

theorem fieldValue?_eq_none_iff :
    fieldValue? fields field = none ↔
      Fields.find? field.name fields = none ∧ field.type.accepts .null = false := by
  rw [fieldValue?]
  cases Fields.find? field.name fields <;> simp

theorem fieldValue?_mem (h : fieldValue? fields field = some u) :
    u ∈ fields.map (·.2) ∨ u = .null := by
  rcases fieldValue?_eq_some_iff.mp h with hu | ⟨-, -, hnull⟩
  · exact .inl (List.mem_map_of_mem (Fields.mem_of_find? hu))
  · exact .inr hnull

theorem getD_of_fieldValue? (h : fieldValue? fields field = some u) :
    (Fields.find? field.name fields).getD .null = u := by
  rcases fieldValue?_eq_some_iff.mp h with hu | ⟨hn, -, rfl⟩
  · rw [hu, Option.getD_some]
  · rw [hn, Option.getD_none]

theorem find?_of_fieldValue? (h : fieldValue? fields field = some u) (hu : u ≠ .null) :
    Fields.find? field.name fields = some u := by
  rcases fieldValue?_eq_some_iff.mp h with h | ⟨-, -, hnull⟩
  · exact h
  · exact absurd hnull hu

end

/-! ### Filled objects -/

theorem mem_omitted {c : Class} {fields : List (String × Value)} {name : String} :
    name ∈ omitted c fields ↔
      name ∉ Fields.names fields ∧ ∃ f ∈ c.fields, f.name = name ∧ f.type.accepts .null = true := by
  simp only [omitted, List.mem_map, List.mem_filter, decide_eq_true_eq]
  constructor
  · rintro ⟨f, ⟨hf, hn, ha⟩, rfl⟩
    exact ⟨hn, f, hf, rfl, ha⟩
  · rintro ⟨hn, f, hf, rfl, ha⟩
    exact ⟨f, ⟨hf, hn, ha⟩, rfl⟩

/-- Constraints see the filled object. -/
theorem fill_eq (c : Class) (fields : List (String × Value)) :
    fill c fields = filled c fields := by
  have ha : absentFields c fields = c.fields.filter fun f =>
      decide (f.name ∉ Fields.names fields ∧ f.type.accepts .null = true) := by
    refine List.filter_congr fun f _ => ?_
    rw [Bool.eq_iff_iff, Bool.and_eq_true, Bool.not_eq_true', ← Bool.not_eq_true,
      Fields.contains, Fields.find?_isSome_iff, decide_eq_true_eq]
  rw [fill, filled, filledFields, omitted, ha, List.map_map]
  rfl

/-- A filled object has the value of every declared field. -/
theorem find?_filledFields {c : Class} {fields : List (String × Value)} {f : Field} {u : Value}
    (hf : f ∈ c.fields) (hv : fieldValue? fields f = some u) :
    Fields.find? f.name (filledFields c fields) = some u := by
  rw [filledFields, Fields.find?_append, Fields.find?_constant]
  rcases fieldValue?_eq_some_iff.mp hv with hu | ⟨hn, ha, rfl⟩
  · rw [hu, Option.some_or]
  · have habsent : f.name ∉ Fields.names fields := by simp [← Fields.find?_isSome_iff, hn]
    rw [hn, Option.none_or, if_pos (mem_omitted.mpr ⟨habsent, f, hf, rfl, ha⟩)]

theorem filled_filled (c : Class) (fields : List (String × Value)) :
    c.Filled fields (filled c fields) :=
  .mk (List.filter_sublist.map _) fun _ => mem_omitted

/-- Where no name is declared twice, this is the only one. -/
theorem filled_iff {c : Class} (hc : (c.fields.map (·.name)).Nodup)
    {fields : List (String × Value)} {object : Value} :
    c.Filled fields object ↔ object = filled c fields := by
  constructor
  · intro h
    cases h with
    | @mk absent ordered mem_iff =>
      have ha : absent = omitted c fields :=
        Results.sublist_ext hc ordered (List.filter_sublist.map _) fun name =>
          (mem_iff name).trans mem_omitted.symm
      rw [filled, filledFields, ha]
  · rintro rfl
    exact filled_filled c fields

/-! ### Visits of fields -/

theorem find?_visits (name : String) (fields : List (String × Value)) :
    Fields.find? name (visits w fields) =
      (Fields.find? name fields).map fun v path type => visit w v path type := by
  induction fields with
  | nil => rfl
  | cons entry rest ih =>
    obtain ⟨n, v⟩ := entry
    simp only [visits, Fields.find?, ih]
    split <;> rfl

theorem visitAbsent_eq : w.visitAbsent path type = visit w .null path type := by
  simp only [visitAbsent, visit]

/-- The visit of a declared field is that of its value, followed by its constraints. -/
theorem visitField_eq_ok {c : Class} {fields : List (String × Value)} {field : Field}
    {entry : String × Validated} :
    w.visitField path (filled c fields) fields (visits w fields) field = .ok entry ↔
      ∃ v node, fieldValue? fields field = some v ∧
        visit w v (path.push (.field field.name)) field.type = .ok node ∧
        MetIn (field.type.liveTag? v) (w.fieldContext c fields v) field.constraints ∧
        entry = (field.name, wrap field.hasChecks ((checksIn (field.type.liveTag? v)
          field.constraints).map (w.settings.outcome (w.fieldContext c fields v))) node) := by
  simp only [visitField, find?_visits, fieldValue?]
  cases hf : Fields.find? field.name fields with
  | some v =>
    simp only [Option.map_some, Option.getD_some, bind_eq_ok, pure_eq_ok,
      Settings.runConstraints_eq_ok, Option.some.injEq]
    constructor
    · intro h
      obtain ⟨node, hn, _, ⟨hm, rfl⟩, rfl⟩ := h
      exact ⟨v, node, rfl, hn, hm, rfl⟩
    · intro h
      obtain ⟨_, node, rfl, hn, hm, rfl⟩ := h
      exact ⟨node, hn, _, ⟨hm, rfl⟩, rfl⟩
  | none =>
    by_cases ha : field.type.accepts .null
    · simp only [ha, Option.map_none, Option.getD_none, if_true, visitAbsent_eq, bind_eq_ok,
        pure_eq_ok, Settings.runConstraints_eq_ok, Option.some.injEq]
      constructor
      · intro h
        obtain ⟨node, hn, _, ⟨hm, rfl⟩, rfl⟩ := h
        exact ⟨.null, node, rfl, hn, hm, rfl⟩
      · intro h
        obtain ⟨_, node, rfl, hn, hm, rfl⟩ := h
        exact ⟨node, hn, _, ⟨hm, rfl⟩, rfl⟩
    · simp [ha, mismatch, bind, Except.bind]

end Validation

end RecordCheck

import RecordCheck.Proofs.Validation.Acceptance
import RecordCheck.Proofs.Validation.Plain

/-! Validation gives a value back as it was, but for the order of the fields of its objects. -/

namespace RecordCheck

open Validation

/-- The declared fields in the order of the class, null where they are absent, and then the others
as they are. `forms` has for each field of the object what its value becomes under a type. -/
def Class.reorder (c : Class) (forms : List (String × (FieldType → Value)))
    (fields : List (String × Value)) : List (String × Value) :=
  (c.fields.map fun f => (f.name, ((Fields.find? f.name forms).map (· f.type)).getD .null)) ++
    fields.filter fun entry => (c.field? entry.1).isNone

namespace Schema

mutual

/-- A value with the fields of each object that is validated in the order of its class. -/
def reorder (schema : Schema) (v : Value) (type : FieldType) : Value :=
  match v with
  | .list items =>
    match type.select? (.list items) with
    | some (.list item) => .list (reorderItems schema items item)
    | _ => .list items
  | .map entries =>
    match type.select? (.map entries) with
    | some (.map _ item) => .map (reorderEntries schema entries item)
    | _ => .map entries
  | .object className fields =>
    match type.select? (.object className fields) with
    | some (.class name) =>
      match schema.class? name with
      | some c => .object className (c.toClass.reorder (reorders schema fields) fields)
      | none => .object className fields
    | _ => .object className fields
  | v => v

def reorderItems (schema : Schema) (items : List Value) (type : FieldType) : List Value :=
  match items with
  | [] => []
  | v :: rest => reorder schema v type :: reorderItems schema rest type

def reorderEntries (schema : Schema) (entries : List (String × Value)) (type : FieldType) :
    List (String × Value) :=
  match entries with
  | [] => []
  | (key, v) :: rest => (key, reorder schema v type) :: reorderEntries schema rest type

def reorders (schema : Schema) : List (String × Value) → List (String × (FieldType → Value))
  | [] => []
  | (name, v) :: rest => (name, fun type => reorder schema v type) :: reorders schema rest

end

variable {schema : Schema}

theorem reorderItems_eq (items : List Value) (type : FieldType) :
    schema.reorderItems items type = items.map (schema.reorder · type) := by
  induction items with
  | nil => rfl
  | cons v rest ih => simp [reorderItems, ih]

theorem reorderEntries_eq (entries : List (String × Value)) (type : FieldType) :
    schema.reorderEntries entries type = Fields.mapValues (schema.reorder · type) entries := by
  induction entries with
  | nil => rfl
  | cons entry rest ih => simp [reorderEntries, Fields.mapValues, ih]

theorem find?_reorders (name : String) (fields : List (String × Value)) :
    Fields.find? name (schema.reorders fields) =
      (Fields.find? name fields).map fun v type => schema.reorder v type := by
  induction fields with
  | nil => rfl
  | cons entry rest ih =>
    obtain ⟨n, v⟩ := entry
    simp only [reorders, Fields.find?, ih]
    split <;> rfl

/-! ### One layer -/

/-- A value is reordered as one of the alternative that it lives in. -/
theorem reorder_of_select? {v : Value} {type a : FieldType} (h : type.select? v = some a) :
    schema.reorder v type = schema.reorder v a := by
  have ha := FieldType.select?_of_select? h
  cases v <;> simp only [reorder, h, ha]

theorem reorder_of_scalar {v : Value} {type : FieldType} (h : schema.Scalar type v) :
    schema.reorder v type = v := by
  cases h <;> simp only [reorder]

theorem reorder_list (items : List Value) (type : FieldType) :
    schema.reorder (.list items) (.list type) = .list (items.map (schema.reorder · type)) := by
  simp only [reorder, FieldType.select?_list, reorderItems_eq]

theorem reorder_map (entries : List (String × Value)) (key type : FieldType) :
    schema.reorder (.map entries) (.map key type) =
      .map (Fields.mapValues (schema.reorder · type) entries) := by
  simp only [reorder, FieldType.select?_map, reorderEntries_eq]

/-- The fields of an object that has a value for each declared one. -/
theorem reorder_object {name : String} {c : OrderedClass} {fields : List (String × Value)}
    {values : Field → Value} (hc : schema.class? name = some c)
    (hv : ∀ f ∈ c.fields, fieldValue? fields f = some (values f)) :
    schema.reorder (.object name fields) (.class name) =
      .object name ((c.fields.map fun f => (f.name, schema.reorder (values f) f.type)) ++
        fields.filter fun entry => (c.field? entry.1).isNone) := by
  simp only [reorder, FieldType.select?_class, hc, Class.reorder, find?_reorders]
  congr 2
  apply List.map_congr_left
  intro f hf
  have hform : ((Fields.find? f.name fields).map fun v type => schema.reorder v type).map
      (· f.type) = (Fields.find? f.name fields).map fun v => schema.reorder v f.type := by
    rw [Option.map_map]
    rfl
  rw [hform, ← getD_of_fieldValue? (hv f hf)]
  cases Fields.find? f.name fields with
  | none => simp [reorder]
  | some u => rfl

end Schema

/-! ### Whole values -/

theorem Value.WellFormed.fieldValue {name : String} {fields : List (String × Value)} {f : Field}
    {u : Value} (h : (Value.object name fields).WellFormed) (hu : fieldValue? fields f = some u) :
    u.WellFormed := by
  rcases fieldValue?_mem hu with hp | rfl
  · exact h.part hp
  · trivial

/-- The names of the fields of a validated object are distinct. -/
theorem OrderedClass.Complete.names_nodup_append {α : Type} {c : OrderedClass} (hc : c.Complete)
    {fields : List (String × Value)} (hf : (Fields.names fields).Nodup) (g : Field → α)
    (e : Value → α) :
    (Fields.names ((c.fields.map fun f => (f.name, g f)) ++
      Fields.mapValues e (fields.filter fun entry => (c.field? entry.1).isNone))).Nodup := by
  have hd : Fields.names (c.fields.map fun f => (f.name, g f)) = c.fields.map (·.name) := by
    simp [Fields.names]
  have hu := Fields.names_mapValues e (fields.filter fun entry => (c.field? entry.1).isNone)
  rw [Fields.names, List.map_append]
  change (Fields.names _ ++ Fields.names _).Nodup
  rw [hd, hu]
  refine List.Nodup.append hc.names_nodup ?_ ?_
  · exact hf.sublist (List.filter_sublist.map _)
  · intro name hm hn
    obtain ⟨f, hmem, rfl⟩ := List.mem_map.mp hm
    obtain ⟨entry, he, hname⟩ := List.mem_map.mp hn
    exact Class.isNone_field?_iff.mp (List.mem_filter.mp he).2 f hmem hname.symm

namespace Validation

variable {w : Validation} {path : Path} {type : FieldType} {v : Value} {tree : Validated}

@[simp] theorem toValue_wrap (hasChecks : Bool) (checks : Checks) (node : Validated) :
    (wrap hasChecks checks node).toValue = node.toValue := by
  cases hasChecks <;> simp [wrap, Validated.toValue]

theorem toValue_objectTree {c : OrderedClass} (hc : c.Complete) {fields : List (String × Value)}
    (hf : (Value.object c.name fields).WellFormed) (values : Field → Value)
    (nodes : Field → Validated) :
    (w.objectTree c.toClass fields values nodes).toValue =
      .object c.name ((c.fields.map fun f => (f.name, (nodes f).toValue)) ++
        fields.filter fun entry => (c.field? entry.1).isNone) := by
  rw [objectTree, toValue_wrap, Validated.toValue_object (hc.names_nodup_append hf.1 _ _)]
  simp only [Fields.mapValues, List.map_append, List.map_map]
  congr 2
  · apply List.map_congr_left
    intro f _
    simp [fieldTree]
  · apply Results.map_eq_self_iff.mpr
    intro entry he
    have hm : entry.2 ∈ (Value.object c.name fields).parts :=
      List.mem_map_of_mem (List.mem_filter.mp he).1
    exact Prod.ext rfl (Validated.toValue_ofValue (hf.part hm))

theorem Derivation.toValue_eq (hw : w.schema.Complete) (h : Derivation w path type v tree)
    (hv : v.WellFormed) : tree.toValue = w.schema.reorder v type := by
  induction h with
  | alternative _ hs _ ih => rw [ih hv, Schema.reorder_of_select? hs]
  | scalar _ hs =>
    rw [Schema.reorder_of_scalar hs]
    rfl
  | @list _ _ items nodes _ _ ih =>
    rw [Schema.reorder_list, Validated.toValue, Validated.toItems_eq, List.map_ofFn,
      ← List.ofFn_getElem_eq_map]
    congr 2
    funext i
    exact ih i (hv.part (List.getElem_mem _))
  | @map _ _ _ entries nodes _ _ _ ih =>
    rw [Schema.reorder_map, Validated.toValue, Validated.toFields_eq, Fields.mapValues,
      Fields.mapValues, List.map_ofFn, ← List.ofFn_getElem_eq_map]
    congr 2
    funext i
    exact Prod.ext rfl (ih i (hv.part (List.mem_map_of_mem (List.getElem_mem _))))
  | @object _ name c fields values nodes _ hc hval _ _ _ ih =>
    obtain ⟨hmem, rfl⟩ := Schema.mem_of_class? hc
    rw [toValue_objectTree (hw c hmem) hv, Schema.reorder_object hc hval]
    congr 2
    apply List.map_congr_left
    intro f hf
    rw [ih f hf (hv.fieldValue (hval f hf))]

end Validation

/-! ### Values in order -/

namespace Schema

variable {schema : Schema}

/-- An object of a class has the declared fields first, in the order of the class. -/
def FieldsFirst (schema : Schema) (n : Node) : Prop :=
  ∀ name c fields, n.type = .class name → n.value = .object name fields →
    schema.class? name = some c → c.fields.map (·.name) <+: Fields.names fields

/-- So has every object that is met on the way inwards. -/
def InOrder (schema : Schema) (n : Node) : Prop := ∀ m, schema.Reaches n m → schema.FieldsFirst m

theorem inOrder_iff {n : Node} :
    schema.InOrder n ↔ schema.FieldsFirst n ∧ ∀ m, schema.Part n m → schema.InOrder m := by
  constructor
  · intro h
    exact ⟨h n .refl, fun m hp k hr => h k (hr.head hp)⟩
  · rintro ⟨hn, hparts⟩ m hr
    rcases Relation.ReflTransGen.cases_head hr with rfl | ⟨k, hp, hr⟩
    · exact hn
    · exact hparts k hp m hr

theorem inOrder_choice {type a : FieldType} {v : Value} {d : Nat} (ht : type.tag? = none)
    (hs : type.select? v = some a) :
    schema.InOrder ⟨d, type, v⟩ ↔ schema.InOrder ⟨d, a, v⟩ := by
  rw [inOrder_iff]
  constructor
  · intro h
    exact h.2 _ (.alternative ht hs)
  · intro h
    refine ⟨?_, fun m hp => ?_⟩
    · rintro name c fields rfl
      cases ht
    · cases hp with
      | alternative _ hs' =>
        cases hs.symm.trans hs'
        exact h
      | _ => cases ht

theorem inOrder_scalar {type : FieldType} {v : Value} {d : Nat} (h : schema.Scalar type v) :
    schema.InOrder ⟨d, type, v⟩ := by
  refine inOrder_iff.mpr ⟨?_, fun m hp => ?_⟩
  · rintro name c fields rfl rfl
    cases h
  · cases hp with
    | alternative ht => cases h <;> cases ht
    | _ => cases h

theorem inOrder_list {type : FieldType} {items : List Value} {d : Nat} :
    schema.InOrder ⟨d, .list type, .list items⟩ ↔
      ∀ u ∈ items, schema.InOrder ⟨d + 1, type, u⟩ := by
  rw [inOrder_iff]
  constructor
  · intro h u hu
    exact h.2 _ (.item hu)
  · intro h
    refine ⟨nofun, fun m hp => ?_⟩
    cases hp with
    | alternative ht => cases ht
    | item hu => exact h _ hu

theorem inOrder_map {key type : FieldType} {entries : List (String × Value)} {d : Nat} :
    schema.InOrder ⟨d, .map key type, .map entries⟩ ↔
      ∀ u ∈ entries.map (·.2), schema.InOrder ⟨d + 1, type, u⟩ := by
  rw [inOrder_iff, List.forall_mem_map]
  constructor
  · intro h entry hu
    exact h.2 _ (.entry hu)
  · intro h
    refine ⟨nofun, fun m hp => ?_⟩
    cases hp with
    | alternative ht => cases ht
    | entry hu => exact h _ hu

theorem inOrder_object {name : String} {c : OrderedClass} {fields : List (String × Value)}
    {d : Nat} (hc : schema.class? name = some c) :
    schema.InOrder ⟨d, .class name, .object name fields⟩ ↔
      c.fields.map (·.name) <+: Fields.names fields ∧
        ∀ f ∈ c.fields, ∀ u, fieldValue? fields f = some u → schema.InOrder ⟨d + 1, f.type, u⟩ := by
  rw [inOrder_iff]
  constructor
  · intro h
    exact ⟨h.1 _ _ _ rfl rfl hc, fun f hf u hu => h.2 _ (.field hc hf hu)⟩
  · rintro ⟨hfirst, hparts⟩
    refine ⟨?_, fun m hp => ?_⟩
    · rintro _ c' _ ⟨⟩ ⟨⟩ hc'
      cases hc.symm.trans hc'
      exact hfirst
    · cases hp with
      | alternative ht => cases ht
      | field hc' hf hu =>
        cases hc.symm.trans hc'
        exact hparts _ hf _ hu

end Schema

/-- Where the declared fields come first, they are followed by the others alone. -/
theorem Class.declared_append {c : Class} {fields : List (String × Value)}
    (hf : (Fields.names fields).Nodup)
    (hp : c.fields.map (·.name) <+: Fields.names fields) :
    (c.fields.map fun f => (f.name, (Fields.find? f.name fields).getD .null)) ++
      fields.filter (fun entry => (c.field? entry.1).isNone) = fields := by
  obtain ⟨rest, hrest⟩ := hp
  obtain ⟨declared, others, rfl, hd, ho⟩ := List.map_eq_append_iff.mp hrest.symm
  -- The front has the declared fields with the values that are found, and it is what the filter
  -- takes away.
  have hdeclared : (c.fields.map fun f =>
      (f.name, (Fields.find? f.name (declared ++ others)).getD .null)) = declared := by
    have hnames : (c.fields.map fun f =>
        (f.name, (Fields.find? f.name (declared ++ others)).getD .null)) =
        (c.fields.map (·.name)).map fun n =>
          (n, (Fields.find? n (declared ++ others)).getD .null) := by
      rw [List.map_map]
      rfl
    rw [hnames, ← hd, List.map_map]
    apply Results.map_eq_self_iff.mpr
    intro entry he
    have hfind := Fields.find?_of_mem hf (List.mem_append_left others he)
    simp [hfind]
  have hnone : declared.filter (fun entry => (c.field? entry.1).isNone) = [] := by
    rw [List.filter_eq_nil_iff]
    intro entry he hnone
    have hm : entry.1 ∈ c.fields.map (·.name) := hd ▸ List.mem_map_of_mem he
    obtain ⟨f, hmem, hname⟩ := List.mem_map.mp hm
    exact Class.isNone_field?_iff.mp hnone f hmem hname
  have hall : others.filter (fun entry => (c.field? entry.1).isNone) = others := by
    rw [List.filter_eq_self]
    intro entry he
    refine Class.isNone_field?_iff.mpr fun f hmem hname => ?_
    rw [Fields.names, List.map_append, hd] at hf
    exact List.disjoint_of_nodup_append hf (List.mem_map_of_mem hmem)
      (hname ▸ List.mem_map_of_mem he)
  rw [List.filter_append, hnone, hall, List.nil_append, hdeclared]

namespace Validation

variable {w : Validation} {path : Path} {type : FieldType} {v : Value} {tree : Validated}

/-- The fields of an object stay where they are exactly if the declared ones come first. -/
theorem declared_append_eq_iff {c : OrderedClass} {fields : List (String × Value)}
    {values : Field → Value} (hf : (Fields.names fields).Nodup)
    (hv : ∀ f ∈ c.fields, fieldValue? fields f = some (values f)) (g : Field → Value) :
    (c.fields.map fun f => (f.name, g f)) ++
        fields.filter (fun entry => (c.field? entry.1).isNone) = fields ↔
      c.fields.map (·.name) <+: Fields.names fields ∧ ∀ f ∈ c.fields, g f = values f := by
  constructor
  · intro h
    have hmem (f : Field) (hm : f ∈ c.fields) : (f.name, g f) ∈ fields :=
      h ▸ List.mem_append_left _ (List.mem_map_of_mem hm)
    refine ⟨⟨Fields.names (fields.filter fun entry => (c.field? entry.1).isNone), ?_⟩, ?_⟩
    · conv_rhs => rw [← h]
      simp [Fields.names]
    · intro f hm
      have hfind := getD_of_fieldValue? (hv f hm)
      rwa [Fields.find?_of_mem hf (hmem f hm)] at hfind
  · rintro ⟨hfirst, hg⟩
    conv_rhs => rw [← Class.declared_append hf hfirst]
    congr 1
    apply List.map_congr_left
    intro f hm
    rw [hg f hm, getD_of_fieldValue? (hv f hm)]

/-- A value that is accepted stays as it was exactly if its objects are in order. -/
theorem Derivation.reorder_eq_iff (h : Derivation w path type v tree) (hv : v.WellFormed)
    (d : Nat) :
    w.schema.reorder v type = v ↔ w.schema.InOrder ⟨d, type, v⟩ := by
  induction h generalizing d with
  | alternative ht hs _ ih =>
    rw [Schema.reorder_of_select? hs, ih hv d, Schema.inOrder_choice ht hs]
  | scalar _ hs => exact iff_of_true (Schema.reorder_of_scalar hs) (Schema.inOrder_scalar hs)
  | @list _ _ items nodes _ _ ih =>
    rw [Schema.reorder_list, Value.list.injEq, Results.map_eq_self_iff, Schema.inOrder_list]
    refine forall₂_congr fun u hu => ?_
    obtain ⟨i, hi, rfl⟩ := List.getElem_of_mem hu
    exact ih ⟨i, hi⟩ (hv.part hu) (d + 1)
  | @map _ _ _ entries nodes _ _ _ ih =>
    rw [Schema.reorder_map, Value.map.injEq, Fields.mapValues_eq_self_iff, Schema.inOrder_map]
    refine forall₂_congr fun u hu => ?_
    obtain ⟨entry, he, rfl⟩ := List.mem_map.mp hu
    obtain ⟨i, hi, rfl⟩ := List.getElem_of_mem he
    exact ih ⟨i, hi⟩ (hv.part hu) (d + 1)
  | @object _ name c fields values nodes _ hc hval _ _ _ ih =>
    rw [Schema.reorder_object hc hval, Value.object.injEq, Schema.inOrder_object hc,
      eq_self_iff_true, true_and, declared_append_eq_iff hv.1 hval]
    refine and_congr_right fun _ => forall₂_congr fun f hf => ?_
    have hwf := hv.fieldValue (hval f hf)
    rw [ih f hf hwf (d + 1)]
    constructor
    · intro h u hu
      rw [hval f hf, Option.some.injEq] at hu
      exact hu ▸ h
    · exact fun h => h _ (hval f hf)

end Validation

namespace Schema

variable {schema : Schema} {settings : Settings} {type : FieldType} {v : Value} {tree : Validated}

/-- The value of the tree is the validated one, with the fields of each object in the order of its
class. It is the validated value itself exactly if each object has them so already. -/
theorem Built.toValue_eq_reorder (h : schema.Built) (hv : v.WellFormed)
    (ht : schema.validate settings type v = .ok tree) :
    tree.toValue = schema.reorder v type ∧ (tree.toValue = v ↔ schema.InOrder ⟨0, type, v⟩) := by
  have hd : Derivation ⟨schema, settings, v⟩ ⟨type.rootName, []⟩ type v tree :=
    derivation_of_visit h.complete ht
  have he : tree.toValue = schema.reorder v type := hd.toValue_eq h.complete hv
  refine ⟨he, ?_⟩
  rw [he]
  exact hd.reorder_eq_iff hv 0

/-- A shape that comes with its fields in another order, without its label and with a field that is
not declared. The integer stays one where a float is declared. -/
theorem exists_toValue_reordered :
    let point : ClassDecl := ⟨"Point", [⟨"x", .int, []⟩, ⟨"y", .float, []⟩],
      [⟨.check, "above", "this.y > 0", none⟩]⟩
    let shape : ClassDecl := ⟨"Shape", [⟨"label", .optional .string, []⟩,
      ⟨"points", .list (.class "Point"), [⟨.check, "some", "this|length > 0", none⟩]⟩], []⟩
    let v : Value := .object "Shape" [("scale", .list [.null]),
      ("points", .list [.object "Point" [("y", .int 2), ("x", .int 1)]])]
    ∃ (schema : Schema) (tree : Validated),
      Schema.ofDeclarations [.class point, .class shape] = .ok schema ∧ schema.Built ∧
      v.WellFormed ∧ schema.validate (Settings.mk 128 false true) (.class "Shape") v = .ok tree ∧
      tree.toValue = schema.reorder v (.class "Shape") ∧
      tree.toValue.text =
        "Shape \x7b label: null, points: [Point \x7b x: 1, y: 2 \x7d], scale: [null] \x7d" := by
  intro point shape v
  have hv : v.WellFormed := by
    simp [v, Value.WellFormed, Value.FieldsWellFormed, Value.AllWellFormed, Fields.names]
  have hs : (Schema.ofDeclarations [.class point, .class shape]).toOption.any (fun schema =>
      (schema.validate (Settings.mk 128 false true) (.class "Shape") v).isOk &&
        (schema.reorder v (.class "Shape")).text ==
          "Shape \x7b label: null, points: [Point \x7b x: 1, y: 2 \x7d], scale: [null] \x7d") =
      true := by
    decide +kernel
  obtain ⟨schema, hs, hall⟩ := Results.toOption_any_iff.mp hs
  obtain ⟨hok, htext⟩ := Bool.and_eq_true_iff.mp hall
  obtain ⟨tree, ht⟩ := Results.isOk_iff.mp hok
  have hb := Schema.built_of_declarations hs
  have he := (hb.toValue_eq_reorder hv ht).1
  exact ⟨schema, tree, hs, hb, hv, ht, he, he ▸ beq_iff_eq.mp htext⟩

end Schema

end RecordCheck

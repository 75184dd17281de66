import RecordCheck.Proofs.Validation.Reorder

/-! The places inside a value that is validated, and the nodes of the tree that stand at them. A
step inwards in the value is one in the tree, whatever checks are around the nodes. -/

namespace RecordCheck

open Validation

/-! ### Nodes and the checks around them -/

namespace Validated

/-- The node without any checks around it. -/
def bare : Validated → Validated
  | checked node _ => bare node
  | t => t

/-- The outcomes of checks around a node, from the outside in. -/
def wrappers : Validated → List Checks
  | checked node checks => checks :: wrappers node
  | _ => []

/-- The node that some steps lead to, past all checks. -/
def reach? (t : Validated) (steps : List Step) : Option Validated :=
  steps.foldlM (fun t step => t.bare.child? step) t

@[simp] theorem bare_wrap (hasChecks : Bool) (checks : Checks) (node : Validated) :
    (wrap hasChecks checks node).bare = node.bare := by
  cases hasChecks <;> simp [wrap, bare]

@[simp] theorem wrappers_wrap (hasChecks : Bool) (checks : Checks) (node : Validated) :
    (wrap hasChecks checks node).wrappers =
      (if hasChecks then [checks] else []) ++ node.wrappers := by
  cases hasChecks <;> simp [wrap, wrappers]

@[simp] theorem bare_ofValue (v : Value) : (ofValue v).bare = ofValue v := by
  cases v <;> simp only [ofValue, bare]

@[simp] theorem wrappers_ofValue (v : Value) : (ofValue v).wrappers = [] := by
  cases v <;> simp only [ofValue, wrappers]

theorem child?_ofValue (v : Value) (step : Step) :
    (ofValue v).child? step = (v.child? step).map ofValue := by
  cases step with
  | field name =>
    cases v with
    | object _ fields =>
      simp [ofValue, child?, inner, Value.child?, ofFields_eq, Fields.find?_mapValues]
    | _ => simp [ofValue, child?, inner, Value.child?]
  | index i =>
    cases v with
    | list items => simp [ofValue, child?, inner, Value.child?, ofItems_eq]
    | _ => simp [ofValue, child?, inner, Value.child?]
  | key key =>
    cases v with
    | map entries =>
      simp [ofValue, child?, inner, Value.child?, ofFields_eq, Fields.find?_mapValues]
    | _ => simp [ofValue, child?, inner, Value.child?]

end Validated

/-! ### Spots -/

/-- The class of the objects in an alternative. -/
def Schema.classOf? (schema : Schema) : Option Tag → Option OrderedClass
  | some (.class name) => schema.class? name
  | _ => none

/-- A declared field of an object that is validated. -/
structure Holder where
  owner : OrderedClass
  fields : List (String × Value)
  field : Field

/-- A value inside the one that is validated: the type that it is validated against, if it is
validated at all, and the declared field that it is the value of, if it is that of one. -/
structure Spot where
  type? : Option FieldType
  value : Value
  holder? : Option Holder

namespace Spot

/-- The alternative that the value lives in. -/
def live? (s : Spot) : Option FieldType := s.type?.bind (·.select? s.value)

theorem live?_of_select? {type a : FieldType} {v : Value} (hs : type.select? v = some a)
    (holder? : Option Holder) :
    live? ⟨some type, v, holder?⟩ = live? ⟨some a, v, holder?⟩ := by
  simp [live?, hs, FieldType.select?_of_select? hs]

def liveTag? (s : Spot) : Option Tag := s.live?.bind (·.tag?)

/-- The class that the value is validated as an object of. -/
def class? (schema : Schema) (s : Spot) : Option OrderedClass := schema.classOf? s.liveTag?

/-- The declared field that has the value. -/
def field? (s : Spot) : Option Field := s.holder?.map (·.field)

/-- What becomes of the value. One that is not validated is taken as it is. -/
def form (schema : Schema) (s : Spot) : Value :=
  match s.type? with
  | some type => schema.reorder s.value type
  | none => s.value

end Spot

namespace Schema

/-- The spot one step inwards. An absent field that may be null has a spot, of a null. -/
def inward? (schema : Schema) (s : Spot) (step : Step) : Option Spot :=
  match s.live?, step with
  | some (.list item), step => (s.value.child? step).map fun u => ⟨some item, u, none⟩
  | some (.map _ item), step => (s.value.child? step).map fun u => ⟨some item, u, none⟩
  | some (.class name), .field n => do
    let (_, fields) ← s.value.object?
    let c ← schema.class? name
    match c.field? n with
    | some f => (fieldValue? fields f).map fun u => ⟨some f.type, u, some ⟨c, fields, f⟩⟩
    | none => (Fields.find? n fields).map fun u => ⟨none, u, none⟩
  | _, step => (s.value.child? step).map fun u => ⟨none, u, none⟩

/-- The spot that some steps into a value of a type lead to. -/
def spot? (schema : Schema) (type : FieldType) (v : Value) (steps : List Step) : Option Spot :=
  steps.foldlM schema.inward? ⟨some type, v, none⟩

end Schema

namespace Validation

/-- The outcomes of the checks on the field that has its value at a spot. -/
def fieldChecks? (w : Validation) (s : Spot) : Option Checks :=
  s.holder?.bind fun h =>
    if DeclaresCheck h.field.constraints then
      some ((checksIn (h.field.type.liveTag? s.value) h.field.constraints).map
        (w.settings.outcome (w.fieldContext h.owner.toClass h.fields s.value)))
    else none

/-- The outcomes of the checks on an object as a whole that stands at a spot. -/
def objectChecks? (w : Validation) (s : Spot) : Option Checks := do
  let c ← s.class? w.schema
  let (_, fields) ← s.value.object?
  if DeclaresCheck c.constraints then
    some ((checksIn (some (.class c.name)) c.constraints).map
      (w.settings.outcome (w.objectContext c.toClass fields)))
  else none

/-- All that is recorded at a spot, the checks on the field first. -/
def wrappers (w : Validation) (s : Spot) : List Checks :=
  (w.fieldChecks? s).toList ++ (w.objectChecks? s).toList

/-- A node is the one for a spot. -/
inductive Stands (w : Validation) : Spot → Validated → Prop where
  | value {path type v node} (h : Derivation w path type v node) :
      Stands w ⟨some type, v, none⟩ node
  | field {path owner fields f v node} (h : Derivation w path f.type v node) :
      Stands w ⟨some f.type, v, some ⟨owner, fields, f⟩⟩
        (w.fieldTree owner.toClass fields f v node)
  | plain {v} : Stands w ⟨none, v, none⟩ (.ofValue v)

end Validation

/-! ### Steps -/

namespace Schema

variable {schema : Schema}

theorem inward?_of_select? {type a : FieldType} {v : Value} (hs : type.select? v = some a)
    (holder? : Option Holder) (step : Step) :
    schema.inward? ⟨some type, v, holder?⟩ step = schema.inward? ⟨some a, v, holder?⟩ step := by
  simp only [inward?, Spot.live?_of_select? hs]

theorem inward?_plain (v : Value) (holder? : Option Holder) (step : Step) :
    schema.inward? ⟨none, v, holder?⟩ step = (v.child? step).map fun u => ⟨none, u, none⟩ := rfl

theorem inward?_null (type? : Option FieldType) (holder? : Option Holder) (step : Step) :
    schema.inward? ⟨type?, .null, holder?⟩ step = none := by
  have hn : Value.null.child? step = none := by cases step <;> rfl
  simp only [inward?]
  split <;> simp [hn, Value.object?]

theorem inward?_list (type : FieldType) (items : List Value) (holder? : Option Holder)
    (step : Step) :
    schema.inward? ⟨some (.list type), .list items, holder?⟩ step =
      ((Value.list items).child? step).map fun u => ⟨some type, u, none⟩ := by
  simp only [inward?, Spot.live?, Option.bind_some, FieldType.select?_list]

theorem inward?_map (key type : FieldType) (entries : List (String × Value))
    (holder? : Option Holder) (step : Step) :
    schema.inward? ⟨some (.map key type), .map entries, holder?⟩ step =
      ((Value.map entries).child? step).map fun u => ⟨some type, u, none⟩ := by
  simp only [inward?, Spot.live?, Option.bind_some, FieldType.select?_map]

theorem inward?_field {name : String} {c : OrderedClass} (hc : schema.class? name = some c)
    (fields : List (String × Value)) (holder? : Option Holder) (n : String) :
    schema.inward? ⟨some (.class name), .object name fields, holder?⟩ (.field n) =
      match c.field? n with
      | some f => (fieldValue? fields f).map fun u => ⟨some f.type, u, some ⟨c, fields, f⟩⟩
      | none => (Fields.find? n fields).map fun u => ⟨none, u, none⟩ := by
  simp only [inward?, Spot.live?, Option.bind_some, FieldType.select?_class, Value.object?, hc,
    Option.bind_eq_bind]

theorem Scalar.select? {type : FieldType} {v : Value} (h : schema.Scalar type v) :
    type.select? v = some type := by
  apply FieldType.select?_of_tag
  · cases h <;> rfl
  · cases h <;> simp [FieldType.admits, FieldType.tag?, Value.tag]

/-! ### Steps to what is validated -/

variable {type a t : FieldType} {v u : Value} {holder? next? : Option Holder} {step : Step}
  {steps : List Step} {s : Spot}

/-- The step from a value to a part of it that is validated in its turn. -/
inductive Inward (schema : Schema) : FieldType → Value → Step → FieldType → Value → Prop where
  | item {type items i u} (hu : items[i]? = some u) :
      Inward schema (.list type) (.list items) (.index i) type u
  | entry {key type entries k u} (hu : Fields.find? k entries = some u) :
      Inward schema (.map key type) (.map entries) (.key k) type u
  | field {name c fields f u} (hc : schema.class? name = some c) (hf : f ∈ c.fields)
      (hu : fieldValue? fields f = some u) :
      Inward schema (.class name) (.object name fields) (.field f.name) f.type u

theorem inward_item (hl : type.select? v = some (.list t)) (hu : v.child? step = some u) :
    schema.Inward (.list t) v step t u := by
  obtain ⟨items, rfl⟩ := FieldType.eq_list_of_admits (FieldType.select?_spec hl).2
  cases step with
  | index i => exact .item hu
  | _ => cases hu

theorem inward_entry {key : FieldType} (hl : type.select? v = some (.map key t))
    (hu : v.child? step = some u) : schema.Inward (.map key t) v step t u := by
  obtain ⟨entries, rfl⟩ := FieldType.eq_map_of_admits (FieldType.select?_spec hl).2
  cases step with
  | key k => exact .entry hu
  | _ => cases hu

/-- A step that leads to what is validated is one of these, from the alternative that the value
lives in. -/
theorem inward_of_inward?
    (h : schema.inward? ⟨some type, v, holder?⟩ step = some ⟨some t, u, next?⟩) :
    ∃ a, type.select? v = some a ∧ schema.Inward a v step t u := by
  simp only [inward?, Spot.live?, Option.bind_some] at h
  split at h
  next hl =>
    obtain ⟨x, hx, he⟩ := Option.map_eq_some_iff.mp h
    cases he
    exact ⟨_, hl, inward_item hl hx⟩
  next hl =>
    obtain ⟨x, hx, he⟩ := Option.map_eq_some_iff.mp h
    cases he
    exact ⟨_, hl, inward_entry hl hx⟩
  next name n hl =>
    obtain ⟨fields, rfl⟩ := FieldType.eq_object_of_admits (FieldType.select?_spec hl).2
    simp only [Value.object?, Option.bind_eq_bind, Option.bind_some, Option.bind_eq_some_iff] at h
    obtain ⟨d, hd, h⟩ := h
    split at h
    next f hf =>
      obtain ⟨x, hx, he⟩ := Option.map_eq_some_iff.mp h
      cases he
      obtain ⟨hm, rfl⟩ := Class.mem_of_field? hf
      exact ⟨_, hl, .field hd hm hx⟩
    next =>
      obtain ⟨x, -, he⟩ := Option.map_eq_some_iff.mp h
      cases he
  next =>
    obtain ⟨x, -, he⟩ := Option.map_eq_some_iff.mp h
    cases he

/-- Inside a value that is not validated, nothing is. -/
theorem class?_of_plain (h : steps.foldlM schema.inward? ⟨none, v, holder?⟩ = some s) :
    s.class? schema = none := by
  induction steps generalizing v holder? with
  | nil =>
    cases h
    rfl
  | cons step rest ih =>
    rw [List.foldlM_cons, inward?_plain] at h
    obtain ⟨mid, hm, hr⟩ := Option.bind_eq_some_iff.mp h
    obtain ⟨u, -, rfl⟩ := Option.map_eq_some_iff.mp hm
    exact ih hr

end Schema

namespace Validation

variable {w : Validation} {path : Path} {type : FieldType} {v : Value} {tree : Validated}

theorem bare_objectTree {c : Class} {fields : List (String × Value)} {values : Field → Value}
    {nodes : Field → Validated} :
    (w.objectTree c fields values nodes).bare =
      .object c.name ((c.fields.map fun f =>
          (f.name, w.fieldTree c fields f (values f) (nodes f))) ++
        Fields.mapValues Validated.ofValue
          (fields.filter fun entry => (c.field? entry.1).isNone)) := by
  simp only [objectTree, Validated.bare_wrap, Validated.bare]

/-- A declared field is found among the declared ones, and any other as it came. -/
theorem find?_arranged {α : Type} (c : Class) (g : Field → α) (e : Value → α)
    (fields : List (String × Value)) (name : String) :
    Fields.find? name ((c.fields.map fun f => (f.name, g f)) ++
        Fields.mapValues e (fields.filter fun entry => (c.field? entry.1).isNone)) =
      match c.field? name with
      | some f => some (g f)
      | none => (Fields.find? name fields).map e := by
  rw [Fields.find?_append, Class.find?_map]
  cases hn : c.field? name with
  | some f => rfl
  | none =>
    rw [Option.map_none, Option.none_or, Fields.find?_mapValues,
      Fields.find?_filter (p := fun n => (c.field? n).isNone) (by simp [hn])]

theorem child?_object (name : String) (fields : List (String × Validated)) (n : String) :
    (Validated.object name fields).child? (.field n) = Fields.find? n fields := rfl

/-- A step into the value is a step into the tree. -/
theorem Derivation.inward? (h : Derivation w path type v tree) (holder? : Option Holder)
    (step : Step) :
    Option.Rel (Stands w) (w.schema.inward? ⟨some type, v, holder?⟩ step)
      (tree.bare.child? step) := by
  induction h with
  | alternative _ hs _ ih =>
    rw [Schema.inward?_of_select? hs]
    exact ih
  | @scalar path type v hd hs =>
    have hl : Spot.live? ⟨some type, v, holder?⟩ = some type := hs.select?
    simp only [Schema.inward?, hl]
    cases hs <;> cases step <;> exact .none
  | @list path type items nodes hd h _ =>
    rw [Schema.inward?_list]
    cases step with
    | index i =>
      apply Results.rel_map_left
      exact Results.getElem?_rel (Results.forall₂_ofFn fun i => .value (h i)) i
    | _ => exact .none
  | @map path key type entries nodes hd hk h _ =>
    rw [Schema.inward?_map]
    cases step with
    | key k =>
      have hr : List.Forall₂ (fun (a : String × Value) (b : String × Validated) =>
          a.1 = b.1 ∧ Stands w ⟨some type, a.2, none⟩ b.2) entries
          (List.ofFn fun i => (entries[i].1, nodes i)) :=
        Results.forall₂_ofFn fun i => ⟨rfl, .value (h i)⟩
      apply Results.rel_map_left
      exact Fields.find?_rel (r := fun u t => Stands w ⟨some type, u, none⟩ t) hr k
    | _ => exact .none
  | @object path name c fields values nodes hd hc hv h hm ho _ =>
    rw [bare_objectTree]
    cases step with
    | field n =>
      rw [Schema.inward?_field hc, child?_object, find?_arranged]
      cases hn : c.field? n with
      | some f =>
        obtain ⟨hf, -⟩ := Class.mem_of_field? hn
        simp only [hv f hf, Option.map_some]
        exact .some (.field (h f hf))
      | none =>
        apply Results.rel_map_left
        apply Results.rel_map_right
        cases Fields.find? n fields with
        | some u => exact .some .plain
        | none => exact .none
    | _ =>
      have hl : Spot.live? ⟨some (.class name), .object name fields, holder?⟩ =
          some (.class name) := FieldType.select?_class name fields
      simp only [Schema.inward?, hl]
      exact .none

/-- A step from a spot is a step from its node. -/
theorem Stands.inward? {s : Spot} {t : Validated} (h : Stands w s t) (step : Step) :
    Option.Rel (Stands w) (w.schema.inward? s step) (t.bare.child? step) := by
  cases h with
  | value h => exact h.inward? none step
  | field h =>
    rw [fieldTree, Validated.bare_wrap]
    exact h.inward? _ step
  | @plain v =>
    rw [Schema.inward?_plain, Validated.bare_ofValue, Validated.child?_ofValue]
    apply Results.rel_map_left
    apply Results.rel_map_right
    cases v.child? step with
    | some u => exact .some .plain
    | none => exact .none

/-- So it is with any number of steps. -/
theorem Stands.reach? {s : Spot} {t : Validated} (h : Stands w s t) (steps : List Step) :
    Option.Rel (Stands w) (steps.foldlM w.schema.inward? s) (t.reach? steps) := by
  induction steps generalizing s t with
  | nil => exact .some h
  | cons step rest ih =>
    have hstep := h.inward? step
    rw [Validated.reach?, List.foldlM_cons, List.foldlM_cons]
    cases hs : w.schema.inward? s step <;> cases ht : t.bare.child? step <;>
      rw [hs, ht] at hstep <;> cases hstep
    · exact .none
    next hst => exact ih hst

/-! ### What stands at a spot -/

theorem liveTag_of_class? {schema : Schema} {s : Spot} {c : OrderedClass}
    (h : s.class? schema = some c) : s.liveTag? = some (.class c.name) := by
  simp only [Spot.class?, Schema.classOf?] at h
  split at h
  next name ht =>
    obtain ⟨-, rfl⟩ := Schema.mem_of_class? h
    exact ht
  next => cases h

/-- A value that is validated as an object of a class is an object of that class. -/
theorem object_of_class? {schema : Schema} {s : Spot} {c : OrderedClass}
    (h : s.class? schema = some c) : ∃ fields, s.value = .object c.name fields := by
  obtain ⟨type?, v, holder?⟩ := s
  obtain ⟨a, ha, hta⟩ := Option.bind_eq_some_iff.mp (liveTag_of_class? h)
  obtain ⟨type, rfl, hs⟩ := Option.bind_eq_some_iff.mp ha
  obtain rfl := FieldType.eq_class_of_tag? hta
  exact FieldType.eq_object_of_admits (FieldType.select?_spec hs).2

theorem Derivation.wrappers_eq (h : Derivation w path type v tree) (holder? : Option Holder) :
    tree.wrappers = (w.objectChecks? ⟨some type, v, holder?⟩).toList := by
  induction h with
  | alternative _ hs _ ih =>
    rw [ih]
    simp only [objectChecks?, Spot.class?, Spot.liveTag?, Spot.live?_of_select? hs]
  | @scalar path type v hd hs =>
    have hl : Spot.live? ⟨some type, v, holder?⟩ = some type := hs.select?
    simp only [objectChecks?, Spot.class?, Spot.liveTag?, hl]
    cases hs <;> rfl
  | list => rfl
  | map => rfl
  | @object path name c fields values nodes hd hc =>
    have hl : Spot.live? ⟨some (.class name), .object name fields, holder?⟩ =
        some (.class name) := FieldType.select?_class name fields
    have hcls : Spot.class? w.schema ⟨some (.class name), .object name fields, holder?⟩ =
        some c := by
      simp only [Spot.class?, Spot.liveTag?, hl, Option.bind_some, FieldType.tag?,
        Schema.classOf?, hc]
    rw [objectTree, Validated.wrappers_wrap]
    simp only [objectChecks?, hcls, Value.object?, Option.bind_eq_bind, Option.bind_some]
    simp only [Class.hasChecks_iff]
    by_cases hk : DeclaresCheck c.constraints <;> simp [hk, Validated.wrappers]

/-- Around the node for a spot stand the outcomes of the checks there and no others. -/
theorem Stands.wrappers_eq {s : Spot} {t : Validated} (h : Stands w s t) :
    t.wrappers = w.wrappers s := by
  cases h with
  | value h => exact h.wrappers_eq none
  | @field path owner fields f v node h =>
    rw [fieldTree, Validated.wrappers_wrap, h.wrappers_eq, wrappers]
    congr 1
    simp only [fieldChecks?, Option.bind_some, Field.hasChecks_iff]
    split <;> rfl
  | plain => exact Validated.wrappers_ofValue _

/-- The node for a spot has the value that the one of the spot becomes. -/
theorem Stands.toValue_eq (hw : w.schema.Complete) {s : Spot} {t : Validated} (h : Stands w s t)
    (hv : s.value.WellFormed) : t.toValue = s.form w.schema := by
  cases h with
  | value h => exact h.toValue_eq hw hv
  | field h =>
    rw [fieldTree, toValue_wrap]
    exact h.toValue_eq hw hv
  | plain => exact Validated.toValue_ofValue hv

end Validation

end RecordCheck

import RecordCheck.Proofs.Validation.Congruence
import RecordCheck.Proofs.Validation.Spots

/-! Leaving out a field that may be null, and giving it as null. An object looks the same to its
own constraints either way. Where it does to those of the objects around it as well, the visits
agree. -/

namespace RecordCheck

open Validation

/-- An object around a part of a value, the declared field that has the part inside it, and the
fields of the object before and after the part is changed. -/
structure Enclosure where
  owner : OrderedClass
  field : Field
  before : List (String × Value)
  after : List (String × Value)

/-- The constraints of the object and of its fields have the same verdicts before and after,
whatever the outermost value is. -/
structure Enclosure.Unmoved (e : Enclosure) : Prop where
  fields : ∀ root, ∀ f ∈ e.owner.fields, ∀ u u', fieldValue? e.before f = some u →
    fieldValue? e.after f = some u' →
    SameVerdicts (f.type.liveTag? u) ⟨u, filled e.owner.toClass e.before, root⟩
      ⟨u', filled e.owner.toClass e.after, root⟩ f.constraints
  own : ∀ root, SameVerdicts (some (.class e.owner.name))
    (.ofObject (filled e.owner.toClass e.before) root)
    (.ofObject (filled e.owner.toClass e.after) root) e.owner.constraints

/-- One object that is validated inside a value is filled: the declared fields that it lacks and
that may be null are added to it as null. The objects that have it in a declared field are around
it, the outermost one first. -/
inductive Schema.Filling (schema : Schema) :
    FieldType → Value → Value → List Enclosure → Prop where
  | here {name c fields object} (hc : schema.class? name = some c)
      (hf : c.toClass.Filled fields object) :
      Filling schema (.class name) (.object name fields) object []
  | alternative {type a v v' es} (ht : type.tag? = none) (hs : type.select? v = some a)
      (h : Filling schema a v v' es) : Filling schema type v v' es
  | item {type pre post u u' es} (h : Filling schema type u u' es) :
      Filling schema (.list type) (.list (pre ++ u :: post)) (.list (pre ++ u' :: post)) es
  | entry {key type k pre post u u' es} (hk : k ∉ Fields.names pre)
      (h : Filling schema type u u' es) :
      Filling schema (.map key type) (.map (pre ++ (k, u) :: post)) (.map (pre ++ (k, u') :: post))
        es
  | field {name c f pre post u u' es} (hc : schema.class? name = some c) (hf : f ∈ c.fields)
      (hn : f.name ∉ Fields.names pre) (h : Filling schema f.type u u' es) :
      Filling schema (.class name) (.object name (pre ++ (f.name, u) :: post))
        (.object name (pre ++ (f.name, u') :: post))
        (⟨c, f, pre ++ (f.name, u) :: post, pre ++ (f.name, u') :: post⟩ :: es)

namespace Schema

/-- The object that is validated at a spot can be filled where some steps lead to it. -/
def Fillable (schema : Schema) (type : FieldType) (v : Value) (steps : List Step) (s : Spot)
    (c : OrderedClass) : Prop :=
  ∃ fields object v' es, s.value = .object c.name fields ∧ c.toClass.Filled fields object ∧
    schema.Filling type v v' es ∧ v'.at? steps = some object

variable {schema : Schema} {type a t : FieldType} {v v' u : Value} {es : List Enclosure}
  {holder? : Option Holder} {step : Step} {steps : List Step} {s : Spot} {c : OrderedClass}

theorem Filling.tag_eq (h : schema.Filling type v v' es) : v.tag = v'.tag := by
  induction h with
  | here hc hf =>
    obtain ⟨-, rfl⟩ := Schema.mem_of_class? hc
    cases hf
    rfl
  | alternative _ _ _ ih => exact ih
  | _ => rfl

theorem Filling.ne_null (h : schema.Filling type v v' es) : v ≠ .null := by
  induction h with
  | alternative _ _ _ ih => exact ih
  | _ => simp

theorem Filling.of_select? (hs : type.select? v = some a) (h : schema.Filling a v v' es) :
    schema.Filling type v v' es := by
  cases ht : type.tag? with
  | none => exact .alternative ht hs h
  | some tag =>
    obtain rfl := FieldType.eq_of_select? (by simp [ht]) hs
    exact h

/-! ### Every object can be filled -/

namespace Fillable

theorem of_select? (hs : type.select? v = some a) (h : schema.Fillable a v steps s c) :
    schema.Fillable type v steps s c := by
  obtain ⟨fields, object, v', es, hv, ho, hf, hat⟩ := h
  exact ⟨fields, object, v', es, hv, ho, .of_select? hs hf, hat⟩

theorem item {items : List Value} {i : Nat} (hu : items[i]? = some u)
    (h : schema.Fillable t u steps s c) :
    schema.Fillable (.list t) (.list items) (.index i :: steps) s c := by
  obtain ⟨fields, object, u', es, hv, ho, hf, hat⟩ := h
  obtain ⟨pre, post, rfl, rfl⟩ := Results.exists_of_getElem? hu
  refine ⟨fields, object, .list (pre ++ u' :: post), es, hv, ho, .item hf, ?_⟩
  simp [Value.at?_cons, Value.child?, hat]

theorem entry {key : FieldType} {entries : List (String × Value)} {k : String}
    (hu : Fields.find? k entries = some u) (h : schema.Fillable t u steps s c) :
    schema.Fillable (.map key t) (.map entries) (.key k :: steps) s c := by
  obtain ⟨fields, object, u', es, hv, ho, hf, hat⟩ := h
  obtain ⟨pre, post, rfl, hk⟩ := Fields.exists_of_find? hu
  refine ⟨fields, object, .map (pre ++ (k, u') :: post), es, hv, ho, .entry hk hf, ?_⟩
  simp [Value.at?_cons, Value.child?, Fields.find?_middle hk, hat]

theorem field {name : String} {d : OrderedClass} {given : List (String × Value)} {f : Field}
    (hd : schema.class? name = some d) (hf : f ∈ d.fields) (hu : fieldValue? given f = some u)
    (h : schema.Fillable f.type u steps s c) :
    schema.Fillable (.class name) (.object name given) (.field f.name :: steps) s c := by
  obtain ⟨fields, object, u', es, hv, ho, hfill, hat⟩ := h
  have hgiven : Fields.find? f.name given = some u :=
    find?_of_fieldValue? hu hfill.ne_null
  obtain ⟨pre, post, rfl, hn⟩ := Fields.exists_of_find? hgiven
  refine ⟨fields, object, .object name (pre ++ (f.name, u') :: post), _, hv, ho,
    .field hd hf hn hfill, ?_⟩
  simp [Value.at?_cons, Value.child?, Fields.find?_middle hn, hat]

theorem inward (hi : schema.Inward a v step t u) (h : schema.Fillable t u steps s c) :
    schema.Fillable a v (step :: steps) s c := by
  cases hi with
  | item hu => exact item hu h
  | entry hu => exact entry hu h
  | field hd hf hu => exact field hd hf hu h

end Fillable

/-- An object that is validated at any spot can be filled there. -/
theorem fillable_of_class? (h : steps.foldlM schema.inward? ⟨some type, v, holder?⟩ = some s)
    (hc : s.class? schema = some c) : schema.Fillable type v steps s c := by
  induction steps generalizing type v holder? with
  | nil =>
    cases h
    obtain ⟨fields, rfl⟩ := object_of_class? hc
    obtain ⟨a, ha, ht⟩ := Option.bind_eq_some_iff.mp (liveTag_of_class? hc)
    obtain rfl := FieldType.eq_class_of_tag? ht
    have hcls : schema.class? c.name = some c := by
      rwa [Spot.class?, liveTag_of_class? hc] at hc
    have ho := filled_filled c.toClass fields
    exact ⟨fields, _, _, [], rfl, ho, .of_select? ha (.here hcls ho), rfl⟩
  | cons step rest ih =>
    rw [List.foldlM_cons] at h
    obtain ⟨⟨type?, u, next?⟩, hm, hr⟩ := Option.bind_eq_some_iff.mp h
    cases type? with
    | none => cases hc.symm.trans (class?_of_plain hr)
    | some t =>
      obtain ⟨a, hs, hi⟩ := inward_of_inward? hm
      exact .of_select? hs (.inward hi (ih hr))

end Schema

namespace OrderedClass

variable {c : OrderedClass} {f g : Field} {fields pre post : List (String × Value)} {u u' : Value}

/-! ### The filled object itself -/

/-- A filled object has the declared fields that the object has. -/
theorem Complete.fieldValue?_filledFields (hc : c.Complete) (hf : f ∈ c.fields) :
    fieldValue? (filledFields c.toClass fields) f = fieldValue? fields f := by
  cases hv : fieldValue? fields f with
  | some u => exact fieldValue?_eq_some_iff.mpr (.inl (find?_filledFields hf hv))
  | none =>
    obtain ⟨hn, ha⟩ := fieldValue?_eq_none_iff.mp hv
    have hm : f.name ∉ omitted c.toClass fields := by
      intro hm
      obtain ⟨-, g, hg, he, hnull⟩ := mem_omitted.mp hm
      obtain rfl := hc.field_eq hg hf he
      rw [ha] at hnull
      cases hnull
    refine fieldValue?_eq_none_iff.mpr ⟨?_, ha⟩
    rw [filledFields, Fields.find?_append, hn, Fields.find?_constant, if_neg hm, Option.or_none]

theorem names_filledFields (c : OrderedClass) (fields : List (String × Value)) :
    Fields.names (filledFields c.toClass fields) =
      Fields.names fields ++ omitted c.toClass fields := by
  simp [Fields.names, filledFields, Function.comp_def]

/-- What is filled lacks nothing that may be null. -/
theorem filled_filledFields (c : OrderedClass) (fields : List (String × Value)) :
    filled c.toClass (filledFields c.toClass fields) = filled c.toClass fields := by
  have ho : omitted c.toClass (filledFields c.toClass fields) = [] := by
    rw [List.eq_nil_iff_forall_not_mem]
    intro name hm
    obtain ⟨hn, hf⟩ := mem_omitted.mp hm
    rw [names_filledFields, List.mem_append, not_or] at hn
    exact hn.2 (mem_omitted.mpr ⟨hn.1, hf⟩)
  rw [filled, filledFields, ho, List.map_nil, List.append_nil]
  rfl

/-- Only declared fields are added. -/
theorem undeclared_filledFields (c : OrderedClass) (fields : List (String × Value)) :
    (filledFields c.toClass fields).filter (fun entry => (c.field? entry.1).isNone) =
      fields.filter fun entry => (c.field? entry.1).isNone := by
  rw [filledFields, List.filter_append, List.append_right_eq_self, List.filter_eq_nil_iff]
  intro entry he hnone
  obtain ⟨name, hm, rfl⟩ := List.mem_map.mp he
  obtain ⟨-, f, hf, rfl, -⟩ := mem_omitted.mp hm
  exact Class.isNone_field?_iff.mp hnone f hf rfl

/-! ### Objects around it -/

/-- The value of one declared field is replaced, and those of the others stay. -/
theorem Complete.fieldValue?_replaced (hc : c.Complete) (hf : f ∈ c.fields) (hg : g ∈ c.fields)
    (hn : f.name ∉ Fields.names pre) (post : List (String × Value)) (u u' : Value) :
    (g = f ∧ fieldValue? (pre ++ (f.name, u) :: post) g = some u ∧
        fieldValue? (pre ++ (f.name, u') :: post) g = some u') ∨
      fieldValue? (pre ++ (f.name, u) :: post) g = fieldValue? (pre ++ (f.name, u') :: post) g := by
  by_cases he : g.name = f.name
  · obtain rfl := hc.field_eq hg hf he
    exact .inl ⟨rfl, by simp only [fieldValue?, Fields.find?_middle hn], by
      simp only [fieldValue?, Fields.find?_middle hn]⟩
  · exact .inr (by simp only [fieldValue?, Fields.find?_replaced he u u'])

theorem undeclared_replaced (hf : f ∈ c.fields) :
    (pre ++ (f.name, u) :: post).filter (fun entry => (c.field? entry.1).isNone) =
      (pre ++ (f.name, u') :: post).filter fun entry => (c.field? entry.1).isNone := by
  have hs : ¬ (c.field? f.name).isNone = true :=
    fun hnone => Class.isNone_field?_iff.mp hnone f hf rfl
  simp only [List.filter_append, List.filter_cons, hs, if_false, Bool.false_eq_true]

end OrderedClass

namespace Validation

variable {w : Validation} {path : Path} {type : FieldType} {v v' : Value} {es : List Enclosure}

open OrderedClass

/-! ### Visits -/

/-- The visits agree if the constraints of the objects around the filled one have the same
verdicts. -/
theorem sameVisit_of_filling (hw : w.schema.Complete) (h : w.schema.Filling type v v' es)
    (hu : ∀ e ∈ es, e.Unmoved) : SameVisit w w.root type v v' := by
  induction h with
  | @here name c fields object hc hf =>
    obtain ⟨hm, rfl⟩ := Schema.mem_of_class? hc
    obtain rfl := (filled_iff (hw c hm).names_nodup).mp hf
    -- Its constraints see the object filled in any case.
    have same : SameObject w w.root c.toClass fields (filledFields c.toClass fields) := by
      refine ⟨fun f hf => ?_, (undeclared_filledFields c fields).symm, ?_⟩
      · rw [(hw c hm).fieldValue?_filledFields hf, filled_filledFields]
        cases fieldValue? fields f with
        | none => exact .none
        | some u => exact .some ⟨fun _ => rfl, rfl, fun _ _ _ => rfl⟩
      · rw [filled_filledFields]
        exact fun _ _ _ => rfl
    intro path
    rw [filled, visit_object hc, visit_object hc]
    simp only [same.visitObject_eq (hw c hm)]
  | alternative ht hs h ih =>
    intro path
    have hs' := (FieldType.select?_congr _ h.tag_eq).symm.trans hs
    rw [visit_of_select? ht hs, visit_of_select? ht hs']
    exact ih hu path
  | @item type pre post u u' es h ih =>
    have same : List.Forall₂ (SameVisit w w.root type) (pre ++ u :: post) (pre ++ u' :: post) :=
      List.rel_append (List.forall₂_same.mpr fun _ _ _ => rfl)
        (.cons (ih hu) (List.forall₂_same.mpr fun _ _ _ => rfl))
    intro path
    rw [visit_list, visit_list, visitItems_congr same]
  | @entry key type k pre post u u' es _ h ih =>
    have same : List.Forall₂ (fun a b => a.1 = b.1 ∧ SameVisit w w.root type a.2 b.2)
        (pre ++ (k, u) :: post) (pre ++ (k, u') :: post) :=
      List.rel_append (List.forall₂_same.mpr fun _ _ => ⟨rfl, fun _ => rfl⟩)
        (.cons ⟨rfl, ih hu⟩ (List.forall₂_same.mpr fun _ _ => ⟨rfl, fun _ => rfl⟩))
    intro path
    rw [visit_map, visit_map, visitEntries_congr key same]
  | @field name c f pre post u u' es hc hf hn h ih =>
    obtain ⟨hm, rfl⟩ := Schema.mem_of_class? hc
    obtain ⟨he, hes⟩ := List.forall_mem_cons.mp hu
    -- One field has the filled object inside. The others have their values as before, but their
    -- constraints see the changed one through the object.
    have same : SameObject w w.root c.toClass (pre ++ (f.name, u) :: post)
        (pre ++ (f.name, u') :: post) := by
      refine ⟨fun g hg => ?_, undeclared_replaced hf, he.own w.root⟩
      rcases (hw c hm).fieldValue?_replaced hf hg hn post u u' with ⟨rfl, hv, hv'⟩ | hv
      · rw [hv, hv']
        exact .some ⟨ih hes, h.tag_eq, he.fields w.root g hg u u' hv hv'⟩
      · cases hx : fieldValue? (pre ++ (f.name, u') :: post) g with
        | none =>
          rw [hv, hx]
          exact .none
        | some x =>
          rw [hv, hx]
          exact .some ⟨fun _ => rfl, rfl, he.fields w.root g hg x x (hv.trans hx) hx⟩
    intro path
    rw [visit_object hc, visit_object hc]
    simp only [same.visitObject_eq (hw c hm)]

end Validation

end RecordCheck

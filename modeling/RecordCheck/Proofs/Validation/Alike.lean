import RecordCheck.Proofs.Validation.Acceptance

/-! Success depends neither on the outcomes of checks nor on the order in which the fields and the
constraints of a class are evaluated. -/

namespace RecordCheck

open Validation

/-- Constraints that stand for one another as far as success goes. Checks of different outcomes
do. -/
structure Constraint.Alike (k l : Constraint) : Prop where
  kind_eq : k.kind = l.kind
  variant_eq : k.variant = l.variant
  defined : ∀ ctx, (∃ verdict, Eval.holds? ctx k.formula.expr = .ok verdict) ↔
    ∃ verdict, Eval.holds? ctx l.formula.expr = .ok verdict
  asserted : k.kind = .assert → ∀ ctx, Eval.holds? ctx k.formula.expr = .ok true ↔
    Eval.holds? ctx l.formula.expr = .ok true

theorem Constraint.Alike.refl (k : Constraint) : k.Alike k :=
  ⟨rfl, rfl, fun _ => .rfl, fun _ _ => .rfl⟩

theorem Constraint.Alike.symm {k l : Constraint} (h : k.Alike l) : l.Alike k :=
  ⟨h.kind_eq.symm, h.variant_eq.symm, fun ctx => (h.defined ctx).symm,
    fun hk ctx => (h.asserted (h.kind_eq.trans hk) ctx).symm⟩

theorem Constraint.Alike.met {k l : Constraint} (h : k.Alike l) {ctx : Eval.Context}
    (hk : k.Met ctx) : l.Met ctx := by
  obtain ⟨verdict, hv, ht⟩ := hk
  cases hkind : k.kind with
  | assert =>
    rw [ht hkind] at hv
    exact ⟨true, (h.asserted hkind ctx).mp hv, fun _ => rfl⟩
  | check =>
    obtain ⟨other, ho⟩ := (h.defined ctx).mp ⟨verdict, hv⟩
    refine ⟨other, ho, fun hl => ?_⟩
    rw [← h.kind_eq, hkind] at hl
    cases hl

/-- Lists of constraints that are alike, whatever their order. -/
structure ConstraintsAlike (ks ls : List Constraint) : Prop where
  left : ∀ k ∈ ks, ∃ l ∈ ls, k.Alike l
  right : ∀ l ∈ ls, ∃ k ∈ ks, k.Alike l

theorem ConstraintsAlike.refl (ks : List Constraint) : ConstraintsAlike ks ks :=
  ⟨fun k hk => ⟨k, hk, .refl k⟩, fun k hk => ⟨k, hk, .refl k⟩⟩

theorem ConstraintsAlike.symm {ks ls : List Constraint} (h : ConstraintsAlike ks ls) :
    ConstraintsAlike ls ks where
  left l hl := by
    obtain ⟨k, hk, ha⟩ := h.right l hl
    exact ⟨k, hk, ha.symm⟩
  right k hk := by
    obtain ⟨l, hl, ha⟩ := h.left k hk
    exact ⟨l, hl, ha.symm⟩

theorem ConstraintsAlike.metIn {ks ls : List Constraint} (h : ConstraintsAlike ks ls)
    {tag : Option Tag} {ctx : Eval.Context} (hk : MetIn tag ctx ks) : MetIn tag ctx ls := by
  intro l hl ht
  obtain ⟨k, hm, ha⟩ := h.right l hl
  refine ha.met (hk k hm ?_)
  cases tag with
  | none => rwa [Constraint.appliesIn, ha.variant_eq]
  | some tag => rwa [Constraint.appliesIn, Constraint.appliesTo, ha.variant_eq]

structure Field.Alike (f g : Field) : Prop where
  name_eq : f.name = g.name
  type_eq : f.type = g.type
  constraints : ConstraintsAlike f.constraints g.constraints

structure Class.Alike (c d : Class) : Prop where
  name_eq : c.name = d.name
  fields : List.Forall₂ Field.Alike c.fields d.fields
  constraints : ConstraintsAlike c.constraints d.constraints

/-- Schemas with the same declared types, whose constraints are alike. The orders of evaluation
may differ. -/
structure Schema.Alike (schema other : Schema) : Prop where
  classes : List.Forall₂ (fun c d : OrderedClass => c.toClass.Alike d.toClass)
    schema.classes other.classes
  enums_eq : schema.enums = other.enums

theorem Field.Alike.refl (f : Field) : f.Alike f := ⟨rfl, rfl, .refl _⟩

theorem Class.Alike.refl (c : Class) : c.Alike c :=
  ⟨rfl, List.forall₂_same.mpr fun f _ => .refl f, .refl _⟩

theorem Field.Alike.symm {f g : Field} (h : f.Alike g) : g.Alike f :=
  ⟨h.name_eq.symm, h.type_eq.symm, h.constraints.symm⟩

theorem Class.Alike.symm {c d : Class} (h : c.Alike d) : d.Alike c :=
  ⟨h.name_eq.symm, (h.fields.imp fun _ _ => Field.Alike.symm).flip, h.constraints.symm⟩

theorem Schema.Alike.symm {schema other : Schema} (h : schema.Alike other) : other.Alike schema :=
  ⟨(h.classes.imp fun _ _ => Class.Alike.symm).flip, h.enums_eq.symm⟩

theorem Field.Alike.fieldValue?_eq {f g : Field} (h : f.Alike g)
    (fields : List (String × Value)) : fieldValue? fields f = fieldValue? fields g := by
  rw [fieldValue?, fieldValue?, h.name_eq, h.type_eq]

namespace Class.Alike

variable {c d : Class} {fields : List (String × Value)} {root object : Value}

theorem names_eq (h : c.Alike d) : c.fields.map (·.name) = d.fields.map (·.name) := by
  rw [← List.forall₂_eq_eq_eq, List.forall₂_map_left_iff, List.forall₂_map_right_iff]
  exact h.fields.imp fun _ _ => Field.Alike.name_eq

theorem exists_nullable (h : c.Alike d) {name : String}
    (hc : ∃ f ∈ c.fields, f.name = name ∧ f.type.accepts .null = true) :
    ∃ g ∈ d.fields, g.name = name ∧ g.type.accepts .null = true := by
  obtain ⟨f, hf, rfl, ha⟩ := hc
  obtain ⟨g, hg, hgf⟩ := Results.exists_of_mem_forall₂ h.symm.fields hf
  exact ⟨g, hg, hgf.name_eq, by rwa [hgf.type_eq]⟩

/-- An object is filled in the same way. -/
theorem filled (h : c.Alike d) (hf : c.Filled fields object) : d.Filled fields object := by
  cases hf with
  | mk ordered mem_iff =>
    rw [h.name_eq]
    refine .mk (h.names_eq ▸ ordered) fun name => (mem_iff name).trans ?_
    exact and_congr_right fun _ => ⟨h.exists_nullable, h.symm.exists_nullable⟩

theorem lawful (h : c.Alike d) (hl : c.Lawful root fields object) :
    d.Lawful root fields object where
  filled := h.filled hl.filled
  fields_met g hg v hv := by
    obtain ⟨f, hf, ha⟩ := Results.exists_of_mem_forall₂ h.fields hg
    rw [← ha.type_eq]
    rw [← ha.fieldValue?_eq] at hv
    exact ha.constraints.metIn (hl.fields_met f hf v hv)
  own_met := by
    rw [← h.name_eq]
    exact h.constraints.metIn hl.own_met

end Class.Alike

namespace Schema

variable {schema other : Schema}

theorem Alike.exists_class (h : schema.Alike other) {name : String} {d : OrderedClass}
    (hd : other.class? name = some d) :
    ∃ c, schema.class? name = some c ∧ c.toClass.Alike d.toClass := by
  have hc := h.classes
  simp only [class?] at hd ⊢
  generalize schema.classes = cs, other.classes = ds at hc hd ⊢
  induction hc with
  | nil => cases hd
  | @cons c _ _ _ hc _ ih =>
    rw [List.find?_cons] at hd ⊢
    rw [hc.name_eq]
    split at hd
    next =>
      cases hd
      exact ⟨c, rfl, hc⟩
    next => exact ih hd

theorem Alike.enum?_eq (h : schema.Alike other) (name : String) :
    schema.enum? name = other.enum? name := by
  rw [enum?, enum?, h.enums_eq]

theorem Alike.part (h : schema.Alike other) {n m : Node} (hp : other.Part n m) :
    schema.Part n m := by
  cases hp with
  | alternative ht hs => exact .alternative ht hs
  | item hv => exact .item hv
  | entry hv => exact .entry hv
  | field hd hg hv =>
    obtain ⟨c, hc, ha⟩ := h.exists_class hd
    obtain ⟨f, hf, hfg⟩ := Results.exists_of_mem_forall₂ ha.fields hg
    rw [← hfg.type_eq]
    rw [← hfg.fieldValue?_eq] at hv
    exact .field hc hf hv

theorem Alike.wellTyped (h : schema.Alike other) {type : FieldType} {v : Value}
    (ht : schema.WellTyped type v) : other.WellTyped type v := by
  cases ht with
  | choice ht hs => exact .choice ht hs
  | scalar hs =>
    refine .scalar ?_
    cases hs with
    | member he hv => exact .member ((h.enum?_eq _).symm.trans he) hv
    | _ => constructor
  | list => exact .list
  | map hk =>
    refine .map fun entry he => ?_
    simpa only [IsKey, h.enum?_eq] using hk entry he
  | object hc hf =>
    obtain ⟨d, hd, ha⟩ := h.symm.exists_class hc
    refine .object hd fun g hg => ?_
    obtain ⟨f, hm, hfg⟩ := Results.exists_of_mem_forall₂ ha.symm.fields hg
    rw [← hfg.fieldValue?_eq]
    exact hf f hm

theorem Alike.accepts (h : schema.Alike other) {settings : Settings} {type : FieldType}
    {v : Value} (ha : schema.Accepts settings type v) : other.Accepts settings type v := by
  intro n hr
  obtain ⟨hd, ht, hl⟩ := ha n (Relation.ReflTransGen.mono (fun _ _ => h.part) _ _ hr)
  refine ⟨hd, h.wellTyped ht, ?_⟩
  intro name d fields hn hv hd
  obtain ⟨c, hc, hcd⟩ := h.exists_class hd
  obtain ⟨object, hl⟩ := hl name c fields hn hv hc
  exact ⟨object, hcd.lawful hl⟩

/-- A validation succeeds exactly if every part of the value is as it has to be. So the outcomes of
checks and the order of evaluation play no part: schemas that differ in these only accept the same
values. -/
theorem Built.validate_succeeds_iff (h : schema.Built) (settings : Settings) (type : FieldType)
    (v : Value) :
    ((∃ tree, schema.validate settings type v = .ok tree) ↔ schema.Accepts settings type v) ∧
      ∀ other : Schema, other.Complete → schema.Alike other →
        ((∃ tree, other.validate settings type v = .ok tree) ↔
          ∃ tree, schema.validate settings type v = .ok tree) := by
  refine ⟨h.complete.accepts_iff settings type v, ?_⟩
  intro other ho ha
  rw [h.complete.accepts_iff, ho.accepts_iff]
  exact ⟨ha.symm.accepts, ha.accepts⟩

/-- Schemas that differ in the orders of evaluation alone. -/
theorem alike_of_orders (schema : Schema) (order : OrderedClass → List Nat) :
    schema.Alike ⟨schema.classes.map fun c => ⟨c.toClass, order c⟩, schema.enums⟩ := by
  refine ⟨?_, rfl⟩
  rw [List.forall₂_map_right_iff, List.forall₂_same]
  exact fun c _ => .refl c.toClass

/-- A class with a field that reads another one, and an object of it that fails a check and lacks
the optional field, which the constraints on another field and on the object then have for null. The
opposite order of evaluation accepts it as well. -/
theorem exists_validate_succeeds_reversed :
    let bound : ConstraintDecl := ⟨.assert, "ordered", "block.low <= this", some .int⟩
    let range : ClassDecl := ⟨"Range", [⟨"high", .optional .int, [bound]⟩,
      ⟨"low", .int, [⟨.check, "positive", "this > 0", none⟩]⟩,
      ⟨"width", .int, [⟨.assert, "unbounded", "block.high == null and this > 0", none⟩]⟩],
      [⟨.assert, "open", "this.high == null", none⟩]⟩
    let v : Value := .object "Range" [("low", .int (-2)), ("width", .int 3)]
    ∃ schema : Schema, Schema.ofDeclarations [.class range] = .ok schema ∧ schema.Built ∧
      schema.Accepts (Settings.mk 1 false true) (.class "Range") v ∧
      ∃ tree, validate ⟨schema.classes.map fun c => ⟨c.toClass, c.order.reverse⟩, schema.enums⟩
        (Settings.mk 1 false true) (.class "Range") v = .ok tree := by
  intro bound range v
  have hv : (Schema.ofDeclarations [.class range]).toOption.any (fun schema =>
      (schema.validate (Settings.mk 1 false true) (.class "Range") v).isOk) = true := by
    decide +kernel
  obtain ⟨schema, hs, hok⟩ := Results.toOption_any_iff.mp hv
  rw [Results.isOk_iff] at hok
  have hb := Schema.built_of_declarations hs
  have hiff := hb.validate_succeeds_iff (Settings.mk 1 false true) (.class "Range") v
  refine ⟨schema, hs, hb, hiff.1.mp hok, (hiff.2 _ ?_ (schema.alike_of_orders _)).mpr hok⟩
  intro d hd
  obtain ⟨c, hc, rfl⟩ := List.mem_map.mp hd
  have hcomplete := hb.complete c hc
  exact ⟨hcomplete.names_nodup, (List.reverse_perm _).trans hcomplete.order_perm⟩

end Schema

end RecordCheck

import RecordCheck.Proofs.Results
import RecordCheck.Proofs.Schema.Order
import RecordCheck.Schema.Builder

/-! What holds of every schema that is built from declarations. -/

namespace RecordCheck

open Results

/-! ### Constraints -/

namespace Declarations

theorem firstRepeated?_eq_none {α : Type} [BEq α] [LawfulBEq α] {seen xs : List α} :
    firstRepeated? seen xs = none ↔ xs.Nodup ∧ ∀ a ∈ xs, a ∉ seen := by
  induction xs generalizing seen with
  | nil => simp [firstRepeated?]
  | cons x xs ih =>
    simp only [firstRepeated?, List.contains_eq_mem, decide_eq_true_eq]
    by_cases hx : x ∈ seen
    · simp [hx]
    · simp only [hx, if_false, ih, List.mem_cons, not_or, List.nodup_cons, forall_eq_or_imp,
        not_false_eq_true, true_and]
      constructor
      · intro h
        obtain ⟨hd, hs⟩ := h
        exact ⟨⟨fun hm => (hs x hm).1 rfl, hd⟩, fun a ha => (hs a ha).2⟩
      · intro h
        obtain ⟨⟨hm, hd⟩, hs⟩ := h
        refine ⟨hd, fun a ha => ⟨?_, hs a ha⟩⟩
        rintro rfl
        exact hm ha

end Declarations

/-- The message and the binding of each check among some constraints. -/
def checkKeys (constraints : List Constraint) : List (String × Option Tag) :=
  (constraints.filter Constraint.isCheck).map fun c => (c.message, c.variant)

namespace Declarations

theorem compileConstraint_keeps {owner : String} {decl : ConstraintDecl} {c : Constraint}
    (h : compileConstraint owner decl = .ok c) :
    c.kind = decl.kind ∧ c.message = decl.message ∧ c.variant = decl.variant := by
  simp only [compileConstraint] at h
  split at h
  next => cases h; exact ⟨rfl, rfl, rfl⟩
  next => cases h

theorem checkKeys_compiled {owner : String} {decls : List ConstraintDecl}
    {constraints : List Constraint}
    (h : List.Forall₂ (fun d c => compileConstraint owner d = .ok c) decls constraints) :
    checkKeys constraints =
      (decls.filter (·.kind == .check)).map fun d => (d.message, d.variant) := by
  induction h with
  | nil => rfl
  | @cons d c ds cs hc _ ih =>
    obtain ⟨hk, hm, hv⟩ := compileConstraint_keeps hc
    simp only [checkKeys, List.filter_cons, Constraint.isCheck, hk] at ih ⊢
    by_cases hd : d.kind == .check
    · simpa [hd, hm, hv] using ih
    · simpa [hd] using ih

theorem checkKeys_nodup {owner : String} {decls : List ConstraintDecl}
    {constraints : List Constraint} (h : compileConstraints owner decls = .ok constraints) :
    (checkKeys constraints).Nodup := by
  simp only [compileConstraints] at h
  split at h
  next => cases h
  next hr =>
    rw [checkKeys_compiled (mapM_ok_forall₂.mp h)]
    exact (firstRepeated?_eq_none.mp hr).1

end Declarations

/-! ### Classes -/

/-- What holds of a class once it is declared. -/
structure Class.Declared (c : Class) : Prop where
  names_nodup : (c.fields.map (·.name)).Nodup
  field_checks : ∀ field ∈ c.fields, (checkKeys field.constraints).Nodup
  own_checks : (checkKeys c.constraints).Nodup

namespace Declarations

theorem compileFields_spec {className : String} {names : List String} {decls : List FieldDecl}
    {fields : List Field} (h : compileFields className names decls = .ok fields) :
    (fields.map (·.name)).Nodup ∧ (∀ field ∈ fields, field.name ∉ names) ∧
      ∀ field ∈ fields, (checkKeys field.constraints).Nodup := by
  induction decls generalizing names fields with
  | nil =>
    cases h
    simp
  | cons decl decls ih =>
    rw [compileFields] at h
    by_cases hn : names.contains decl.name
    · simp only [hn, if_true, bind_eq_ok, throw_ne_ok, false_and, exists_const] at h
    · simp only [hn, Bool.false_eq_true, if_false, bind_eq_ok, pure_eq_ok] at h
      obtain ⟨constraints, hc, rest, hr, rfl⟩ := h
      obtain ⟨hd, hs, hk⟩ := ih hr
      simp only [List.map_cons, List.nodup_cons, List.forall_mem_cons]
      refine ⟨⟨?_, hd⟩, ⟨by simpa using hn, ?_⟩, checkKeys_nodup hc, hk⟩
      · intro hm
        obtain ⟨field, hf, he⟩ := List.mem_map.mp hm
        exact hs field hf (by simp [he])
      · exact fun field hf hm => hs field hf (List.mem_cons_of_mem _ hm)

theorem addClass_spec {decls next : Declarations} {decl : ClassDecl}
    (h : decls.addClass decl = .ok next) :
    ∃ c : Class, c.Declared ∧ next = { decls with classes := decls.classes ++ [c] } := by
  rw [addClass] at h
  by_cases hd : decls.isDeclared decl.name
  · simp only [hd, if_true, bind_eq_ok, throw_ne_ok, false_and, exists_const] at h
  · simp only [hd, Bool.false_eq_true, if_false, bind_eq_ok, pure_eq_ok] at h
    obtain ⟨fields, hf, constraints, hc, rfl⟩ := h
    obtain ⟨hn, -, hk⟩ := compileFields_spec hf
    exact ⟨⟨decl.name, fields, constraints⟩, ⟨hn, hk, checkKeys_nodup hc⟩, rfl⟩

theorem addEnum_classes {decls next : Declarations} {enum : EnumType}
    (h : decls.addEnum enum = .ok next) : next.classes = decls.classes := by
  simp only [addEnum] at h
  split at h
  next => cases h
  next =>
    split at h
    next => cases h
    next => cases h; rfl

/-- The states that declarations lead to. One that fails leaves the state as it was. -/
inductive Reachable : Declarations → Prop where
  | empty : Reachable {}
  | add {decls next declaration} (h : Reachable decls)
      (ok : Declarations.add decls declaration = .ok next) : Reachable next

theorem Reachable.declared {decls : Declarations} (h : decls.Reachable) :
    ∀ c ∈ decls.classes, c.Declared := by
  induction h with
  | empty => simp
  | @add decls next declaration _ ok ih =>
    cases declaration with
    | enum enum =>
      rw [addEnum_classes ok]
      exact ih
    | «class» decl =>
      obtain ⟨c, hc, rfl⟩ := addClass_spec ok
      intro d hd
      rcases List.mem_append.mp hd with hd | hd
      · exact ih d hd
      · rw [List.mem_singleton.mp hd]
        exact hc

theorem Reachable.foldlM {decls next : Declarations} {declarations : List Declaration}
    (h : decls.Reachable) (ok : declarations.foldlM Declarations.add decls = .ok next) :
    next.Reachable := by
  induction declarations generalizing decls with
  | nil =>
    cases ok
    exact h
  | cons declaration rest ih =>
    rw [List.foldlM_cons, bind_eq_ok] at ok
    obtain ⟨mid, hm, hr⟩ := ok
    exact ih (h.add hm) hr

/-! ### Dependencies -/

theorem mem_waitsFor {fields : List Field} {field : Field} {i j : Nat}
    (hf : fields[i]? = some field) :
    j ∈ Dependencies.waitsFor (dependencies fields) i ↔
      ∃ other, fields[j]? = some other ∧ j ≠ i ∧ reads field other = true := by
  have hd : Dependencies.waitsFor (dependencies fields) i =
      (fields.zipIdx.filter fun p => p.2 != i && reads field p.1).map (·.2) := by
    simp [Dependencies.waitsFor, dependencies, List.getElem?_zipIdx, hf]
  rw [hd]
  simp only [List.mem_map, List.mem_filter, Bool.and_eq_true, bne_iff_ne, Prod.exists,
    List.mk_mem_zipIdx_iff_getElem?]
  constructor
  · intro h
    obtain ⟨other, k, ⟨ho, hk, hr⟩, rfl⟩ := h
    exact ⟨other, ho, hk, hr⟩
  · intro h
    obtain ⟨other, ho, hk, hr⟩ := h
    exact ⟨other, j, ⟨ho, hk, hr⟩, rfl⟩

@[simp] theorem length_dependencies (fields : List Field) :
    (dependencies fields).length = fields.length := by
  simp [dependencies]

/-- The constraint takes only declared fields from the object. -/
theorem checkReferences_eq_ok {c : Class} {owner : String} {k : Constraint} :
    checkReferences c owner k = .ok () ↔
      ∀ name ∈ k.formula.blockReferences, (c.field? name).isSome := by
  have hnone : (∀ name ∈ k.formula.blockReferences, (c.field? name).isSome) ↔
      k.formula.blockReferences.find? (fun name => (c.field? name).isNone) = none := by
    simp [List.find?_eq_none, Option.isSome_iff_ne_none]
  rw [hnone, checkReferences]
  cases k.formula.blockReferences.find? fun name => (c.field? name).isNone with
  | some name => simp
  | none => simp

theorem evaluationOrder_eq_ok {className : String} {names : List String} {deps : List (List Nat)}
    {order : List Nat} : evaluationOrder className names deps = .ok order ↔
      Dependencies.order deps = .ok order := by
  rw [evaluationOrder]
  cases Dependencies.order deps <;> simp

theorem orderClass_eq_ok {c : Class} {o : OrderedClass} : orderClass c = .ok o ↔
    (∀ field ∈ c.fields, ∀ k ∈ field.constraints, ∀ name ∈ k.formula.blockReferences,
        (c.field? name).isSome) ∧
      (∀ k ∈ c.constraints, ∀ name ∈ k.formula.blockReferences, (c.field? name).isSome) ∧
        o.toClass = c ∧ Dependencies.order (dependencies c.fields) = .ok o.order := by
  simp only [orderClass, bind_eq_ok, forM_eq_ok, checkReferences_eq_ok, evaluationOrder_eq_ok,
    pure_eq_ok]
  constructor
  · intro h
    obtain ⟨_, hfields, _, hown, order, hd, rfl⟩ := h
    exact ⟨hfields, hown, rfl, hd⟩
  · intro h
    obtain ⟨hfields, hown, rfl, hd⟩ := h
    exact ⟨(), hfields, (), hown, o.order, hd, rfl⟩

theorem build_eq_ok {decls : Declarations} {schema : Schema} : decls.build = .ok schema ↔
    (∀ c ∈ decls.classes, ∀ field ∈ c.fields, decls.checkField c field = .ok ()) ∧
      decls.classes.mapM orderClass = .ok schema.classes ∧ schema.enums = decls.enums := by
  simp only [build, bind_eq_ok, pure_eq_ok, forM_eq_ok]
  constructor
  · intro h
    obtain ⟨_, hfields, classes, hm, rfl⟩ := h
    exact ⟨hfields, hm, rfl⟩
  · intro h
    obtain ⟨hfields, hm, he⟩ := h
    exact ⟨(), hfields, schema.classes, hm, by rw [← he]⟩

end Declarations

/-! ### Schemas -/

/-- What holds of a class in a schema. -/
structure OrderedClass.Sound (c : OrderedClass) : Prop extends c.toClass.Declared where
  respects : Dependencies.Respects (Declarations.dependencies c.fields) c.order
  known : ∀ field ∈ c.fields, ∀ k ∈ field.constraints, ∀ name ∈ k.formula.blockReferences,
    (c.field? name).isSome

/-- The schema comes from declarations. -/
def Schema.Built (schema : Schema) : Prop :=
  ∃ decls : Declarations, decls.Reachable ∧ decls.build = .ok schema

theorem Schema.built_of_declarations {declarations : List Declaration} {schema : Schema}
    (h : Schema.ofDeclarations declarations = .ok schema) : schema.Built := by
  rw [Schema.ofDeclarations, bind_eq_ok] at h
  obtain ⟨decls, hd, hb⟩ := h
  exact ⟨decls, Declarations.Reachable.empty.foldlM hd, hb⟩

theorem Schema.Built.sound {schema : Schema} (h : schema.Built) :
    ∀ c ∈ schema.classes, c.Sound := by
  obtain ⟨decls, hr, hb⟩ := h
  obtain ⟨-, hc, -⟩ := Declarations.build_eq_ok.mp hb
  intro c hm
  obtain ⟨d, hd, ho⟩ := exists_of_mem_mapM hc hm
  obtain ⟨hk, -, rfl, hp⟩ := Declarations.orderClass_eq_ok.mp ho
  exact ⟨hr.declared _ hd, Dependencies.respects_of_order hp, hk⟩

end RecordCheck

import RecordCheck.Proofs.Validation.Spots

/-! The outcomes of checks in a tree: where they stand, which checks they are of, and under which
names. -/

namespace RecordCheck

open Validation

/-- The names under which the checks of one place are recorded in an alternative, if any are
declared there. -/
def recordedNames (tag : Option Tag) (constraints : List Constraint) : List (List String) :=
  if DeclaresCheck constraints then [(checksIn tag constraints).map (·.message)] else []

/-- The names that are recorded for a value in an alternative, which is that of a declared field or
of none: those of the checks on the field, and then of those on the object. -/
def Schema.namesAt (schema : Schema) (field? : Option Field) (tag : Option Tag) :
    List (List String) :=
  (field?.elim [] fun f => recordedNames tag f.constraints) ++
    (schema.classOf? tag).elim [] fun c => recordedNames tag c.constraints

theorem Settings.expression_outcome_iff (settings : Settings) (ctx : Eval.Context)
    (c : Constraint) (text : String) :
    (settings.outcome ctx c).expression = some text ↔
      settings.includeExpressions = true ∧ text = c.formula.source := by
  cases hi : settings.includeExpressions <;> simp [outcome, hi, eq_comm]

theorem Settings.passed_outcome_iff (settings : Settings) (ctx : Eval.Context) (c : Constraint) :
    (settings.outcome ctx c).passed = true ↔ Eval.eval ctx c.formula.expr = .ok (.bool true) := by
  simp only [outcome, Eval.holds?]
  cases Eval.eval ctx c.formula.expr with
  | error e => simp [bind, Except.bind, Except.toOption]
  | ok v =>
    cases v with
    | bool b => simp [bind, Except.bind, Except.toOption, pure, Except.pure]
    | _ =>
      simp [bind, Except.bind, Except.toOption, pure, Except.pure, throw, throwThe,
        MonadExceptOf.throw]

namespace Validation

variable {w : Validation}

theorem names_objectChecks? (w : Validation) (s : Spot) :
    (w.objectChecks? s).toList.map Checks.names =
      (s.class? w.schema).elim [] fun c => recordedNames s.liveTag? c.constraints := by
  cases hc : s.class? w.schema with
  | none => simp [objectChecks?, hc]
  | some c =>
    obtain ⟨fields, hv⟩ := object_of_class? hc
    simp only [objectChecks?, hc, hv, liveTag_of_class? hc, Value.object?, Option.bind_eq_bind,
      Option.bind_some, Option.elim_some, recordedNames]
    split <;> simp [names_outcomes]

/-- The names that are recorded at a spot do not depend on the value beyond its alternative. -/
theorem Stands.names_eq {s : Spot} {t : Validated} (h : Stands w s t) :
    t.wrappers.map Checks.names = w.schema.namesAt s.field? s.liveTag? := by
  rw [h.wrappers_eq, wrappers, List.map_append, names_objectChecks?, Schema.namesAt, Spot.class?]
  congr 1
  cases h with
  | value => rfl
  | @field path owner fields f v node h =>
    have hl : Spot.liveTag? ⟨some f.type, v, some ⟨owner, fields, f⟩⟩ = f.type.liveTag? v := rfl
    simp only [fieldChecks?, Option.bind_some, Spot.field?, Option.map_some, Option.elim_some,
      recordedNames, hl]
    split <;> simp [names_outcomes]
  | plain => rfl

end Validation

namespace Schema

variable {schema : Schema} {settings : Settings} {type : FieldType} {v : Value} {tree : Validated}

/-- The tree has a node for each spot and no others, and around a node stand the outcomes of the
checks on its field and on its object, in this order, each exactly if a check is declared there in
whichever alternative. They are those of the checks that apply, as declared; which names are
recorded is settled by the field and the alternative alone. A check is recorded with its source text
if expressions are included and without one otherwise, and it passes if it evaluates to true. -/
theorem Built.wrappers_eq_of_spot (h : schema.Built)
    (ht : schema.validate settings type v = .ok tree) (steps : List Step) :
    (tree.reach? steps).map Validated.wrappers =
        (schema.spot? type v steps).map (Validation.wrappers ⟨schema, settings, v⟩) ∧
      (tree.reach? steps).map (fun node => node.wrappers.map Checks.names) =
        (schema.spot? type v steps).map (fun s => schema.namesAt s.field? s.liveTag?) ∧
      ∀ ctx c, (settings.outcome ctx c).name = c.message ∧
        (∀ text, (settings.outcome ctx c).expression = some text ↔
          settings.includeExpressions = true ∧ text = c.formula.source) ∧
        ((settings.outcome ctx c).passed = true ↔
          Eval.eval ctx c.formula.expr = .ok (.bool true)) := by
  have hd : Derivation ⟨schema, settings, v⟩ ⟨type.rootName, []⟩ type v tree :=
    derivation_of_visit h.complete ht
  have hr : Option.Rel (Stands ⟨schema, settings, v⟩) (schema.spot? type v steps)
      (tree.reach? steps) := (Stands.value hd).reach? steps
  refine ⟨?_, ?_, fun ctx c => ⟨rfl, settings.expression_outcome_iff ctx c,
    settings.passed_outcome_iff ctx c⟩⟩
  · generalize schema.spot? type v steps = spot?, tree.reach? steps = node? at hr
    cases hr with
    | some hst => exact congrArg some hst.wrappers_eq
    | none => rfl
  · generalize schema.spot? type v steps = spot?, tree.reach? steps = node? at hr
    cases hr with
    | some hst => exact congrArg some hst.names_eq
    | none => rfl

/-- A field that holds an object, with checks on both. The one on the object fails, and no check on
the field applies in another alternative than that of the object. The source texts of the checks are
there if expressions are included. -/
theorem exists_wrappers_twice :
    let point : ClassDecl := ⟨"Point", [⟨"x", .int, []⟩], [⟨.check, "right", "this.x > 0", none⟩]⟩
    let mark : ClassDecl := ⟨"Mark", [⟨"place", .union [.class "Point", .string],
      [⟨.check, "known", "this.x != null", some (.class "Point")⟩,
        ⟨.check, "named", "this|length > 0", some .string⟩]⟩], []⟩
    let v : Value := .object "Mark" [("place", .object "Point" [("x", .int (-1))])]
    let settings (texts : Bool) := Settings.mk 128 false texts
    ∃ schema : Schema, Schema.ofDeclarations [.class point, .class mark] = .ok schema ∧
      schema.Built ∧ ∀ texts ∈ [true, false], ∃ tree : Validated,
        schema.validate (settings texts) (.class "Mark") v = .ok tree ∧
        (tree.reach? [.field "place"]).map Validated.wrappers =
          (schema.spot? (.class "Mark") v [.field "place"]).map
            (Validation.wrappers ⟨schema, settings texts, v⟩) ∧
        (tree.reach? [.field "place"]).map Validated.wrappers =
          some [[⟨"known", if texts then some "this.x != null" else none, true⟩],
            [⟨"right", if texts then some "this.x > 0" else none, false⟩]] := by
  intro point mark v settings
  have hs : (Schema.ofDeclarations [.class point, .class mark]).toOption.any (fun schema =>
      [true, false].all fun texts => (schema.validate (settings texts) (.class "Mark") v).isOk &&
        decide ((schema.spot? (.class "Mark") v [.field "place"]).map
          (Validation.wrappers ⟨schema, settings texts, v⟩) =
            some [[⟨"known", if texts then some "this.x != null" else none, true⟩],
              [⟨"right", if texts then some "this.x > 0" else none, false⟩]])) = true := by
    decide +kernel
  obtain ⟨schema, hs, hall⟩ := Results.toOption_any_iff.mp hs
  have hb := Schema.built_of_declarations hs
  refine ⟨schema, hs, hb, fun texts hm => ?_⟩
  obtain ⟨hok, hw⟩ := Bool.and_eq_true_iff.mp (List.all_eq_true.mp hall texts hm)
  obtain ⟨tree, ht⟩ := Results.isOk_iff.mp hok
  have he := (hb.wrappers_eq_of_spot ht [.field "place"]).1
  exact ⟨tree, ht, he, he.trans (of_decide_eq_true hw)⟩

end Schema

end RecordCheck

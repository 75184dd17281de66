import RecordCheck.Proofs.Validation.Filling
import RecordCheck.Proofs.Validation.Spots

/-! When a field that may be null can be left out instead of given as null: exactly if it makes no
difference to the constraints of the objects around. -/

namespace RecordCheck

open Validation

namespace Validation

variable {w : Validation} {type : FieldType} {v v' : Value} {es : List Enclosure}

/-! ### Equal trees -/

theorem wrap_inj {hasChecks : Bool} {checks checks' : Checks} {node node' : Validated} :
    wrap hasChecks checks node = wrap hasChecks checks' node' ↔
      (hasChecks = true → checks = checks') ∧ node = node' := by
  cases hasChecks <;> simp [wrap, and_comm]

/-- Where the constraints are met and the outcomes are the same, so are the verdicts. -/
theorem sameVerdicts_of_outcomes {settings : Settings} {tag : Option Tag}
    {ctx ctx' : Eval.Context} {ks : List Constraint} (hm : MetIn tag ctx ks)
    (hm' : MetIn tag ctx' ks)
    (ho : ks.any Constraint.isCheck = true → (checksIn tag ks).map (settings.outcome ctx) =
      (checksIn tag ks).map (settings.outcome ctx')) : SameVerdicts tag ctx ctx' ks := by
  intro k hk ha
  obtain ⟨verdict, hv, ht⟩ := hm k hk ha
  obtain ⟨verdict', hv', ht'⟩ := hm' k hk ha
  have he : verdict = verdict' := by
    cases hkind : k.kind with
    | assert => rw [ht hkind, ht' hkind]
    | check =>
      have hc : k.isCheck = true := by simp [Constraint.isCheck, hkind]
      have hin : k ∈ checksIn tag ks := by simp [checksIn, hk, ha, hc]
      have hout := List.map_inj_left.mp (ho (List.any_eq_true.mpr ⟨k, hk, hc⟩)) k hin
      simpa [Settings.outcome, hv, hv', Except.toOption] using hout
  rw [hv, hv', he]

section

variable {path path' : Path} {tree : Validated} {name : String} {c : OrderedClass}
  {fields fields' : List (String × Value)} {f : Field} {u u' : Value}

/-- Values with one tree have one tree for what stands in the same place inside both. -/
theorem Derivation.same_part {step : Step} {a : FieldType} (h : Derivation w path type v tree)
    (h' : Derivation w path' type v' tree)
    (hs : w.schema.inward? ⟨some type, v, none⟩ step = some ⟨some a, u, none⟩)
    (hs' : w.schema.inward? ⟨some type, v', none⟩ step = some ⟨some a, u', none⟩) :
    ∃ path path' node, Derivation w path a u node ∧ Derivation w path' a u' node := by
  obtain ⟨node, ht, hu⟩ := Results.exists_of_rel_left (h.inward? none step) hs
  obtain ⟨node', ht', hu'⟩ := Results.exists_of_rel_left (h'.inward? none step) hs'
  cases ht.symm.trans ht'
  cases hu with
  | value hu =>
    cases hu' with
    | value hu' => exact ⟨_, _, node, hu, hu'⟩

/-- The node of a declared field in the tree of an object. -/
theorem Derivation.field (hc : w.schema.class? name = some c) (hcc : c.Complete)
    (h : Derivation w path (.class name) (.object name fields) tree) (hf : f ∈ c.fields)
    (hv : fieldValue? fields f = some u) :
    ∃ path node, Derivation w path f.type u node ∧
      tree.bare.child? (.field f.name) = some (w.fieldTree c.toClass fields f u node) := by
  obtain ⟨values, nodes, hnodes, rfl⟩ := h.of_object hc
  obtain ⟨hv', hnode⟩ := hnodes f hf
  obtain rfl : values f = u := Option.some.inj (hv'.symm.trans hv)
  refine ⟨_, nodes f, hnode, ?_⟩
  rw [bare_objectTree, child?_object, find?_arranged, hcc.field?_of_mem hf]

/-- Objects with one tree look alike to the constraints of a field, whose values have one tree as
well. -/
theorem Derivation.same_field (hc : w.schema.class? name = some c) (hcc : c.Complete)
    (h : Derivation w path (.class name) (.object name fields) tree)
    (h' : Derivation w path' (.class name) (.object name fields') tree) (hf : f ∈ c.fields)
    (hv : fieldValue? fields f = some u) (hv' : fieldValue? fields' f = some u')
    (ht : u.tag = u'.tag) :
    SameVerdicts (f.type.liveTag? u) (w.fieldContext c.toClass fields u)
        (w.fieldContext c.toClass fields' u') f.constraints ∧
      ∃ path path' node, Derivation w path f.type u node ∧ Derivation w path' f.type u' node := by
  obtain ⟨p, node, hn, hchild⟩ := h.field hc hcc hf hv
  obtain ⟨p', node', hn', hchild'⟩ := h'.field hc hcc hf hv'
  obtain ⟨ho, rfl⟩ := wrap_inj.mp (Option.some.inj (hchild.symm.trans hchild'))
  have hm := (h.lawful hc).fields_met f hf u hv
  have hm' := (h'.lawful hc).fields_met f hf u' hv'
  rw [← FieldType.liveTag?_congr f.type ht] at ho hm'
  exact ⟨sameVerdicts_of_outcomes hm hm' ho, p, p', node, hn, hn'⟩

/-- They look alike to the constraints of the class. -/
theorem Derivation.same_own (hc : w.schema.class? name = some c)
    (h : Derivation w path (.class name) (.object name fields) tree)
    (h' : Derivation w path' (.class name) (.object name fields') tree) :
    SameVerdicts (some (.class c.name)) (w.objectContext c.toClass fields)
      (w.objectContext c.toClass fields') c.constraints := by
  obtain ⟨values, nodes, -, ht⟩ := h.of_object hc
  obtain ⟨values', nodes', -, ht'⟩ := h'.of_object hc
  obtain ⟨ho, -⟩ := wrap_inj.mp (ht.symm.trans ht')
  exact sameVerdicts_of_outcomes (h.lawful hc).own_met (h'.lawful hc).own_met ho

end

/-- What gives the same tree has objects around it that are unmoved. -/
theorem unmoved_of_derivation (hw : w.schema.Complete) (hr : w.schema.Rootless)
    (h : w.schema.Filling type v v' es) {path path' : Path} {tree : Validated}
    (hd : Derivation w path type v tree) (hd' : Derivation w path' type v' tree) :
    ∀ e ∈ es, e.Unmoved := by
  induction h generalizing path path' tree with
  | here => simp
  | alternative ht hs h ih =>
    have hs' := (FieldType.select?_congr _ h.tag_eq).symm.trans hs
    exact ih (hd.of_choice ht hs) (hd'.of_choice ht hs')
  | @item type pre post u u' es h ih =>
    have hi (x : Value) : w.schema.inward? ⟨some (.list type), .list (pre ++ x :: post), none⟩
        (.index pre.length) = some ⟨some type, x, none⟩ := by
      simp [Schema.inward?_list, Value.child?]
    obtain ⟨_, _, _, hu, hu'⟩ := hd.same_part hd' (hi u) (hi u')
    exact ih hu hu'
  | @entry key type k pre post u u' es hk h ih =>
    have hi (x : Value) : w.schema.inward?
        ⟨some (.map key type), .map (pre ++ (k, x) :: post), none⟩ (.key k) =
          some ⟨some type, x, none⟩ := by
      simp [Schema.inward?_map, Value.child?, Fields.find?_middle hk]
    obtain ⟨_, _, _, hu, hu'⟩ := hd.same_part hd' (hi u) (hi u')
    exact ih hu hu'
  | @field name c f pre post u u' es hc hf hn h ih =>
    obtain ⟨hm, rfl⟩ := Schema.mem_of_class? hc
    have hcc := hw c hm
    -- The verdicts are the same under the outermost value at hand, and so under any.
    refine List.forall_mem_cons.mpr ⟨⟨fun root g hg x x' hv hv' => ?_, fun root => ?_⟩, ?_⟩
    · have ht : x.tag = x'.tag := by
        rcases hcc.fieldValue?_replaced hf hg hn post u u' with ⟨rfl, hu, hu'⟩ | he
        · cases hu.symm.trans hv
          cases hu'.symm.trans hv'
          exact h.tag_eq
        · cases hv.symm.trans (he.trans hv')
          rfl
      exact (hd.same_field hc hcc hd' hg hv hv' ht).1.of_rootless ((hr c hm).1 g hg) root
    · exact (hd.same_own hc hd').of_rootless (hr c hm).2 root
    · have hv (x : Value) : fieldValue? (pre ++ (f.name, x) :: post) f = some x := by
        simp only [fieldValue?, Fields.find?_middle hn]
      obtain ⟨-, _, _, _, hnode, hnode'⟩ := hd.same_field hc hcc hd' hf (hv u) (hv u') h.tag_eq
      exact ih hnode hnode'

end Validation

/-! ### Constraints that do not look -/

/-- The expression does not read the root but for fields of other names. -/
def Expr.Avoids (e : Expr) (r : Root) (name : String) : Prop :=
  e.readsWhole r = false ∧ name ∉ e.references r

instance (e : Expr) (r : Root) (name : String) : Decidable (e.Avoids r name) :=
  inferInstanceAs (Decidable (_ ∧ _))

theorem Eval.holds?_of_avoids {ctx ctx' : Context} {e : Expr} {r : Root} {n : String}
    (ho : ∀ s, s ≠ r → ctx.value s = ctx'.value s) (ha : e.Avoids r n)
    (hf : ∀ m, m ≠ n → fieldOf (ctx.value r) m = fieldOf (ctx'.value r) m) :
    holds? ctx e = holds? ctx' e :=
  holds?_congr ho ha.1 fun m hm => hf m (ne_of_mem_of_not_mem hm ha.2)

/-- No constraint of the class, on its objects or on their fields, looks at the value of one
field. -/
def Class.Ignores (c : Class) (f : Field) : Prop :=
  (∀ k ∈ f.constraints, k.formula.expr.uses .this = false) ∧
    (∀ g ∈ c.fields, ∀ k ∈ g.constraints, k.formula.expr.Avoids .block f.name) ∧
      ∀ k ∈ c.constraints, k.formula.expr.Avoids .this f.name ∧ k.formula.expr.Avoids .block f.name

instance (c : Class) (f : Field) : Decidable (c.Ignores f) := inferInstanceAs (Decidable (_ ∧ _))

/-- Other fields of an object are read as before. -/
theorem fieldOf_filled_replaced (c : Class) (pre post : List (String × Value)) {n m : String}
    (hn : m ≠ n) (u u' : Value) :
    Eval.fieldOf (filled c (pre ++ (n, u) :: post)) m =
      Eval.fieldOf (filled c (pre ++ (n, u') :: post)) m := by
  have ho : omitted c (pre ++ (n, u) :: post) = omitted c (pre ++ (n, u') :: post) := by
    rw [omitted, omitted, Fields.names_replaced u u']
  simp only [filled, Eval.fieldOf_object, filledFields, Fields.find?_append _ (List.map _ _), ho,
    Fields.find?_replaced hn u u']

theorem Enclosure.unmoved_of_ignores {c : OrderedClass} (hc : c.Complete) {f : Field}
    (hf : f ∈ c.fields) {pre : List (String × Value)} (hn : f.name ∉ Fields.names pre)
    (hi : c.toClass.Ignores f) (post : List (String × Value)) (u u' : Value) :
    Enclosure.Unmoved ⟨c, f, pre ++ (f.name, u) :: post, pre ++ (f.name, u') :: post⟩ := by
  obtain ⟨hvalue, hblock, hown⟩ := hi
  have others (m : String) (hm : m ≠ f.name) := fieldOf_filled_replaced c.toClass pre post hm u u'
  constructor
  · intro root g hg x x' hv hv' k hk _
    have hb (y : Value) :
        Eval.holds? ⟨y, filled c.toClass (pre ++ (f.name, u) :: post), root⟩ k.formula.expr =
          Eval.holds? ⟨y, filled c.toClass (pre ++ (f.name, u') :: post), root⟩ k.formula.expr :=
      Eval.holds?_of_avoids Eval.Context.value_of_ne_block (hblock g hg k hk) others
    rcases hc.fieldValue?_replaced hf hg hn post u u' with ⟨rfl, hu, hu'⟩ | he
    · exact (Eval.holds?_of_not_uses Eval.Context.value_of_ne_this (hvalue k hk)).trans (hb x')
    · cases hv.symm.trans (he.trans hv')
      exact hb x
  · intro root k hk _
    obtain ⟨ht, hb⟩ := hown k hk
    exact (Eval.holds?_of_avoids Eval.Context.value_of_ne_this ht others).trans
      (Eval.holds?_of_avoids Eval.Context.value_of_ne_block hb others)

namespace Schema

variable {schema : Schema} {type : FieldType} {v v' : Value} {es : List Enclosure}

/-- Objects are unmoved whose classes ignore the field that has the filled object inside. -/
theorem Filling.unmoved_of_ignores (hc : schema.Complete) (h : schema.Filling type v v' es)
    (hi : ∀ e ∈ es, e.owner.toClass.Ignores e.field) : ∀ e ∈ es, e.Unmoved := by
  induction h with
  | here => simp
  | alternative _ _ _ ih | item _ ih | entry _ _ ih => exact ih hi
  | @field name c f pre post u u' es hcls hf hn _ ih =>
    obtain ⟨he, hes⟩ := List.forall_mem_cons.mp hi
    have hm := (Schema.mem_of_class? hcls).1
    exact List.forall_mem_cons.mpr
      ⟨Enclosure.unmoved_of_ignores (hc c hm) hf hn he post u u', ih hes⟩

/-- An object in a declared field of another one is filled. -/
theorem Filling.of_field {outer inner name : String} {c d : OrderedClass} {f : Field}
    {fields pre : List (String × Value)} {absent : List String}
    (hc : schema.class? outer = some c) (hd : schema.class? inner = some d)
    (hf : c.field? name = some f) (ht : f.type.tag? = some (.class inner))
    (ha : omitted d.toClass fields = absent)
    (hn : name ∉ Fields.names pre) (post : List (String × Value)) :
    let before := pre ++ (name, .object inner fields) :: post
    let after := pre ++ (name, .object inner (fields ++ absent.map (·, .null))) :: post
    schema.Filling (.class outer) (.object outer before) (.object outer after)
      [⟨c, f, before, after⟩] := by
  intro before after
  obtain ⟨hmem, rfl⟩ := Class.mem_of_field? hf
  obtain ⟨-, rfl⟩ := Schema.mem_of_class? hd
  have hfilled := filled_filled d.toClass fields
  rw [filled, filledFields, ha] at hfilled
  have hx : schema.Filling f.type (.object d.name fields)
      (.object d.name (fields ++ absent.map (·, .null))) [] := by
    rw [FieldType.eq_class_of_tag? ht]
    exact .here hd hfilled
  exact .field hc hmem hn hx

/-- Every object that is validated can be filled. Two values of which one leaves out what the other
one gives as null have the same result, if the constraints of the objects around have the same
verdicts. If one of them is accepted, this is also what it takes. -/
theorem Built.validate_filled_iff (h : schema.Built) (hr : schema.Rootless) (settings : Settings)
    (type : FieldType) (v : Value) :
    (∀ steps s c, schema.spot? type v steps = some s → s.class? schema = some c →
        schema.Fillable type v steps s c) ∧
      ∀ v' es, schema.Filling type v v' es →
        ((∀ e ∈ es, e.Unmoved) →
            schema.validate settings type v = schema.validate settings type v') ∧
          ∀ tree, schema.validate settings type v = .ok tree ∨
              schema.validate settings type v' = .ok tree →
            (schema.validate settings type v = schema.validate settings type v' ↔
              ∀ e ∈ es, e.Unmoved) := by
  refine ⟨fun _ _ _ => fillable_of_class?, fun v' es hf => ?_⟩
  have hroot : schema.validate settings type v =
      visit ⟨schema, settings, v'⟩ v ⟨type.rootName, []⟩ type :=
    sameVisit_of_rootless (w := ⟨schema, settings, v⟩) h.complete hr v' v type _
  have same (hu : ∀ e ∈ es, e.Unmoved) :
      schema.validate settings type v = schema.validate settings type v' :=
    hroot.trans (sameVisit_of_filling (w := ⟨schema, settings, v'⟩) h.complete hf hu _)
  refine ⟨same, fun tree ht => ⟨fun he => ?_, same⟩⟩
  have ht' : schema.validate settings type v' = .ok tree := by
    rcases ht with ht | ht
    · exact he.symm.trans ht
    · exact ht
  exact unmoved_of_derivation h.complete hr hf
    (derivation_of_visit h.complete (hroot.symm.trans (he.trans ht')))
    (derivation_of_visit h.complete ht')

/-- An object that lacks a field that may be null, inside one whose constraints do not look at
it. Its own constraints have the missing field for null. -/
theorem exists_validate_filled :
    let note : ClassDecl := ⟨"Note", [⟨"text", .optional .string, []⟩],
      [⟨.check, "blank", "this.text == null", none⟩]⟩
    let page : ClassDecl := ⟨"Page", [⟨"number", .int, [⟨.assert, "positive", "this > 0", none⟩]⟩,
      ⟨"note", .class "Note", [⟨.check, "late", "block.number > 9", none⟩]⟩], []⟩
    let v : Value := .object "Page" [("number", .int 1), ("note", .object "Note" [])]
    let v' : Value := .object "Page" [("number", .int 1),
      ("note", .object "Note" [("text", .null)])]
    let settings := Settings.mk 128 false true
    ∃ (schema : Schema) (es : List Enclosure) (tree : Validated),
      Schema.ofDeclarations [.class note, .class page] = .ok schema ∧ schema.Built ∧
      schema.Rootless ∧ schema.Filling (.class "Page") v v' es ∧ es.length = 1 ∧
      (∀ e ∈ es, e.Unmoved) ∧ schema.validate settings (.class "Page") v = .ok tree ∧
      schema.validate settings (.class "Page") v' = .ok tree := by
  intro note page v v' settings
  have hs : (Schema.ofDeclarations [.class note, .class page]).toOption.any (fun schema =>
      (decide schema.Rootless && (schema.validate settings (.class "Page") v).isOk) &&
        (schema.class? "Page").any fun c => (schema.class? "Note").any fun d =>
          (omitted d.toClass [] == ["text"]) &&
            (c.field? "note").any fun f =>
              f.type.tag? == some (.class "Note") && decide (c.toClass.Ignores f)) = true := by
    decide +kernel
  obtain ⟨schema, hs, hall⟩ := Results.toOption_any_iff.mp hs
  simp only [Bool.and_eq_true, Option.any_eq_true, decide_eq_true_eq, beq_iff_eq,
    Results.isOk_iff] at hall
  obtain ⟨⟨hr, tree, ht⟩, c, hc, d, hd, ha, f, hf, htag, hi⟩ := hall
  have hb := Schema.built_of_declarations hs
  have hn : "note" ∉ Fields.names [("number", Value.int 1)] := by decide
  have hfill := Filling.of_field hc hd hf htag ha hn []
  have hu := hfill.unmoved_of_ignores hb.complete (by simpa using hi)
  obtain ⟨-, hfilled⟩ := hb.validate_filled_iff hr settings (.class "Page") v
  obtain ⟨same, -⟩ := hfilled v' _ hfill
  exact ⟨schema, _, tree, hs, hb, hr, hfill, rfl, hu, ht, (same hu).symm.trans ht⟩

/-- An object that lacks a field that may be null, inside one with a check that takes the field
from it: there is no such field. Given as null, it is found. -/
theorem exists_validate_filled_differs :
    let inner : ClassDecl := ⟨"Inner", [⟨"note", .optional .string, []⟩], []⟩
    let outer : ClassDecl := ⟨"Outer", [⟨"inner", .class "Inner",
      [⟨.check, "no_note", "this.note == null", none⟩]⟩], []⟩
    let v : Value := .object "Outer" [("inner", .object "Inner" [])]
    let v' : Value := .object "Outer" [("inner", .object "Inner" [("note", .null)])]
    let settings := Settings.mk 128 false true
    ∃ (schema : Schema) (es : List Enclosure) (e : ValidationError) (tree : Validated),
      Schema.ofDeclarations [.class inner, .class outer] = .ok schema ∧ schema.Built ∧
      schema.Rootless ∧ schema.Filling (.class "Outer") v v' es ∧
      schema.validate settings (.class "Outer") v = .error e ∧
      schema.validate settings (.class "Outer") v' = .ok tree := by
  intro inner outer v v' settings
  have hs : (Schema.ofDeclarations [.class inner, .class outer]).toOption.any (fun schema =>
      (decide schema.Rootless && (!(schema.validate settings (.class "Outer") v).isOk &&
          (schema.validate settings (.class "Outer") v').isOk)) &&
        (schema.class? "Outer").any fun c => (schema.class? "Inner").any fun d =>
          (omitted d.toClass [] == ["note"]) &&
            (c.field? "inner").any fun f => f.type.tag? == some (.class "Inner")) = true := by
    decide +kernel
  obtain ⟨schema, hs, hall⟩ := Results.toOption_any_iff.mp hs
  simp only [Bool.and_eq_true, Bool.not_eq_true', Option.any_eq_true, decide_eq_true_eq,
    beq_iff_eq, Results.isOk_iff] at hall
  obtain ⟨⟨hr, hbad, tree, ht⟩, c, hc, d, hd, ha, f, hf, htag⟩ := hall
  have hn : "inner" ∉ Fields.names ([] : List (String × Value)) := List.not_mem_nil
  have hfill := Filling.of_field hc hd hf htag ha hn []
  cases hv : schema.validate settings (.class "Outer") v with
  | error e =>
    exact ⟨schema, _, e, tree, hs, Schema.built_of_declarations hs, hr, hfill, hv, ht⟩
  | ok tree =>
    rw [hv] at hbad
    cases hbad

end Schema

end RecordCheck

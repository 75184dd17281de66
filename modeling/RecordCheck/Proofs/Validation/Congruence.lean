import RecordCheck.Proofs.Eval.Reads
import RecordCheck.Proofs.Schema.Fields
import RecordCheck.Proofs.Validation.Visit
import RecordCheck.Proofs.Value.Parts

/-! Visits that agree on the parts of two values agree on the values, in success and in failure. So
the outermost value does not matter where no constraint reads it. -/

namespace RecordCheck

/-! ### Verdicts -/

/-- The constraints that apply in an alternative have the same verdicts in two contexts, or fail
alike. -/
def SameVerdicts (tag : Option Tag) (ctx ctx' : Eval.Context) (constraints : List Constraint) :
    Prop :=
  ∀ k ∈ constraints, k.appliesIn tag = true →
    Eval.holds? ctx k.formula.expr = Eval.holds? ctx' k.formula.expr

/-- No constraint of the schema reads the outermost value. -/
def Schema.Rootless (schema : Schema) : Prop :=
  ∀ c ∈ schema.classes,
    (∀ f ∈ c.fields, ∀ k ∈ f.constraints, k.formula.expr.uses .root = false) ∧
      ∀ k ∈ c.constraints, k.formula.expr.uses .root = false

instance (schema : Schema) : Decidable schema.Rootless :=
  inferInstanceAs (Decidable (∀ c ∈ schema.classes, _ ∧ _))

section

variable {tag : Option Tag} {ctx ctx' ctx'' : Eval.Context} {ks : List Constraint}

theorem SameVerdicts.trans (h : SameVerdicts tag ctx ctx' ks)
    (h' : SameVerdicts tag ctx' ctx'' ks) : SameVerdicts tag ctx ctx'' ks :=
  fun k hk ha => (h k hk ha).trans (h' k hk ha)

namespace Eval.Context

variable {this this' block block' root root' : Value}

theorem value_of_ne_this : ∀ s, s ≠ .this →
    value ⟨this, block, root⟩ s = value ⟨this', block, root⟩ s
  | .this, h => absurd rfl h
  | .block, _ | .root, _ => rfl

theorem value_of_ne_block : ∀ s, s ≠ .block →
    value ⟨this, block, root⟩ s = value ⟨this, block', root⟩ s
  | .block, h => absurd rfl h
  | .this, _ | .root, _ => rfl

theorem value_of_ne_root : ∀ s, s ≠ .root →
    value ⟨this, block, root⟩ s = value ⟨this, block, root'⟩ s
  | .root, h => absurd rfl h
  | .this, _ | .block, _ => rfl

end Eval.Context

/-- A verdict depends on a root through the fields taken from it, unless the root is read as a
whole. -/
theorem Eval.holds?_congr {e : Expr} {r : Root}
    (ho : ∀ s, s ≠ r → ctx.value s = ctx'.value s) (hw : e.readsWhole r = false)
    (hf : ∀ name ∈ e.references r, fieldOf (ctx.value r) name = fieldOf (ctx'.value r) name) :
    holds? ctx e = holds? ctx' e := by
  have he : eval ctx e = eval ctx' e :=
    eval_congr ho e hw fun t ht name ha => hf name (Expr.mem_references.mpr ⟨t, ht, ha⟩)
  rw [holds?, holds?, he]

theorem Eval.holds?_of_not_uses {e : Expr} {r : Root}
    (ho : ∀ s, s ≠ r → ctx.value s = ctx'.value s) (hu : e.uses r = false) :
    holds? ctx e = holds? ctx' e :=
  holds?_congr ho (Expr.readsWhole_of_not_uses hu) (by simp [Expr.references_of_not_uses hu])

theorem sameVerdicts_of_rootless (hk : ∀ k ∈ ks, k.formula.expr.uses .root = false)
    (this block root root' : Value) :
    SameVerdicts tag ⟨this, block, root⟩ ⟨this, block, root'⟩ ks :=
  fun k hm _ => Eval.holds?_of_not_uses Eval.Context.value_of_ne_root (hk k hm)

/-- So one outermost value stands for all. -/
theorem SameVerdicts.of_rootless (hk : ∀ k ∈ ks, k.formula.expr.uses .root = false)
    {this this' block block' root : Value}
    (h : SameVerdicts tag ⟨this, block, root⟩ ⟨this', block', root⟩ ks) (other : Value) :
    SameVerdicts tag ⟨this, block, other⟩ ⟨this', block', other⟩ ks :=
  ((sameVerdicts_of_rootless hk this block other root).trans h).trans
    (sameVerdicts_of_rootless hk this' block' root other)

theorem Settings.runAll_congr (settings : Settings) (path : Path)
    (h : ∀ k ∈ ks, Eval.holds? ctx k.formula.expr = Eval.holds? ctx' k.formula.expr) :
    settings.runAll path ctx ks = settings.runAll path ctx' ks := by
  induction ks with
  | nil => rfl
  | cons k rest ih =>
    obtain ⟨hk, hr⟩ := List.forall_mem_cons.mp h
    simp only [runAll, runConstraint, hk, ih hr]

theorem SameVerdicts.runConstraints_eq (h : SameVerdicts tag ctx ctx' ks) (settings : Settings)
    (path : Path) :
    settings.runConstraints path ctx tag ks = settings.runConstraints path ctx' tag ks := by
  apply Settings.runAll_congr
  intro k hk
  obtain ⟨hm, ha⟩ := List.mem_filter.mp hk
  exact h k hm ha

end

namespace Validation

variable {w : Validation} {r : Value} {path : Path} {type : FieldType} {v : Value}

/-- Two values are visited alike wherever they stand, the second one inside another outermost
value. -/
def SameVisit (w : Validation) (r : Value) (type : FieldType) (v v' : Value) : Prop :=
  ∀ path, visit w v path type = visit { w with root := r } v' path type

/-! ### Items and entries -/

theorem visitItems_congr {items items' : List Value}
    (h : List.Forall₂ (SameVisit w r type) items items') (path : Path) (i : Nat) :
    visitItems w items path type i = visitItems { w with root := r } items' path type i := by
  induction h generalizing i with
  | nil => rfl
  | cons hv _ ih => simp only [visitItems, hv (path.push (.index i)), ih]

theorem visitEntries_congr {entries entries' : List (String × Value)} (key : FieldType)
    (h : List.Forall₂ (fun a b => a.1 = b.1 ∧ SameVisit w r type a.2 b.2) entries entries')
    (path : Path) :
    visitEntries w entries path key type =
      visitEntries { w with root := r } entries' path key type := by
  induction h with
  | nil => rfl
  | @cons a b _ _ hab _ ih =>
    obtain ⟨k, v⟩ := a
    obtain ⟨l, v'⟩ := b
    obtain ⟨rfl, hv⟩ := hab
    have hk : w.acceptsKey key k = { w with root := r }.acceptsKey key k := rfl
    simp only [visitEntries, hk, hv (path.push (.key k)), ih]

/-! ### Objects -/

/-- The visit of a declared field, by the value that it has. -/
theorem visitField_eq (block : Value) (fields : List (String × Value)) (f : Field) :
    w.visitField path block fields (visits w fields) f =
      match fieldValue? fields f with
      | none => mismatch (path.push (.field f.name)) f.type.text "missing field"
      | some v => do
        let node ← visit w v (path.push (.field f.name)) f.type
        let checks ← w.settings.runConstraints (path.push (.field f.name)) ⟨v, block, w.root⟩
          (f.type.liveTag? v) f.constraints
        return (f.name, wrap f.hasChecks checks node) := by
  simp only [visitField, find?_visits, fieldValue?]
  cases Fields.find? f.name fields with
  | some v => rfl
  | none =>
    by_cases ha : f.type.accepts .null
    · simp only [ha, Option.map_none, Option.getD_none, if_true, visitAbsent_eq]
      rfl
    · simp [ha, mismatch, bind, Except.bind]

/-- A field has values in two objects that are visited alike and look alike to its constraints. -/
structure SameField (w : Validation) (r block block' : Value) (f : Field) (v v' : Value) :
    Prop where
  visit_eq : SameVisit w r f.type v v'
  tag_eq : v.tag = v'.tag
  verdicts : SameVerdicts (f.type.liveTag? v) ⟨v, block, w.root⟩ ⟨v', block', r⟩ f.constraints

/-- Two objects of a class whose fields agree, and which look alike to its constraints. -/
structure SameObject (w : Validation) (r : Value) (c : Class)
    (fields fields' : List (String × Value)) : Prop where
  declared : ∀ f ∈ c.fields, Option.Rel (SameField w r (filled c fields) (filled c fields') f)
    (fieldValue? fields f) (fieldValue? fields' f)
  undeclared : (fields.filter fun entry => (c.field? entry.1).isNone) =
    fields'.filter fun entry => (c.field? entry.1).isNone
  verdicts : SameVerdicts (some (.class c.name)) (.ofObject (filled c fields) w.root)
    (.ofObject (filled c fields') r) c.constraints

theorem SameField.visitField_eq {c : Class} {fields fields' : List (String × Value)} {f : Field}
    (h : Option.Rel (SameField w r (filled c fields) (filled c fields') f) (fieldValue? fields f)
      (fieldValue? fields' f)) (path : Path) :
    w.visitField path (filled c fields) fields (visits w fields) f =
      { w with root := r }.visitField path (filled c fields') fields'
        (visits { w with root := r } fields') f := by
  rw [Validation.visitField_eq, Validation.visitField_eq]
  generalize fieldValue? fields f = u?, fieldValue? fields' f = v? at h
  cases h with
  | none => rfl
  | some h =>
    have hn := h.visit_eq (path.push (.field f.name))
    have hc := h.verdicts.runConstraints_eq w.settings (path.push (.field f.name))
    have ht := FieldType.liveTag?_congr f.type h.tag_eq
    simp only [hn, hc, ← ht]

theorem SameObject.visitObject_eq {c : OrderedClass} (hc : c.Complete)
    {fields fields' : List (String × Value)} (h : SameObject w r c.toClass fields fields')
    (path : Path) :
    w.visitObject path c fields (visits w fields) =
      { w with root := r }.visitObject path c fields' (visits { w with root := r } fields') := by
  have hf : c.fieldsInOrder.mapM
        (w.visitField path (filled c.toClass fields) fields (visits w fields)) =
      c.fieldsInOrder.mapM ({ w with root := r }.visitField path (filled c.toClass fields') fields'
        (visits { w with root := r } fields')) :=
    Results.mapM_congr fun f hm =>
      SameField.visitField_eq (h.declared f (hc.mem_fieldsInOrder.mp hm)) path
  simp only [visitObject, fill_eq, arrange, hf, h.undeclared,
    h.verdicts.runConstraints_eq w.settings path]

/-! ### Values -/

theorem visit_list (items : List Value) (path : Path) (type : FieldType) :
    visit w (.list items) path (.list type) =
      w.checkDepth path >>= fun _ => visitItems w items path type 0 >>= fun trees =>
        return .list trees := by
  simp only [visit, enter, alternative, bind_assoc]
  rfl

theorem visit_map (entries : List (String × Value)) (path : Path) (key type : FieldType) :
    visit w (.map entries) path (.map key type) =
      w.checkDepth path >>= fun _ => visitEntries w entries path key type >>= fun trees =>
        return .map trees := by
  simp only [visit, enter, alternative, bind_assoc]
  rfl

theorem visit_object {name : String} {c : OrderedClass} (hc : w.schema.class? name = some c)
    (fields : List (String × Value)) (path : Path) :
    visit w (.object name fields) path (.class name) =
      w.checkDepth path >>= fun _ => w.visitObject path c fields (visits w fields) := by
  simp only [visit, enter, alternative, bind_assoc]
  refine bind_congr fun _ => ?_
  rw [Results.ok_bind]
  simp only [hc, if_true]

/-- Where no constraint reads the outermost value, it does not matter. -/
theorem sameVisit_of_rootless (hw : w.schema.Complete) (hr : w.schema.Rootless) (r v : Value)
    (type : FieldType) : SameVisit w r type v v := by
  induction v using Value.induction_parts_null generalizing type with
  | h v ih hnull =>
    intro path
    cases v with
    | list items =>
      simp only [visit]
      refine bind_congr fun a => ?_
      split
      next item =>
        have same : List.Forall₂ (SameVisit w r item) items items :=
          List.forall₂_same.mpr fun u hu => ih u hu item
        rw [visitItems_congr same]
      next => rfl
    | map entries =>
      simp only [visit]
      refine bind_congr fun a => ?_
      split
      next key item =>
        rw [visitEntries_congr key (List.forall₂_same.mpr fun entry he =>
          ⟨rfl, ih entry.2 (List.mem_map_of_mem he) item⟩)]
      next => rfl
    | object className fields =>
      simp only [visit]
      refine bind_congr fun a => ?_
      split
      next name =>
        cases hc : w.schema.class? name with
        | none => rfl
        | some c =>
          obtain ⟨hm, -⟩ := Schema.mem_of_class? hc
          have same : SameObject w r c.toClass fields fields := by
            refine ⟨fun f hf => ?_, rfl, sameVerdicts_of_rootless (hr c hm).2 _ _ _ _⟩
            cases hv : fieldValue? fields f with
            | none => exact .none
            | some u =>
              have hu : SameVisit w r f.type u u := by
                rcases fieldValue?_mem hv with hp | rfl
                · exact ih u hp f.type
                · exact hnull (by simp) f.type
              exact .some ⟨hu, rfl, sameVerdicts_of_rootless ((hr c hm).1 f hf) _ _ _ _⟩
          simp only [same.visitObject_eq (hw c hm)]
      next => rfl
    | _ => rfl

end Validation

end RecordCheck

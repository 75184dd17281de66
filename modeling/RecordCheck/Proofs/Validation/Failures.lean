import RecordCheck.Proofs.Validation.Congruence
import RecordCheck.Proofs.Validation.Plain
import RecordCheck.Proofs.Validation.Readiness
import RecordCheck.Proofs.Validation.Spots

/-! Where and why a constraint ends a validation: the path of the error leads to a spot with a
constraint that is broken there, and all that is visited before has been validated. -/

namespace RecordCheck

open Validation Results

/-! ### Constraints -/

/-- What a constraint ends a validation with: an assertion that is false or null, or the lack of a
verdict. -/
inductive Constraint.Breaks (settings : Settings) (path : Path) (ctx : Eval.Context)
    (k : Constraint) : ValidationError → Prop where
  | assertion (hk : k.kind = .assert) (hv : Eval.eval ctx k.formula.expr = .ok (.bool false) ∨
      Eval.eval ctx k.formula.expr = .ok .null) :
      Breaks settings path ctx k (.assertionFailed k.message path (settings.expression? k))
  | undefined {e} (he : Eval.holds? ctx k.formula.expr = .error e) :
      Breaks settings path ctx k (.evaluation k.message path (settings.expression? k) e)

theorem Constraint.Breaks.path?_eq {settings : Settings} {path : Path} {ctx : Eval.Context}
    {k : Constraint} {e : ValidationError} (h : k.Breaks settings path ctx e) :
    e.path? = some path := by
  cases h <;> rfl

/-- A verdict is negative if the constraint is false or null. -/
theorem Eval.holds?_eq_false {ctx : Eval.Context} {e : Expr} :
    holds? ctx e = .ok false ↔ eval ctx e = .ok (.bool false) ∨ eval ctx e = .ok .null := by
  simp only [holds?, bind_eq_ok]
  cases eval ctx e with
  | error => simp
  | ok v => cases v <;> simp

namespace Settings

variable {settings : Settings} {path : Path} {ctx : Eval.Context} {e : ValidationError}

theorem runConstraint_eq_error {k : Constraint} :
    settings.runConstraint path ctx k = .error e ↔ k.Breaks settings path ctx e := by
  constructor
  · intro h
    simp only [runConstraint] at h
    split at h
    next he =>
      cases h
      exact .undefined he
    next => cases h
    next hv hk =>
      cases h
      exact .assertion hk (Eval.holds?_eq_false.mp hv)
    next => cases h
  · intro h
    cases h with
    | assertion hk hv => simp only [runConstraint, Eval.holds?_eq_false.mpr hv, hk]
    | undefined he => simp only [runConstraint, he]

/-- The first constraint that is broken ends a run. -/
theorem runAll_eq_error {ks : List Constraint} :
    settings.runAll path ctx ks = .error e ↔
      ∃ before k after, ks = before ++ k :: after ∧ (∀ l ∈ before, l.Met ctx) ∧
        k.Breaks settings path ctx e := by
  induction ks with
  | nil => simp [runAll]
  | cons l rest ih =>
    simp only [runAll, bind_eq_error, runConstraint_eq_error, runConstraint_eq_ok, ih,
      pure_ne_error, and_false, exists_false, or_false]
    constructor
    · intro h
      rcases h with h | ⟨_, ⟨hl, -⟩, before, k, after, rfl, hm, hb⟩
      · exact ⟨[], l, rest, rfl, by simp, h⟩
      · exact ⟨l :: before, k, after, rfl, List.forall_mem_cons.mpr ⟨hl, hm⟩, hb⟩
    · intro h
      obtain ⟨before, k, after, he, hm, hb⟩ := h
      cases before with
      | nil =>
        cases he
        exact .inl hb
      | cons l' before =>
        cases he
        obtain ⟨hl, hm⟩ := List.forall_mem_cons.mp hm
        exact .inr ⟨_, ⟨hl, rfl⟩, before, k, after, rfl, hm, hb⟩

theorem runConstraints_eq_error {tag : Option Tag} {ks : List Constraint} :
    settings.runConstraints path ctx tag ks = .error e ↔
      ∃ before k after, ks = before ++ k :: after ∧ k.appliesIn tag = true ∧
        MetIn tag ctx before ∧ k.Breaks settings path ctx e := by
  rw [runConstraints, runAll_eq_error]
  constructor
  · intro h
    obtain ⟨_, k, _, he, hm, hb⟩ := h
    obtain ⟨front, back, rfl, rfl, hk⟩ := List.filter_eq_append_iff.mp he
    obtain ⟨skipped, after, rfl, hs, ha, rfl⟩ := List.filter_eq_cons_iff.mp hk
    refine ⟨front ++ skipped, k, after, by simp, ha, fun l hl hal => ?_, hb⟩
    rcases List.mem_append.mp hl with hl | hl
    · exact hm l (List.mem_filter.mpr ⟨hl, hal⟩)
    · exact absurd hal (hs l hl)
  · intro h
    obtain ⟨before, k, after, rfl, ha, hm, hb⟩ := h
    refine ⟨before.filter (·.appliesIn tag), k, after.filter (·.appliesIn tag), ?_, ?_, hb⟩
    · simp only [List.filter_append, List.filter_cons, ha, if_true]
    · intro l hl
      obtain ⟨hl, hal⟩ := List.mem_filter.mp hl
      exact hm l hl hal

end Settings

/-! ### Spots -/

/-- A declared field of an object has been validated, its constraints included. -/
def Site.Passes (w : Validation) (site : Site) (f : Field) : Prop :=
  ∃ u tree, fieldValue? site.fields f = some u ∧ visit w u (site.place f) f.type = .ok tree ∧
    MetIn (f.type.liveTag? u) (site.context w u) f.constraints

namespace Validation

/-- A constraint ends the validation at a spot: one on the declared field that has its value there,
or one on the object there. The value has been validated, and the constraints before are met. -/
inductive BreaksAt (w : Validation) (path : Path) (s : Spot) (e : ValidationError) : Prop where
  | field {h : Holder} {tree before k after} (holder_eq : s.holder? = some h)
      (visited : visit w s.value path h.field.type = .ok tree)
      (constraints_eq : h.field.constraints = before ++ k :: after)
      (applies : k.appliesIn s.liveTag? = true)
      (met : MetIn s.liveTag? (w.fieldContext h.owner.toClass h.fields s.value) before)
      (breaks : k.Breaks w.settings path (w.fieldContext h.owner.toClass h.fields s.value) e)
  | object {c fields before k after} (class_eq : s.class? w.schema = some c)
      (value_eq : s.value = .object c.name fields)
      (visited : ∀ f ∈ c.fields, Site.Passes w ⟨path, c, fields⟩ f)
      (constraints_eq : c.constraints = before ++ k :: after)
      (applies : k.appliesIn (some (.class c.name)) = true)
      (met : MetIn (some (.class c.name)) (w.objectContext c.toClass fields) before)
      (breaks : k.Breaks w.settings path (w.objectContext c.toClass fields) e)

/-- What is visited before the part that a step leads to has been validated. -/
inductive Ahead (w : Validation) (path : Path) (s : Spot) : Step → Prop where
  | item {item items i} (live_eq : s.live? = some (.list item)) (value_eq : s.value = .list items)
      (visited : ∀ j < i, ∀ u, items[j]? = some u →
        ∃ tree, visit w u (path.push (.index j)) item = .ok tree) : Ahead w path s (.index i)
  | entry {key item before k u after} (live_eq : s.live? = some (.map key item))
      (value_eq : s.value = .map (before ++ (k, u) :: after))
      (visited : ∀ entry ∈ before, w.acceptsKey key entry.1 = true ∧
        ∃ tree, visit w entry.2 (path.push (.key entry.1)) item = .ok tree) :
      Ahead w path s (.key k)
  | field {c fields before f after} (class_eq : s.class? w.schema = some c)
      (value_eq : s.value = .object c.name fields)
      (order_eq : c.fieldsInOrder = before ++ f :: after)
      (visited : ∀ g ∈ before, Site.Passes w ⟨path, c, fields⟩ g) : Ahead w path s (.field f.name)

/-- Steps lead from a spot to the one where a constraint ends the validation. -/
inductive Leads (w : Validation) (e : ValidationError) : Path → Spot → Prop where
  | here {path s} (h : BreaksAt w path s e) : Leads w e path s
  | inside {path s step next} (hs : w.schema.inward? s step = some next)
      (ahead : Ahead w path s step) (h : Leads w e (path.push step) next) : Leads w e path s

variable {w : Validation} {path : Path} {type a : FieldType} {v : Value} {s : Spot}
  {e : ValidationError}

theorem BreaksAt.path?_eq (h : BreaksAt w path s e) : e.path? = some path := by
  cases h with
  | field _ _ _ _ _ hb => exact hb.path?_eq
  | object _ _ _ _ _ _ hb => exact hb.path?_eq

/-- The steps are those that the error tells beyond the place of the spot. -/
theorem Leads.exists_steps (h : Leads w e path s) :
    ∃ steps last, e.path? = some ⟨path.root, path.steps ++ steps⟩ ∧
      steps.foldlM w.schema.inward? s = some last ∧
      BreaksAt w ⟨path.root, path.steps ++ steps⟩ last e ∧
      ∀ before step after, steps = before ++ step :: after →
        ∃ p, before.foldlM w.schema.inward? s = some p ∧
          Ahead w ⟨path.root, path.steps ++ before⟩ p step := by
  induction h with
  | @here path s h =>
    have hp : (⟨path.root, path.steps ++ []⟩ : Path) = path := by rw [List.append_nil]
    exact ⟨[], s, by rw [hp, h.path?_eq], rfl, by rwa [hp], by simp⟩
  | @inside path s step next hs ahead _ ih =>
    obtain ⟨steps, last, he, hl, hb, ha⟩ := ih
    have hp (rest : List Step) :
        (⟨(path.push step).root, (path.push step).steps ++ rest⟩ : Path) =
          ⟨path.root, path.steps ++ step :: rest⟩ := by
      simp [Path.push]
    refine ⟨step :: steps, last, by rw [he, hp], ?_, by rwa [hp] at hb, ?_⟩
    · rw [List.foldlM_cons, hs]
      exact hl
    · intro before step' after hsteps
      cases before with
      | nil =>
        cases hsteps
        exact ⟨s, rfl, by simpa using ahead⟩
      | cons b before =>
        cases hsteps
        obtain ⟨p, hpr, hah⟩ := ha before step' after rfl
        refine ⟨p, ?_, by rwa [hp] at hah⟩
        rw [List.foldlM_cons, hs]
        exact hpr

/-! ### Structural errors -/

theorem mismatch_eq_error {α : Type} {expected found : String}
    (h : mismatch (α := α) path expected found = .error e) : e.isStructural = true := by
  cases h
  rfl

theorem enter_eq_error (h : w.enter path type v = .error e) : e.isStructural = true := by
  simp only [enter, checkDepth, alternative, bind_eq_error] at h
  rcases h with h | ⟨_, -, h⟩
  · split at h <;> cases h
    rfl
  · split at h
    · split at h
      · cases h
      · exact mismatch_eq_error h
    · split at h
      · cases h
      · exact mismatch_eq_error h
    · cases h

theorem leaf_eq_error (h : w.leaf path type v = .error e) : e.isStructural = true := by
  simp only [leaf] at h
  split at h
  all_goals first
    | exact mismatch_eq_error h
    | split at h <;> first | exact mismatch_eq_error h | (cases h; rfl) | cases h

/-- A type with a tag is entered as it is, any other through the alternative selected. -/
theorem eq_or_select?_of_enter (h : w.enter path type v = .ok a) :
    type.tag?.isSome ∧ a = type ∨ type.select? v = some a := by
  simp only [enter, bind_eq_ok] at h
  obtain ⟨_, -, h⟩ := h
  cases ht : type.tag? with
  | some tag =>
    rw [alternative_of_tag (by simp [ht])] at h
    cases h
    exact .inl ⟨rfl, rfl⟩
  | none =>
    rw [alternative_of_choice ht] at h
    split at h <;> cases h
    next hs => exact .inr hs

/-- The alternative that is entered is the one that the value lives in, if the value is one of
it. -/
theorem select?_of_enter (h : w.enter path type v = .ok a) (ha : a.admits v = true) :
    type.select? v = some a := by
  rcases eq_or_select?_of_enter h with ⟨ht, rfl⟩ | hs
  · exact FieldType.select?_of_tag ht ha
  · exact hs

/-! ### Layers -/

theorem exists_of_visitItems_error {items : List Value} {i : Nat}
    (h : visitItems w items path type i = .error e) :
    ∃ j u, items[j]? = some u ∧ visit w u (path.push (.index (i + j))) type = .error e ∧
      ∀ l < j, ∀ x, items[l]? = some x →
        ∃ tree, visit w x (path.push (.index (i + l))) type = .ok tree := by
  induction items generalizing i with
  | nil => cases h
  | cons v rest ih =>
    simp only [visitItems, bind_eq_error, pure_ne_error, and_false, exists_false, or_false] at h
    rcases h with h | ⟨tree, ht, h⟩
    · exact ⟨0, v, rfl, h, by simp⟩
    · obtain ⟨j, u, hj, hu, hb⟩ := ih h
      refine ⟨j + 1, u, hj, by rwa [Nat.add_right_comm] at hu, fun l hl x hx => ?_⟩
      cases l with
      | zero =>
        cases hx
        exact ⟨tree, ht⟩
      | succ l =>
        obtain ⟨t, hx⟩ := hb l (Nat.lt_of_succ_lt_succ hl) x hx
        exact ⟨t, by rwa [Nat.add_right_comm] at hx⟩

/-- Entries fail in the value of one, or in a key that is refused. -/
theorem exists_of_visitEntries_error {entries : List (String × Value)} {key : FieldType}
    (h : visitEntries w entries path key type = .error e) :
    ∃ before k u after, entries = before ++ (k, u) :: after ∧
      (∀ entry ∈ before, w.acceptsKey key entry.1 = true ∧
        ∃ tree, visit w entry.2 (path.push (.key entry.1)) type = .ok tree) ∧
      (visit w u (path.push (.key k)) type = .error e ∨ w.acceptsKey key k = false ∧
        e = .typeMismatch (path.push (.key k)) key.text ("key " ++ Text.quoted k)) := by
  induction entries with
  | nil => cases h
  | cons entry rest ih =>
    obtain ⟨k, v⟩ := entry
    cases ha : w.acceptsKey key k with
    | true =>
      simp only [visitEntries, ha, if_true, bind_eq_error, pure_ne_error, and_false,
        exists_false, or_false] at h
      rcases h with h | ⟨tree, ht, h⟩
      · exact ⟨[], k, v, rest, rfl, by simp, .inl h⟩
      · obtain ⟨before, k', u, after, rfl, hb, hu⟩ := ih h
        exact ⟨(k, v) :: before, k', u, after, rfl,
          List.forall_mem_cons.mpr ⟨⟨ha, tree, ht⟩, hb⟩, hu⟩
    | false =>
      simp only [visitEntries, ha, mismatch] at h
      cases h
      exact ⟨[], k, v, rest, rfl, by simp, .inr ⟨ha, rfl⟩⟩

/-- A declared field fails as it has no value, in its value or, once that has been validated, in its
constraints. -/
theorem exists_of_visitField_error (site : Site) {f : Field}
    (h : w.visitField site.path site.block site.fields (visits w site.fields) f = .error e) :
    (fieldValue? site.fields f = none ∧
      e = .typeMismatch (site.place f) f.type.text "missing field") ∨
    ∃ u, fieldValue? site.fields f = some u ∧
      (visit w u (site.place f) f.type = .error e ∨
        ∃ tree, visit w u (site.place f) f.type = .ok tree ∧
          w.settings.runConstraints (site.place f) (site.context w u) (f.type.liveTag? u)
            f.constraints = .error e) := by
  rw [visitField_eq] at h
  split at h
  next hu =>
    cases h
    exact .inl ⟨hu, rfl⟩
  next u hu =>
    simp only [bind_eq_error, pure_ne_error, and_false, exists_false, or_false,
      ← Site.context_eq_block] at h
    exact .inr ⟨u, hu, h⟩

theorem class?_of_live? {c : OrderedClass} (hl : s.live? = some (.class c.name))
    (hc : w.schema.class? c.name = some c) : s.class? w.schema = some c := by
  simp only [Spot.class?, Spot.liveTag?, hl, Option.bind_some, FieldType.tag?, Schema.classOf?, hc]

theorem inward?_declared {c : OrderedClass} {fields : List (String × Value)} {f : Field} {u : Value}
    (hc : c.Complete) (hcls : w.schema.class? c.name = some c)
    (hl : s.live? = some (.class c.name)) (hv : s.value = .object c.name fields)
    (hf : f ∈ c.fields) (hu : fieldValue? fields f = some u) :
    w.schema.inward? s (.field f.name) = some ⟨some f.type, u, some ⟨c, fields, f⟩⟩ := by
  simp [Schema.inward?, hl, hv, Value.object?, hcls, hc.field?_of_mem hf, hu]

/-- The fields of an object fail before the constraints on the object do. -/
theorem leads_of_visitObject {c : OrderedClass} {fields : List (String × Value)}
    (hc : c.Complete) (hcls : w.schema.class? c.name = some c)
    (hl : s.live? = some (.class c.name)) (hv : s.value = .object c.name fields)
    (hk : e.isStructural = false)
    (ih : ∀ f ∈ c.fields, ∀ u, fieldValue? fields f = some u → ∀ holder?,
      visit w u (path.push (.field f.name)) f.type = .error e →
        Leads w e (path.push (.field f.name)) ⟨some f.type, u, holder?⟩)
    (h : w.visitObject path c fields (visits w fields) = .error e) : Leads w e path s := by
  let site : Site := ⟨path, c, fields⟩
  have passes (f : Field) (entry : String × Validated)
      (hf : w.visitField path site.block fields (visits w fields) f = .ok entry) :
      site.Passes w f := by
    rw [Site.block, fill_eq, visitField_eq_ok] at hf
    obtain ⟨u, node, hu, hn, hm, -⟩ := hf
    exact ⟨u, node, hu, hn, hm⟩
  simp only [visitObject, bind_eq_error, pure_ne_error, and_false, exists_false, or_false] at h
  rcases h with h | ⟨nodes, hn, h⟩
  · obtain ⟨before, f, after, ho, hb, hf⟩ := exists_of_mapM_error h
    have hmem : f ∈ c.fields := hc.mem_fieldsInOrder.mp (by simp [ho])
    rcases exists_of_visitField_error site hf with ⟨-, rfl⟩ | ⟨u, hu, hfail⟩
    · cases hk
    refine .inside (inward?_declared hc hcls hl hv hmem hu)
      (.field (class?_of_live? hl hcls) hv ho fun g hg => ?_) ?_
    · obtain ⟨entry, hg⟩ := hb g hg
      exact passes g entry hg
    · rcases hfail with hvisit | ⟨tree, ht, hrun⟩
      · exact ih f hmem u hu _ hvisit
      · obtain ⟨front, k, back, hks, ha, hm, hbr⟩ := Settings.runConstraints_eq_error.mp hrun
        exact .here (.field rfl ht hks ha hm hbr)
  · rw [fill_eq] at h
    obtain ⟨front, k, back, hks, ha, hm, hbr⟩ := Settings.runConstraints_eq_error.mp h
    refine .here (.object (class?_of_live? hl hcls) hv (fun f hf => ?_) hks ha hm hbr)
    obtain ⟨g, hg, -⟩ := mapM_eq_ok.mp hn
    exact passes f (g f) (hg f (hc.mem_fieldsInOrder.mpr hf))

/-! ### Values -/

/-- Wherever a visit ends with the error of a constraint, steps lead to the constraint. -/
theorem leads_of_visit (hw : w.schema.Complete) (hwf : v.WellFormed) (hk : e.isStructural = false)
    (hv : s.value = v) (hl : s.live? = type.select? v) (h : visit w v path type = .error e) :
    Leads w e path s := by
  have structural {p : Prop} (hs : e.isStructural = true) : p := by
    rw [hk] at hs
    cases hs
  induction v using Value.induction_parts_null generalizing path type s with
  | h v ih hnull =>
    cases v with
    | list items =>
      rw [visit, bind_eq_error] at h
      rcases h with h | ⟨a, ha, h⟩
      · exact structural (enter_eq_error h)
      split at h
      next item =>
        rw [select?_of_enter ha rfl] at hl
        simp only [bind_eq_error, pure_ne_error, and_false, exists_false, or_false] at h
        obtain ⟨j, u, hj, hu, hb⟩ := exists_of_visitItems_error h
        simp only [Nat.zero_add] at hu hb
        have hs : w.schema.inward? s (.index j) = some ⟨some item, u, none⟩ := by
          simp [Schema.inward?, hl, hv, Value.child?, hj]
        have hmem : u ∈ (Value.list items).parts := List.mem_of_getElem? hj
        exact .inside hs (.item hl hv hb) (ih u hmem (hwf.part hmem) rfl rfl hu)
      next => exact structural (leaf_eq_error h)
    | map entries =>
      rw [visit, bind_eq_error] at h
      rcases h with h | ⟨a, ha, h⟩
      · exact structural (enter_eq_error h)
      split at h
      next key item =>
        rw [select?_of_enter ha rfl] at hl
        simp only [bind_eq_error, pure_ne_error, and_false, exists_false, or_false] at h
        obtain ⟨before, k, u, after, rfl, hb, hfail⟩ := exists_of_visitEntries_error h
        rcases hfail with hu | ⟨-, rfl⟩
        · have hfind : Fields.find? k (before ++ (k, u) :: after) = some u :=
            Fields.find?_of_mem hwf.1.nodup (by simp)
          have hs : w.schema.inward? s (.key k) = some ⟨some item, u, none⟩ := by
            simp [Schema.inward?, hl, hv, Value.child?, hfind]
          have hmem : u ∈ (Value.map (before ++ (k, u) :: after)).parts := by
            simp [Value.parts]
          exact .inside hs (.entry hl hv hb) (ih u hmem (hwf.part hmem) rfl rfl hu)
        · exact structural rfl
      next => exact structural (leaf_eq_error h)
    | object name fields =>
      rw [visit, bind_eq_error] at h
      rcases h with h | ⟨a, ha, h⟩
      · exact structural (enter_eq_error h)
      split at h
      next declared =>
        split at h
        next =>
          cases h
          exact structural rfl
        next c hc =>
          split at h
          next hn =>
            subst hn
            obtain ⟨hm, rfl⟩ := Schema.mem_of_class? hc
            rw [select?_of_enter ha (FieldType.admits_of_tag rfl)] at hl
            refine leads_of_visitObject (hw c hm) hc hl hv hk (fun f _ u hu holder? he => ?_) h
            rcases fieldValue?_mem hu with hp | rfl
            · exact ih u hp (hwf.part hp) rfl rfl he
            · exact hnull (by simp) trivial rfl rfl he
          next => exact structural (mismatch_eq_error h)
      next => exact structural (leaf_eq_error h)
    | _ =>
      simp only [visit, bind_eq_error] at h
      rcases h with h | ⟨a, -, h⟩
      · exact structural (enter_eq_error h)
      · exact structural (leaf_eq_error h)

end Validation

namespace Schema

variable {schema : Schema} {settings : Settings} {type : FieldType} {v : Value}
  {e : ValidationError}

/-- Where a constraint ends a validation, the path of the error leads to a spot with a constraint
that is broken as the error says. The value there has been validated, the constraints that are
declared before are met, and at each step on the way all that is visited before has been validated:
in an object, the fields that come before in the order of evaluation. -/
theorem Built.exists_breaksAt_of_error (h : schema.Built) (hv : v.WellFormed)
    (he : schema.validate settings type v = .error e) (hk : e.isStructural = false) :
    ∃ steps s, e.path? = some ⟨type.rootName, steps⟩ ∧ schema.spot? type v steps = some s ∧
      BreaksAt ⟨schema, settings, v⟩ ⟨type.rootName, steps⟩ s e ∧
      ∀ before step after, steps = before ++ step :: after →
        ∃ p, schema.spot? type v before = some p ∧
          Ahead ⟨schema, settings, v⟩ ⟨type.rootName, before⟩ p step := by
  have hleads : Leads ⟨schema, settings, v⟩ e ⟨type.rootName, []⟩ ⟨some type, v, none⟩ :=
    leads_of_visit h.complete hv hk rfl rfl he
  obtain ⟨steps, s, hp, hs, hb, ha⟩ := hleads.exists_steps
  exact ⟨steps, s, hp, hs, hb, ha⟩

/-- The second item of a list has a field whose assertion reads one that is declared after it. -/
theorem exists_breaksAt_second_item :
    let item : ClassDecl := ⟨"Item", [⟨"price", .int,
      [⟨.check, "round", "this % 10 == 0", none⟩, ⟨.assert, "cheap", "this < block.limit", none⟩]⟩,
      ⟨"limit", .int, []⟩], []⟩
    let order : ClassDecl := ⟨"Order", [⟨"items", .optional (.list (.class "Item")), []⟩], []⟩
    let v : Value := .object "Order" [("items", .list [
      .object "Item" [("price", .int 3), ("limit", .int 5)],
      .object "Item" [("price", .int 7), ("limit", .int 5)]])]
    let steps : List Step := [.field "items", .index 1, .field "price"]
    let settings := Settings.mk 3 false true
    ∃ (schema : Schema) (e : ValidationError) (s : Spot),
      Schema.ofDeclarations [.class item, .class order] = .ok schema ∧ schema.Built ∧
      v.WellFormed ∧ schema.validate settings (.class "Order") v = .error e ∧
      e.isStructural = false ∧ e.path? = some ⟨"Order", steps⟩ ∧
      schema.spot? (.class "Order") v steps = some s ∧
      BreaksAt ⟨schema, settings, v⟩ ⟨"Order", steps⟩ s e := by
  intro item order v steps settings
  have hwf : v.WellFormed := by
    simp [v, Value.WellFormed, Value.FieldsWellFormed, Value.AllWellFormed, Fields.names]
  have hs : (Schema.ofDeclarations [.class item, .class order]).toOption.any (fun schema =>
      failsWith (fun e => !e.isStructural && decide (e.path? = some ⟨"Order", steps⟩))
        (schema.validate settings (.class "Order") v)) = true := by
    decide +kernel
  obtain ⟨schema, hs, hfails⟩ := toOption_any_iff.mp hs
  obtain ⟨e, he, hfails⟩ := failsWith_iff.mp hfails
  have hb := Schema.built_of_declarations hs
  obtain ⟨hk, hp⟩ := Bool.and_eq_true_iff.mp hfails
  rw [Bool.not_eq_true'] at hk
  have hpath := of_decide_eq_true hp
  obtain ⟨found, s, hfound, hspot, hbreaks, -⟩ := hb.exists_breaksAt_of_error hwf he hk
  rw [hpath, Option.some.injEq, Path.mk.injEq] at hfound
  obtain ⟨-, rfl⟩ := hfound
  exact ⟨schema, e, s, hs, hb, hwf, he, hk, hpath, hspot, hbreaks⟩

end Schema

end RecordCheck

import RecordCheck.Proofs.Validation.Failures

/-! Where an error is reported: the path of an error leads to a part of the value or to a declared
field that an object lacks, and what the error says is the case there. -/

namespace RecordCheck

open Validation Results

/-! ### Steps into a value -/

/-- The step is to a declared field that an object lacks. -/
def Schema.Lacks (schema : Schema) (v : Value) (step : Step) : Prop :=
  ∃ c fields f, v = .object c.name fields ∧ schema.class? c.name = some c ∧ f ∈ c.fields ∧
    step = .field f.name ∧ Fields.find? f.name fields = none

/-- Steps lead to a part of a value or, with the last of them, to a declared field that an object
lacks. -/
def Schema.Locates (schema : Schema) (v : Value) (steps : List Step) : Prop :=
  (∃ u, v.at? steps = some u) ∨
    ∃ before step u, steps = before ++ [step] ∧ v.at? before = some u ∧ schema.Lacks u step

namespace Schema

variable {schema : Schema} {type : FieldType} {v : Value} {s next last : Spot} {step : Step}
  {steps : List Step}

/-- A step to another spot is one to a part of the value, or to a null for an absent field. -/
theorem child?_of_inward? (h : schema.inward? s step = some next) :
    s.value.child? step = some next.value ∨ schema.Lacks s.value step ∧ next.value = .null := by
  have part {type? : Option FieldType}
      (h : ((s.value.child? step).map fun u => (⟨type?, u, none⟩ : Spot)) = some next) :
      s.value.child? step = some next.value := by
    obtain ⟨u, hu, rfl⟩ := Option.map_eq_some_iff.mp h
    exact hu
  simp only [inward?] at h
  split at h
  next => exact .inl (part h)
  next => exact .inl (part h)
  next name n hl =>
    obtain ⟨_, -, hrest⟩ := Option.bind_eq_some_iff.mp h
    obtain ⟨c, hc, -⟩ := Option.bind_eq_some_iff.mp hrest
    obtain ⟨-, rfl⟩ := mem_of_class? hc
    have hcls : s.class? schema = some c := by
      simp [Spot.class?, Spot.liveTag?, hl, hc, FieldType.tag?, classOf?]
    obtain ⟨fields, hv⟩ := object_of_class? hcls
    rw [hv]
    simp only [hv, hc, Value.object?, Option.bind_eq_bind, Option.bind_some] at h
    split at h
    next f hf =>
      obtain ⟨hm, rfl⟩ := Class.mem_of_field? hf
      obtain ⟨u, hu, rfl⟩ := Option.map_eq_some_iff.mp h
      rcases fieldValue?_eq_some_iff.mp hu with hx | ⟨hn, -, rfl⟩
      · exact .inl hx
      · exact .inr ⟨⟨c, fields, f, rfl, hc, hm, rfl, hn⟩, rfl⟩
    next =>
      obtain ⟨u, hu, rfl⟩ := Option.map_eq_some_iff.mp h
      exact .inl hu
  next => exact .inl (part h)

/-- Steps to another spot lead to a part of the value, or to a null for an absent field. -/
theorem at?_of_inward? (h : steps.foldlM schema.inward? s = some last) :
    s.value.at? steps = some last.value ∨ last.value = .null ∧ ∃ before step u,
      steps = before ++ [step] ∧ s.value.at? before = some u ∧ schema.Lacks u step := by
  induction steps generalizing s with
  | nil =>
    cases h
    exact .inl rfl
  | cons step rest ih =>
    rw [List.foldlM_cons] at h
    obtain ⟨next, hn, hr⟩ := Option.bind_eq_some_iff.mp h
    rcases child?_of_inward? hn with hc | ⟨hl, hnull⟩
    · rw [Value.at?_cons, hc]
      rcases ih hr with ha | ⟨hnull, before, step', u, rfl, hu, hl⟩
      · exact .inl ha
      · refine .inr ⟨hnull, step :: before, step', u, rfl, ?_, hl⟩
        rw [Value.at?_cons, hc]
        exact hu
    · -- From the null for an absent field no step leads on.
      obtain ⟨type?, v, holder?⟩ := next
      obtain rfl : v = .null := hnull
      cases rest with
      | nil =>
        cases hr
        exact .inr ⟨rfl, [], step, s.value, rfl, rfl, hl⟩
      | cons => simp [List.foldlM_cons, inward?_null] at hr

theorem locates_of_spot? (hs : schema.spot? type v steps = some s) : schema.Locates v steps := by
  rcases at?_of_inward? hs with h | ⟨-, h⟩
  · exact .inl ⟨_, h⟩
  · exact .inr h

/-- What is no null has been reached by steps to parts, and one step more may go wrong. -/
theorem locates_append_of_spot? (hs : schema.spot? type v steps = some s) (hn : s.value ≠ .null)
    (h : (s.value.child? step).isSome ∨ schema.Lacks s.value step) :
    schema.Locates v (steps ++ [step]) := by
  obtain ⟨hnull, -⟩ | hat := (at?_of_inward? hs).symm
  · exact absurd hnull hn
  rcases h with h | h
  · obtain ⟨u, hu⟩ := Option.isSome_iff_exists.mp h
    refine .inl ⟨u, ?_⟩
    rw [Value.at?, List.foldlM_append, ← Value.at?, hat]
    simpa using hu
  · exact .inr ⟨steps, step, s.value, rfl, hat, h⟩

end Schema

/-! ### Structural errors -/

theorem Settings.isStructural_of_runConstraints {settings : Settings} {path : Path}
    {ctx : Eval.Context} {tag : Option Tag} {ks : List Constraint} {e : ValidationError}
    (h : settings.runConstraints path ctx tag ks = .error e) : e.isStructural = false := by
  obtain ⟨_, _, _, -, -, -, hb⟩ := runConstraints_eq_error.mp h
  cases hb <;> rfl

/-- How an error names a value that a type refuses. -/
def FieldType.refusedText (type : FieldType) (v : Value) : String :=
  match type with
  | .enum _ => v.text
  | _ => v.typeName

namespace Validation

/-- A structural error at a spot: the value lies too deep, is of no alternative of its type, or is
no variant of its enumeration; or a key of the map or a field of the object is refused, which is
reported one step further on. -/
inductive Misfit (w : Validation) (path : Path) (s : Spot) : ValidationError → Prop where
  | deep (h : w.settings.maxDepth < path.depth) :
      Misfit w path s (.depthExceeded path w.settings.maxDepth)
  | shape {type} (type_eq : s.type? = some type) (refused : type.select? s.value = none) :
      Misfit w path s (.typeMismatch path type.text (type.refusedText s.value))
  | variant {name variant} (live_eq : s.live? = some (.enum name))
      (value_eq : s.value = .member name variant) (undeclared : w.isVariant name variant = false) :
      Misfit w path s (.typeMismatch path name s.value.text)
  | key {key item entries k} (live_eq : s.live? = some (.map key item))
      (value_eq : s.value = .map entries) (mem : k ∈ Fields.names entries)
      (refused : w.acceptsKey key k = false) :
      Misfit w path s (.typeMismatch (path.push (.key k)) key.text ("key " ++ Text.quoted k))
  | field {c fields f} (class_eq : s.class? w.schema = some c)
      (value_eq : s.value = .object c.name fields) (mem : f ∈ c.fields)
      (absent : fieldValue? fields f = none) :
      Misfit w path s (.typeMismatch (path.push (.field f.name)) f.type.text "missing field")

/-- Steps lead from a spot to a misfit, by the path that the error tells. -/
def LeadsToMisfit (w : Validation) (e : ValidationError) (path : Path) (s : Spot) : Prop :=
  ∃ steps last, steps.foldlM w.schema.inward? s = some last ∧
    Misfit w ⟨path.root, path.steps ++ steps⟩ last e

variable {w : Validation} {path : Path} {type a : FieldType} {v : Value} {s next : Spot}
  {step : Step} {e : ValidationError}

theorem LeadsToMisfit.here (h : Misfit w path s e) : LeadsToMisfit w e path s :=
  ⟨[], s, rfl, by rwa [List.append_nil]⟩

theorem LeadsToMisfit.inside (hs : w.schema.inward? s step = some next)
    (h : LeadsToMisfit w e (path.push step) next) : LeadsToMisfit w e path s := by
  obtain ⟨steps, last, hl, hm⟩ := h
  refine ⟨step :: steps, last, ?_, by simpa [Path.push] using hm⟩
  rw [List.foldlM_cons, hs]
  exact hl

/-! ### One place -/

theorem misfit_of_enter (ht : s.type? = some type) (h : w.enter path type s.value = .error e) :
    Misfit w path s e := by
  simp only [enter, bind_eq_error] at h
  rcases h with h | ⟨_, -, h⟩
  · simp only [checkDepth] at h
    split at h <;> cases h
    next hd => exact .deep hd
  · cases hn : type.tag? with
    | some tag =>
      rw [alternative_of_tag (by simp [hn])] at h
      cases h
    | none =>
      rw [alternative_of_choice hn] at h
      split at h <;> cases h
      next hs =>
        have hr : type.refusedText s.value = s.value.typeName := by
          cases type <;> first | rfl | cases hn
        exact hr ▸ .shape ht hs

/-- A type whose alternative refuses the value has that alternative only, so it refuses it too. -/
theorem select?_eq_none_of_enter (h : w.enter path type v = .ok a) (ha : a.admits v = false) :
    a = type ∧ type.select? v = none := by
  rcases eq_or_select?_of_enter h with ⟨ht, rfl⟩ | hs
  · refine ⟨rfl, Option.eq_none_iff_forall_ne_some.mpr fun b hb => ?_⟩
    obtain rfl := FieldType.eq_of_select? ht hb
    simp [(FieldType.select?_spec hb).2] at ha
  · simp [(FieldType.select?_spec hs).2] at ha

/-- A value that is refused where it is not looked into is named as one that the alternative
refuses. -/
theorem leaf_eq_typeMismatch (h : w.leaf path type v = .error e) (hp : e.path?.isSome) :
    e = .typeMismatch path type.text (type.refusedText v) := by
  cases type with
  | enum name =>
    cases v with
    | member enumName variant =>
      simp only [leaf, mismatch] at h
      split at h <;> cases h
      rfl
    | _ =>
      cases h
      rfl
  | «class» name =>
    simp only [leaf, mismatch] at h
    split at h <;> cases h
    · cases hp
    · rfl
  | list item | map key item =>
    cases h
    rfl
  | _ =>
    simp only [leaf, mismatch] at h
    split at h <;> cases h
    rfl

theorem misfit_of_leaf (ht : s.type? = some type) (he : w.enter path type s.value = .ok a)
    (ha : a.admits s.value = false) (h : w.leaf path a s.value = .error e) (hp : e.path?.isSome) :
    Misfit w path s e := by
  obtain ⟨rfl, hs⟩ := select?_eq_none_of_enter he ha
  rw [leaf_eq_typeMismatch h hp]
  exact .shape ht hs

/-- What has no parts and is admitted is refused only if it is no variant. -/
theorem exists_undeclared_of_leaf (hl : v.list? = none) (hm : v.map? = none)
    (ho : v.object? = none) (ha : type.admits v = true) (h : w.leaf path type v = .error e) :
    ∃ name variant, type = .enum name ∧ v = .member name variant ∧
      w.isVariant name variant = false := by
  have ht : type.tag?.isSome := by
    cases hn : type.tag? <;> simp [FieldType.admits, hn] at ha ⊢
  have hno : ¬ w.schema.Scalar type v := by
    intro hs
    rw [(leaf_eq_ok ht).mpr ⟨hs, rfl⟩] at h
    cases h
  cases v with
  | list => cases hl
  | map => cases hm
  | object => cases ho
  | member enumName variant =>
    obtain rfl : type = .enum enumName := by
      cases type <;> simp_all [FieldType.admits, FieldType.tag?, Value.tag]
    refine ⟨enumName, variant, rfl, rfl, Bool.eq_false_iff.mpr fun hv => hno ?_⟩
    obtain ⟨enum, he, hv⟩ := isVariant_iff.mp hv
    exact .member he hv
  | _ =>
    cases type <;> first
      | exact absurd (by constructor) hno
      | simp [FieldType.admits, FieldType.tag?, Value.tag] at ha

theorem misfit_of_scalar (ht : s.type? = some type) (hl : s.value.list? = none)
    (hm : s.value.map? = none) (ho : s.value.object? = none)
    (he : w.enter path type s.value = .ok a) (h : w.leaf path a s.value = .error e)
    (hp : e.path?.isSome) : Misfit w path s e := by
  cases ha : a.admits s.value with
  | false => exact misfit_of_leaf ht he ha h hp
  | true =>
    have hlive : s.live? = some a := by
      rw [Spot.live?, ht, Option.bind_some, select?_of_enter he ha]
    obtain ⟨name, variant, rfl, hv, hn⟩ := exists_undeclared_of_leaf hl hm ho ha h
    rw [leaf_eq_typeMismatch h hp]
    exact .variant hlive hv hn

/-! ### Layers -/

theorem leadsToMisfit_of_visitObject {c : OrderedClass} {fields : List (String × Value)}
    (hc : c.Complete) (hcls : w.schema.class? c.name = some c)
    (hl : s.live? = some (.class c.name)) (hv : s.value = .object c.name fields)
    (hk : e.isStructural = true)
    (ih : ∀ f ∈ c.fields, ∀ u, fieldValue? fields f = some u → ∀ holder?,
      visit w u (path.push (.field f.name)) f.type = .error e →
        LeadsToMisfit w e (path.push (.field f.name)) ⟨some f.type, u, holder?⟩)
    (h : w.visitObject path c fields (visits w fields) = .error e) :
    LeadsToMisfit w e path s := by
  simp only [visitObject, bind_eq_error, pure_ne_error, and_false, exists_false, or_false] at h
  rcases h with h | ⟨_, -, h⟩
  · obtain ⟨before, f, after, ho, -, hf⟩ := exists_of_mapM_error h
    have hmem : f ∈ c.fields := hc.mem_fieldsInOrder.mp (by simp [ho])
    rcases exists_of_visitField_error ⟨path, c, fields⟩ hf with ⟨hu, rfl⟩ | ⟨u, hu, hfail⟩
    · exact .here (.field (class?_of_live? hl hcls) hv hmem hu)
    · rcases hfail with hvisit | ⟨_, -, hrun⟩
      · exact .inside (inward?_declared hc hcls hl hv hmem hu) (ih f hmem u hu _ hvisit)
      · simp [Settings.isStructural_of_runConstraints hrun] at hk
  · simp [Settings.isStructural_of_runConstraints h] at hk

/-! ### Values -/

theorem refuses_list {items : List Value} (h : ∀ item, a = .list item → False) :
    a.admits (.list items) = false := by
  cases a <;> first | rfl | exact (h _ rfl).elim

theorem refuses_map {entries : List (String × Value)} (h : ∀ key item, a = .map key item → False) :
    a.admits (.map entries) = false := by
  cases a <;> first | rfl | exact (h _ _ rfl).elim

theorem refuses_object {name : String} {fields : List (String × Value)}
    (h : a ≠ .class name) : a.admits (.object name fields) = false := by
  cases a <;> simp_all [FieldType.admits, FieldType.tag?, Value.tag]

/-- Wherever a visit ends with a structural error that has a path, steps lead to the misfit. -/
theorem leadsToMisfit_of_visit (hw : w.schema.Complete) (hwf : v.WellFormed)
    (hk : e.isStructural = true) (hp : e.path?.isSome) (holder? : Option Holder)
    (h : visit w v path type = .error e) : LeadsToMisfit w e path ⟨some type, v, holder?⟩ := by
  induction v using Value.induction_parts_null generalizing path type holder? with
  | h v ih hnull =>
    cases v with
    | list items =>
      rw [visit, bind_eq_error] at h
      rcases h with h | ⟨a, ha, h⟩
      · exact .here (misfit_of_enter rfl h)
      split at h
      next item =>
        have hl := select?_of_enter ha rfl
        simp only [bind_eq_error, pure_ne_error, and_false, exists_false, or_false] at h
        obtain ⟨j, u, hj, hu, -⟩ := exists_of_visitItems_error h
        rw [Nat.zero_add] at hu
        have hs : w.schema.inward? ⟨some type, .list items, holder?⟩ (.index j) =
            some ⟨some item, u, none⟩ := by
          simp [Schema.inward?, Spot.live?, hl, Value.child?, hj]
        have hmem : u ∈ (Value.list items).parts := List.mem_of_getElem? hj
        exact .inside hs (ih u hmem (hwf.part hmem) none hu)
      next hne => exact .here (misfit_of_leaf rfl ha (refuses_list hne) h hp)
    | map entries =>
      rw [visit, bind_eq_error] at h
      rcases h with h | ⟨a, ha, h⟩
      · exact .here (misfit_of_enter rfl h)
      split at h
      next key item =>
        have hl := select?_of_enter ha rfl
        simp only [bind_eq_error, pure_ne_error, and_false, exists_false, or_false] at h
        obtain ⟨before, k, u, after, hentries, -, h⟩ := exists_of_visitEntries_error h
        have hm : (k, u) ∈ entries := by simp [hentries]
        rcases h with hu | ⟨hr, rfl⟩
        · have hs : w.schema.inward? ⟨some type, .map entries, holder?⟩ (.key k) =
              some ⟨some item, u, none⟩ := by
            simp [Schema.inward?, Spot.live?, hl, Value.child?,
              Fields.find?_of_mem hwf.1.nodup hm]
          have hmem : u ∈ (Value.map entries).parts := List.mem_map_of_mem hm
          exact .inside hs (ih u hmem (hwf.part hmem) none hu)
        · exact .here (.key hl rfl (List.mem_map_of_mem hm) hr)
      next hne => exact .here (misfit_of_leaf rfl ha (refuses_map hne) h hp)
    | object name fields =>
      rw [visit, bind_eq_error] at h
      rcases h with h | ⟨a, ha, h⟩
      · exact .here (misfit_of_enter rfl h)
      split at h
      next declared =>
        split at h
        next =>
          cases h
          cases hp
        next c hc =>
          obtain ⟨hm, rfl⟩ := Schema.mem_of_class? hc
          split at h
          next hn =>
            subst hn
            have hl := select?_of_enter ha (FieldType.admits_of_tag rfl)
            refine leadsToMisfit_of_visitObject (hw c hm) hc hl rfl hk
              (fun f _ u hu holder? he => ?_) h
            rcases fieldValue?_mem hu with hpart | rfl
            · exact ih u hpart (hwf.part hpart) holder? he
            · exact hnull (by simp) trivial holder? he
          next hn =>
            cases h
            obtain ⟨rfl, hs⟩ := select?_eq_none_of_enter ha
              (refuses_object fun hc => hn (FieldType.class.inj hc).symm)
            exact .here (@Misfit.shape w path _ (.class c.name) rfl hs)
      next hne => exact .here (misfit_of_leaf rfl ha (refuses_object (hne _)) h hp)
    | _ =>
      simp only [visit, bind_eq_error] at h
      rcases h with h | ⟨a, ha, h⟩
      · exact .here (misfit_of_enter rfl h)
      · exact .here (misfit_of_scalar rfl rfl rfl rfl ha h hp)

end Validation

namespace Schema

variable {schema : Schema} {settings : Settings} {root : Value} {type : FieldType} {v : Value}
  {s : Spot} {steps : List Step} {e : ValidationError} {path : Path}

theorem locates_of_misfit (hs : schema.spot? type v steps = some s)
    (h : Misfit ⟨schema, settings, root⟩ ⟨type.rootName, steps⟩ s e) (hp : e.path? = some path) :
    path.root = type.rootName ∧ schema.Locates v path.steps := by
  cases h with
  | deep | shape | variant =>
    cases hp
    exact ⟨rfl, locates_of_spot? hs⟩
  | key _ hv hm _ =>
    cases hp
    refine ⟨rfl, locates_append_of_spot? hs (by simp [hv]) (.inl ?_)⟩
    rw [hv]
    exact Fields.find?_isSome_iff.mpr hm
  | @field c fields f hc hv hf ha =>
    cases hp
    have hn : Fields.find? f.name fields = none := by
      cases hx : Fields.find? f.name fields <;> simp [fieldValue?, hx] at ha ⊢
    have hcls : schema.class? c.name = some c := by
      rwa [Spot.class?, liveTag_of_class? hc] at hc
    exact ⟨rfl, locates_append_of_spot? hs (by simp [hv])
      (.inr ⟨c, fields, f, hv, hcls, hf, rfl, hn⟩)⟩

/-- The path of an error starts at the class or at the root, and its steps lead to a part of the
value or, at last, to a declared field that an object lacks. The error is not just somewhere: a
constraint is broken or something does not fit where the steps lead, as the error says. -/
theorem Built.path_locates_error (h : schema.Built) (hv : v.WellFormed)
    (he : schema.validate settings type v = .error e) (hp : e.path? = some path) :
    path.root = type.rootName ∧ schema.Locates v path.steps ∧
      ∃ steps s, schema.spot? type v steps = some s ∧
        (BreaksAt ⟨schema, settings, v⟩ ⟨type.rootName, steps⟩ s e ∨
          Misfit ⟨schema, settings, v⟩ ⟨type.rootName, steps⟩ s e) := by
  cases hk : e.isStructural with
  | false =>
    have hleads : Leads ⟨schema, settings, v⟩ e ⟨type.rootName, []⟩ ⟨some type, v, none⟩ :=
      leads_of_visit h.complete hv hk rfl rfl he
    obtain ⟨steps, s, hfound, hs, hb, -⟩ := hleads.exists_steps
    obtain rfl := Option.some.inj (hp.symm.trans hfound)
    exact ⟨rfl, locates_of_spot? hs, steps, s, hs, .inl hb⟩
  | true =>
    have hleads : LeadsToMisfit ⟨schema, settings, v⟩ e ⟨type.rootName, []⟩ ⟨some type, v, none⟩ :=
      leadsToMisfit_of_visit h.complete hv hk (by simp [hp]) none he
    obtain ⟨steps, s, hs, hm⟩ := hleads
    obtain ⟨hr, hl⟩ := locates_of_misfit hs hm hp
    exact ⟨hr, hl, steps, s, hs, .inr hm⟩

/-- The second item of a list breaks an assertion on a field that it lacks. -/
theorem exists_path_locates_error :
    let item : ClassDecl :=
      ⟨"Item", [⟨"note", .optional .string, [⟨.assert, "noted", "this != null", none⟩]⟩], []⟩
    let order : ClassDecl := ⟨"Order", [⟨"items", .list (.class "Item"), []⟩], []⟩
    let v : Value := .object "Order" [("items", .list [
      .object "Item" [("note", .string "fragile")], .object "Item" []])]
    let path : Path := ⟨"Order", [.field "items", .index 1, .field "note"]⟩
    ∃ (schema : Schema) (e : ValidationError) (u : Value),
      Schema.ofDeclarations [.class item, .class order] = .ok schema ∧ schema.Built ∧
      v.WellFormed ∧ schema.validate (Settings.mk 128 false true) (.class "Order") v = .error e ∧
      e.path? = some path ∧ v.at? path.steps = none ∧
      v.at? [.field "items", .index 1] = some u ∧ schema.Lacks u (.field "note") := by
  intro item order v path
  have hwf : v.WellFormed := by
    simp [v, Value.WellFormed, Value.FieldsWellFormed, Value.AllWellFormed, Fields.names]
  have hs : (Schema.ofDeclarations [.class item, .class order]).toOption.any (fun schema =>
      failsWith (fun e => decide (e.path? = some path))
        (schema.validate (Settings.mk 128 false true) (.class "Order") v)) = true := by
    decide +kernel
  obtain ⟨schema, hs, hfails⟩ := toOption_any_iff.mp hs
  obtain ⟨e, he, hp⟩ := failsWith_iff.mp hfails
  have hb := Schema.built_of_declarations hs
  obtain ⟨-, hl, -⟩ := hb.path_locates_error hwf he (of_decide_eq_true hp)
  rcases hl with ⟨u, hu⟩ | ⟨before, step, u, hsteps, hu, hl⟩
  · cases hu
  · have hsteps : [Step.field "items", .index 1] ++ [.field "note"] = before ++ [step] := hsteps
    obtain ⟨rfl, hstep⟩ := List.append_inj' hsteps rfl
    obtain rfl := List.singleton_inj.mp hstep
    exact ⟨schema, e, u, hs, hb, hwf, he, of_decide_eq_true hp, rfl, hu, hl⟩

end Schema

end RecordCheck

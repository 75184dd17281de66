import Mathlib.Data.List.Infix
import RecordCheck.Proofs.Validation.Spots
import RecordCheck.Validation.Address

/-! Following steps in a tree. A step looks past the checks around a node once, so it does not get
through checks on a field and checks on the object that it holds. -/

namespace RecordCheck

open Validation

namespace Validated

theorem child?_eq_of_wrappers_le_one {t : Validated} (h : t.wrappers.length ≤ 1) (step : Step) :
    t.child? step = t.bare.child? step := by
  cases t with
  | checked node checks =>
    cases node with
    | checked inside more =>
      simp only [wrappers, List.length_cons] at h
      omega
    | _ => cases step <;> simp only [child?, inner, bare]
  | _ => simp only [bare]

theorem child?_eq_none_of_wrappers {t : Validated} (h : 1 < t.wrappers.length) (step : Step) :
    t.child? step = none := by
  cases t with
  | checked node checks =>
    cases node with
    | checked inside more => cases step <;> simp only [child?, inner]
    | _ => simp [wrappers] at h
  | _ => simp [wrappers] at h

theorem wrappers_le_one_of_child? {t u : Validated} {step : Step} (h : t.child? step = some u) :
    t.wrappers.length ≤ 1 := by
  by_contra hlt
  rw [child?_eq_none_of_wrappers (Nat.lt_of_not_le hlt)] at h
  cases h

/-- A node that is found stands where the steps lead. -/
theorem reach?_of_at? {t node : Validated} {steps : List Step} (h : t.at? steps = some node) :
    t.reach? steps = some node := by
  induction steps generalizing t with
  | nil => exact h
  | cons step rest ih =>
    rw [at?, List.foldlM_cons] at h
    obtain ⟨mid, hm, hr⟩ := Option.bind_eq_some_iff.mp h
    rw [child?_eq_of_wrappers_le_one (wrappers_le_one_of_child? hm)] at hm
    rw [reach?, List.foldlM_cons, hm]
    exact ih hr

/-- The node where steps lead is found exactly if no node on the way, the last one aside, has
checks around it twice. -/
theorem at?_eq_some_iff {t node : Validated} {steps : List Step}
    (h : t.reach? steps = some node) :
    t.at? steps = some node ↔ ∀ before step after, steps = before ++ step :: after →
      ∀ m, t.reach? before = some m → m.wrappers.length ≤ 1 := by
  induction steps generalizing t with
  | nil =>
    refine iff_of_true h fun before step after he => ?_
    simp at he
  | cons step rest ih =>
    rw [reach?, List.foldlM_cons] at h
    obtain ⟨mid, hm, hr⟩ := Option.bind_eq_some_iff.mp h
    have hcons (before : List Step) : t.reach? (step :: before) = mid.reach? before := by
      rw [reach?, List.foldlM_cons, hm]
      rfl
    constructor
    · intro hat before s after he m hb
      rw [at?, List.foldlM_cons] at hat
      obtain ⟨next, hn, hat⟩ := Option.bind_eq_some_iff.mp hat
      have hle := wrappers_le_one_of_child? hn
      -- The node before the first step is the tree itself, and those before the others are on the
      -- way from where the first one leads.
      cases before with
      | nil =>
        cases hb
        exact hle
      | cons b before =>
        rw [List.cons_append, List.cons.injEq] at he
        obtain ⟨rfl, he⟩ := he
        rw [child?_eq_of_wrappers_le_one hle, hm, Option.some.injEq] at hn
        subst hn
        rw [hcons] at hb
        exact (ih hr).mp hat before s after he m hb
    · intro hall
      have hle := hall [] step rest rfl t rfl
      rw [at?, List.foldlM_cons, child?_eq_of_wrappers_le_one hle, hm]
      refine (ih hr).mpr fun before s after he m hb => ?_
      exact hall (step :: before) s after (by rw [he, List.cons_append]) m (by rw [hcons, hb])

end Validated

/-- The spot is that of a declared field with checks, whose value is an object of a class with
checks. -/
def Spot.isWrappedTwice (schema : Schema) (s : Spot) : Bool :=
  s.field?.any Field.hasChecks && (s.class? schema).any fun c => c.hasChecks

namespace Validation

variable {w : Validation} {path : Path} {type : FieldType} {v u : Value} {tree : Validated}

theorem isSome_fieldChecks? (w : Validation) (s : Spot) :
    (w.fieldChecks? s).isSome = s.field?.any Field.hasChecks := by
  obtain ⟨type?, v, holder?⟩ := s
  cases holder? with
  | none => rfl
  | some h =>
    simp only [fieldChecks?, Spot.field?, Option.bind_some, Option.map_some, Option.any_some]
    by_cases hk : h.field.hasChecks = true <;> simp [hk, ← Field.hasChecks_iff]

theorem isSome_objectChecks? (w : Validation) (s : Spot) :
    (w.objectChecks? s).isSome = (s.class? w.schema).any fun c => c.hasChecks := by
  cases hc : s.class? w.schema with
  | none => simp [objectChecks?, hc]
  | some c =>
    obtain ⟨fields, hv⟩ := object_of_class? hc
    simp only [objectChecks?, hc, hv, Value.object?, Option.bind_eq_bind, Option.bind_some,
      Option.any_some]
    by_cases hk : c.hasChecks = true <;> simp [hk, ← Class.hasChecks_iff]

theorem wrappers_le_one_iff (w : Validation) (s : Spot) :
    (w.wrappers s).length ≤ 1 ↔ s.isWrappedTwice w.schema = false := by
  rw [wrappers, List.length_append, Spot.isWrappedTwice, ← isSome_fieldChecks? w,
    ← isSome_objectChecks? w]
  cases w.fieldChecks? s <;> cases w.objectChecks? s <;> simp

/-- A step that leads to a part of a value leads to a spot of that part. -/
theorem Derivation.inward?_of_child? (h : Derivation w path type v tree) {step : Step}
    (holder? : Option Holder) (hu : v.child? step = some u) :
    ∃ s, w.schema.inward? ⟨some type, v, holder?⟩ step = some s ∧ s.value = u := by
  induction h with
  | alternative _ hs _ ih =>
    rw [Schema.inward?_of_select? hs]
    exact ih hu
  | scalar _ hs => cases hs <;> cases step <;> cases hu
  | list =>
    rw [Schema.inward?_list, hu]
    exact ⟨_, rfl, rfl⟩
  | map =>
    rw [Schema.inward?_map, hu]
    exact ⟨_, rfl, rfl⟩
  | @object path name c fields values nodes hd hc =>
    cases step with
    | field n =>
      have hfind : Fields.find? n fields = some u := hu
      rw [Schema.inward?_field hc]
      cases hn : c.field? n with
      | some f =>
        obtain ⟨-, rfl⟩ := Class.mem_of_field? hn
        have hv : fieldValue? fields f = some u := by simp only [fieldValue?, hfind]
        simp only [hv]
        exact ⟨_, rfl, rfl⟩
      | none =>
        simp only [hfind]
        exact ⟨_, rfl, rfl⟩
    | _ => cases hu

theorem Stands.inward?_of_child? {s : Spot} {t : Validated} {step : Step} (h : Stands w s t)
    (hu : s.value.child? step = some u) :
    ∃ next, w.schema.inward? s step = some next ∧ next.value = u := by
  cases h with
  | value h => exact h.inward?_of_child? none hu
  | field h => exact h.inward?_of_child? _ hu
  | @plain v =>
    rw [Schema.inward?_plain, hu]
    exact ⟨_, rfl, rfl⟩

/-- Steps that lead to a part of a value lead to a spot of that part. -/
theorem Stands.spot_of_at? {s : Spot} {t : Validated} {steps : List Step} (h : Stands w s t)
    (hu : s.value.at? steps = some u) :
    ∃ last, steps.foldlM w.schema.inward? s = some last ∧ last.value = u := by
  induction steps generalizing s t with
  | nil =>
    cases hu
    exact ⟨s, rfl, rfl⟩
  | cons step rest ih =>
    rw [Value.at?, List.foldlM_cons] at hu
    obtain ⟨mid, hm, hr⟩ := Option.bind_eq_some_iff.mp hu
    obtain ⟨next, hn, rfl⟩ := h.inward?_of_child? hm
    obtain ⟨node, -, hst⟩ := Results.exists_of_rel_left (h.inward? step) hn
    rw [List.foldlM_cons, hn]
    exact ih hst hr

end Validation

namespace Schema

variable {schema : Schema} {settings : Settings} {type : FieldType} {v u : Value}
  {tree : Validated}

/-- Every part of the value has its node in the tree, with the value that the part becomes. Steps
find it exactly if none of them goes on from a declared field with checks that holds an object of a
class with checks; else they find nothing. -/
theorem Built.at?_eq_some_iff_not_wrapped_twice (h : schema.Built) (hv : v.WellFormed)
    (ht : schema.validate settings type v = .ok tree) {steps : List Step}
    (hu : v.at? steps = some u) :
    ∃ s node, schema.spot? type v steps = some s ∧ s.value = u ∧
      tree.reach? steps = some node ∧ node.toValue = s.form schema ∧
      (tree.at? steps = some node ↔ ∀ before step after, steps = before ++ step :: after →
        ∀ p, schema.spot? type v before = some p → p.isWrappedTwice schema = false) ∧
      ∀ found, tree.at? steps = some found → found = node := by
  have hd : Derivation ⟨schema, settings, v⟩ ⟨type.rootName, []⟩ type v tree :=
    derivation_of_visit h.complete ht
  have hst : Stands ⟨schema, settings, v⟩ ⟨some type, v, none⟩ tree := .value hd
  obtain ⟨s, hs, rfl⟩ := hst.spot_of_at? hu
  have reach (before : List Step) : Option.Rel (Stands ⟨schema, settings, v⟩)
      (schema.spot? type v before) (tree.reach? before) := hst.reach? before
  obtain ⟨node, hn, hnode⟩ := Results.exists_of_rel_left (reach steps) hs
  refine ⟨s, node, hs, rfl, hn, hnode.toValue_eq h.complete (hv.at? hu), ?_, ?_⟩
  · rw [Validated.at?_eq_some_iff hn]
    refine forall₄_congr fun before step after _ => ?_
    constructor
    · intro hall p hp
      obtain ⟨m, hm, hpm⟩ := Results.exists_of_rel_left (reach before) hp
      exact (wrappers_le_one_iff _ p).mp (hpm.wrappers_eq ▸ hall m hm)
    · intro hall m hm
      obtain ⟨p, hp, hpm⟩ := Results.exists_of_rel_right (reach before) hm
      exact hpm.wrappers_eq ▸ (wrappers_le_one_iff _ p).mpr (hall p hp)
  · intro found hf
    have hfound := Validated.reach?_of_at? hf
    rw [hn] at hfound
    exact (Option.some.inj hfound).symm

/-- A list with checks on it, and of objects with checks on them: the steps lead through both. -/
theorem exists_at?_eq_some :
    let point : ClassDecl := ⟨"Point", [⟨"x", .int, [⟨.check, "small", "this < 9", none⟩]⟩],
      [⟨.check, "right", "this.x > 0", none⟩]⟩
    let line : ClassDecl := ⟨"Line", [⟨"points", .list (.class "Point"),
      [⟨.check, "some", "this|length > 0", none⟩]⟩], []⟩
    let v : Value := .object "Line" [("points", .list [.object "Point" [("x", .int 3)]])]
    let steps : List Step := [.field "points", .index 0, .field "x"]
    ∃ (schema : Schema) (tree node : Validated),
      Schema.ofDeclarations [.class point, .class line] = .ok schema ∧ schema.Built ∧
      v.WellFormed ∧ schema.validate (Settings.mk 128 false true) (.class "Line") v = .ok tree ∧
      v.at? steps = some (.int 3) ∧ tree.at? steps = some node ∧ node.toValue = .int 3 := by
  intro point line v steps
  have hv : v.WellFormed := by
    simp [v, Value.WellFormed, Value.FieldsWellFormed, Value.AllWellFormed, Fields.names]
  have hu : v.at? steps = some (.int 3) := by
    simp [v, steps, Value.at?, Value.child?, Fields.find?]
  have hs : (Schema.ofDeclarations [.class point, .class line]).toOption.any (fun schema =>
      (schema.validate (Settings.mk 128 false true) (.class "Line") v).isOk &&
        steps.inits.all fun before =>
          (schema.spot? (.class "Line") v before).all fun p => !p.isWrappedTwice schema) =
      true := by
    decide +kernel
  obtain ⟨schema, hs, hall⟩ := Results.toOption_any_iff.mp hs
  obtain ⟨hok, hw⟩ := Bool.and_eq_true_iff.mp hall
  obtain ⟨tree, ht⟩ := Results.isOk_iff.mp hok
  have hb := Schema.built_of_declarations hs
  obtain ⟨s, node, -, hsv, -, hn, hat, -⟩ :=
    hb.at?_eq_some_iff_not_wrapped_twice hv ht hu
  refine ⟨schema, tree, node, hs, hb, hv, ht, hu, hat.mpr ?_, ?_⟩
  · intro before step after he p hp
    have hm := List.all_eq_true.mp hw before ((List.mem_inits _ _).mpr ⟨step :: after, he.symm⟩)
    simpa [hp] using hm
  · rw [hn, Spot.form, hsv]
    cases s.type? <;> simp [reorder]

/-- An object with a check on it, in a field with a check: the field of the object is not found. -/
theorem exists_at?_eq_none :
    let inner : ClassDecl := ⟨"Inner", [⟨"x", .int, []⟩],
      [⟨.check, "positive", "this.x > 0", none⟩]⟩
    let outer : ClassDecl := ⟨"Outer", [⟨"inner", .class "Inner",
      [⟨.check, "present", "this != null", none⟩]⟩], []⟩
    let v : Value := .object "Outer" [("inner", .object "Inner" [("x", .int 1)])]
    let steps : List Step := [.field "inner", .field "x"]
    ∃ (schema : Schema) (tree : Validated),
      Schema.ofDeclarations [.class inner, .class outer] = .ok schema ∧ schema.Built ∧
      v.WellFormed ∧ schema.validate (Settings.mk 128 false true) (.class "Outer") v = .ok tree ∧
      v.at? steps = some (.int 1) ∧ tree.at? steps = none := by
  intro inner outer v steps
  have hv : v.WellFormed := by
    simp [v, Value.WellFormed, Value.FieldsWellFormed, Fields.names]
  have hu : v.at? steps = some (.int 1) := by
    simp [v, steps, Value.at?, Value.child?, Fields.find?]
  have hs : (Schema.ofDeclarations [.class inner, .class outer]).toOption.any (fun schema =>
      (schema.validate (Settings.mk 128 false true) (.class "Outer") v).toOption.any fun tree =>
        (tree.at? steps).isNone) = true := by
    decide +kernel
  obtain ⟨schema, hs, hvalid⟩ := Results.toOption_any_iff.mp hs
  obtain ⟨tree, ht, hnone⟩ := Results.toOption_any_iff.mp hvalid
  exact ⟨schema, tree, hs, Schema.built_of_declarations hs, hv, ht, hu,
    Option.isNone_iff_eq_none.mp hnone⟩

end Schema

end RecordCheck

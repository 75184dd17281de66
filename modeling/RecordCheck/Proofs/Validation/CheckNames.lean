import RecordCheck.Proofs.Validation.Acceptance

/-! The names of the checks at one place of a tree. -/

namespace RecordCheck

open Validation

/-- A check that is bound to no alternative and one that is bound to the given alternative have the
same message. -/
def Ambiguous (tag : Option Tag) (constraints : List Constraint) : Prop :=
  ∃ k ∈ constraints, ∃ l ∈ constraints, k.isCheck = true ∧ l.isCheck = true ∧
    k.message = l.message ∧ k.variant = none ∧ l.variant.isSome = true ∧ l.variant = tag

theorem not_ambiguous_of_nodup {tag : Option Tag} {constraints : List Constraint}
    (h : ((constraints.filter Constraint.isCheck).map (·.message)).Nodup) :
    ¬ Ambiguous tag constraints := by
  intro hx
  obtain ⟨k, hk, l, hl, hck, hcl, hm, hnone, hsome, -⟩ := hx
  have hkl : k = l := List.inj_on_of_nodup_map h (List.mem_filter.mpr ⟨hk, hck⟩)
    (List.mem_filter.mpr ⟨hl, hcl⟩) hm
  rw [← hkl, hnone] at hsome
  cases hsome

theorem Constraint.appliesIn_iff {c : Constraint} {tag : Option Tag} :
    c.appliesIn tag = true ↔ c.variant = none ∨ c.variant.isSome = true ∧ c.variant = tag := by
  obtain ⟨kind, message, formula, variant⟩ := c
  cases tag <;> cases variant <;> simp [appliesIn, appliesTo]

theorem mem_checksIn {tag : Option Tag} {constraints : List Constraint} {k : Constraint} :
    k ∈ checksIn tag constraints ↔
      k ∈ constraints ∧ k.isCheck = true ∧
        (k.variant = none ∨ k.variant.isSome = true ∧ k.variant = tag) := by
  simp only [checksIn, List.mem_filter, Constraint.appliesIn_iff]
  tauto

/-- Where no two checks share both message and binding, the messages of those that apply are
distinct unless they are ambiguous. -/
theorem nodup_messages_iff {tag : Option Tag} {constraints : List Constraint}
    (h : (checkKeys constraints).Nodup) :
    ((checksIn tag constraints).map (·.message)).Nodup ↔ ¬ Ambiguous tag constraints := by
  constructor
  · rintro hn ⟨k, hk, l, hl, hck, hcl, hm, hnone, hsome, htag⟩
    have hkl : k = l := List.inj_on_of_nodup_map hn
      (mem_checksIn.mpr ⟨hk, hck, .inl hnone⟩) (mem_checksIn.mpr ⟨hl, hcl, .inr ⟨hsome, htag⟩⟩) hm
    rw [← hkl, hnone] at hsome
    cases hsome
  · intro ha
    have hsub : (checksIn tag constraints).Sublist (constraints.filter Constraint.isCheck) :=
      List.filter_sublist.filter _
    have hnodup : (checksIn tag constraints).Nodup := (List.Nodup.of_map _ h).sublist hsub
    refine hnodup.map_on fun k hk l hl hm => ?_
    have same (hv : k.variant = l.variant) : k = l :=
      List.inj_on_of_nodup_map h (hsub.subset hk) (hsub.subset hl) (Prod.ext hm hv)
    obtain ⟨hk, hck, hvk⟩ := mem_checksIn.mp hk
    obtain ⟨hl, hcl, hvl⟩ := mem_checksIn.mp hl
    rcases hvk with hvk | ⟨hsk, hvk⟩ <;> rcases hvl with hvl | ⟨hsl, hvl⟩
    · exact same (hvk.trans hvl.symm)
    · exact absurd ⟨k, hk, l, hl, hck, hcl, hm, hvk, hsl, hvl⟩ ha
    · exact absurd ⟨l, hl, k, hk, hcl, hck, hm.symm, hvl, hsk, hvk⟩ ha
    · exact same (hvk.trans hvl.symm)

/-- The constraints that are run on the way into a node, each time with the alternative that the
value lives in. -/
inductive Schema.Place (schema : Schema) (start : Node) : Option Tag → List Constraint → Prop where
  | field {d name c fields f v}
      (hr : schema.Reaches start ⟨d, .class name, .object name fields⟩)
      (hc : schema.class? name = some c) (hf : f ∈ c.fields) (hv : fieldValue? fields f = some v) :
      Place schema start (f.type.liveTag? v) f.constraints
  | object {d name c fields} (hr : schema.Reaches start ⟨d, .class name, .object name fields⟩)
      (hc : schema.class? name = some c) : Place schema start (some (.class name)) c.constraints

theorem Schema.Place.head {schema : Schema} {n m : Node} {tag : Option Tag}
    {constraints : List Constraint} (hp : schema.Part n m)
    (h : schema.Place m tag constraints) : schema.Place n tag constraints := by
  cases h with
  | field hr hc hf hv => exact .field (hr.head hp) hc hf hv
  | object hr hc => exact .object (hr.head hp) hc

theorem Schema.Place.checkKeys_nodup {schema : Schema} (hs : schema.Built) {start : Node}
    {tag : Option Tag} {constraints : List Constraint} (h : schema.Place start tag constraints) :
    (checkKeys constraints).Nodup := by
  cases h with
  | field _ hc hf _ => exact (hs.sound _ (Schema.mem_of_class? hc).1).field_checks _ hf
  | object _ hc => exact (hs.sound _ (Schema.mem_of_class? hc).1).own_checks

namespace Validation

variable {w : Validation} {path : Path} {type : FieldType} {v : Value} {tree : Validated}

/-- What a tree carries comes from a place on the way inwards. -/
theorem Derivation.place_of_carries {found : Checks} (h : Derivation w path type v tree)
    (hc : tree.Carries found) :
    ∃ tag ks, w.schema.Place ⟨path.depth, type, v⟩ tag ks ∧
      found.names = (checksIn tag ks).map (·.message) := by
  induction h with
  | alternative ht hs _ ih =>
    obtain ⟨tag, ks, hp, hn⟩ := ih hc
    exact ⟨tag, ks, hp.head (.alternative ht hs), hn⟩
  | scalar => cases hc
  | list _ _ ih =>
    cases hc with
    | item ht hc =>
      obtain ⟨i, rfl⟩ := List.mem_ofFn.mp ht
      obtain ⟨tag, ks, hp, hn⟩ := ih i hc
      rw [depth_push] at hp
      exact ⟨tag, ks, hp.head (.item (List.getElem_mem _)), hn⟩
  | map _ _ _ ih =>
    cases hc with
    | entry ht hc =>
      obtain ⟨i, he⟩ := List.mem_ofFn.mp ht
      obtain ⟨-, rfl⟩ := Prod.mk.inj he
      obtain ⟨tag, ks, hp, hn⟩ := ih i hc
      rw [depth_push] at hp
      exact ⟨tag, ks, hp.head (.entry (List.getElem_mem _)), hn⟩
  | object _ hclass hv _ _ _ ih =>
    obtain ⟨-, rfl⟩ := Schema.mem_of_class? hclass
    rcases carries_objectTree.mp hc with ⟨-, rfl⟩ | ⟨f, hf, ⟨-, rfl⟩ | hc⟩
    · exact ⟨_, _, .object .refl hclass, names_outcomes ..⟩
    · exact ⟨_, _, .field .refl hclass hf (hv f hf), names_outcomes ..⟩
    · obtain ⟨tag, ks, hp, hn⟩ := ih f hf hc
      rw [depth_push] at hp
      exact ⟨tag, ks, hp.head (.field hclass hf (hv f hf)), hn⟩

/-- Where checks are declared at a place, their outcomes are carried. -/
theorem Derivation.carries_of_place {tag : Option Tag} {ks : List Constraint}
    (h : Derivation w path type v tree) (hp : w.schema.Place ⟨path.depth, type, v⟩ tag ks)
    (hk : ks.any Constraint.isCheck = true) :
    ∃ found, tree.Carries found ∧ found.names = (checksIn tag ks).map (·.message) := by
  cases hp with
  | field hr hc hf hv =>
    obtain ⟨_, _, -, h, hsub⟩ := h.inside hr
    obtain ⟨values, nodes, hn, rfl⟩ := h.of_object hc
    have he := (hn _ hf).1
    rw [hv, Option.some.injEq] at he
    subst he
    exact ⟨_, hsub _ (carries_objectTree.mpr (.inr ⟨_, hf, .inl ⟨hk, rfl⟩⟩)), names_outcomes ..⟩
  | object hr hc =>
    obtain ⟨_, _, -, h, hsub⟩ := h.inside hr
    obtain ⟨values, nodes, -, rfl⟩ := h.of_object hc
    obtain ⟨-, rfl⟩ := Schema.mem_of_class? hc
    exact ⟨_, hsub _ (carries_objectTree.mpr (.inl ⟨hk, rfl⟩)), names_outcomes ..⟩

end Validation

/-! ### Outcomes as JSON -/

namespace Checks

theorem names_eq (checks : Checks) :
    Fields.names (checks.map fun result => (result.name, result.json)) = checks.names := by
  simp [Fields.names, names]

/-- Outcomes of distinct names have one member each. -/
theorem json_of_nodup {checks : Checks} (h : checks.names.Nodup) :
    checks.json = .object (checks.map fun result => (result.name, result.json)) := by
  rw [← names_eq] at h
  rw [json, Fields.ofList, Fields.insertAll_of_nodup (by simpa using h), List.nil_append]

theorem find?_json (checks : Checks) (name : String) :
    Fields.find? name (checks.map fun result => (result.name, result.json)) =
      (checks.get? name).map CheckResult.json := by
  induction checks with
  | nil => rfl
  | cons result rest ih =>
    simp only [List.map_cons, Fields.find?, get?, List.find?_cons] at ih ⊢
    by_cases hn : result.name = name
    · simp [hn]
    · simp only [hn, if_false, beq_eq_false_iff_ne.mpr hn, ih]

end Checks

namespace Schema

variable {schema : Schema} {settings : Settings} {type : FieldType} {v : Value} {tree : Validated}

/-- The outcomes that a tree carries have distinct names at each place exactly if at no place that
is met a check bound to the alternative of the value repeats the message of one bound to none. The
outcomes at a place are those of the checks that apply there. Each has a member of its own in JSON
exactly if their names are distinct, and then the member of a name is the outcome under it. -/
theorem Built.check_names_nodup_iff (h : schema.Built)
    (ht : schema.validate settings type v = .ok tree) :
    ((∀ checks, tree.Carries checks → checks.names.Nodup) ↔
      ∀ tag ks, schema.Place ⟨0, type, v⟩ tag ks → ¬ Ambiguous tag ks) ∧
    ∀ checks, tree.Carries checks →
      (∃ tag ks, schema.Place ⟨0, type, v⟩ tag ks ∧
        checks.names = (checksIn tag ks).map (·.message)) ∧
      ∃ members, checks.json = .object members ∧
        (checks.names.Nodup ↔ members.length = checks.length) ∧
        (checks.names.Nodup →
          ∀ name, Fields.find? name members = (checks.get? name).map CheckResult.json) := by
  have hd : Derivation ⟨schema, settings, v⟩ ⟨type.rootName, []⟩ type v tree :=
    derivation_of_visit h.complete ht
  refine ⟨⟨?_, ?_⟩, ?_⟩
  · intro hn tag ks hp ha
    have hk : ks.any Constraint.isCheck = true := by
      obtain ⟨k, hk, -, -, hck, -⟩ := ha
      exact List.any_eq_true.mpr ⟨k, hk, hck⟩
    obtain ⟨found, hc, he⟩ := hd.carries_of_place hp hk
    have hnodup := hn found hc
    rw [he, nodup_messages_iff (hp.checkKeys_nodup h)] at hnodup
    exact hnodup ha
  · intro hn checks hc
    obtain ⟨tag, ks, hp, he⟩ := hd.place_of_carries hc
    rw [he, nodup_messages_iff (Place.checkKeys_nodup h hp)]
    exact hn tag ks hp
  · intro checks hc
    refine ⟨hd.place_of_carries hc, _, rfl, ?_, ?_⟩
    · rw [← Checks.names_eq, Fields.nodup_iff_length_ofList, List.length_map]
    · intro hn name
      have hj := Checks.json_of_nodup hn
      rw [Checks.json, Json.object.injEq] at hj
      rw [hj, Checks.find?_json]

/-- Two checks of different messages that both apply to an integer. -/
theorem exists_check_names_nodup :
    let x : FieldDecl := ⟨"x", .optional .int,
      [⟨.check, "positive", "this > 0", none⟩, ⟨.check, "large", "this > 5", some .int⟩]⟩
    ∃ (schema : Schema) (tree : Validated),
      Schema.ofDeclarations [.class ⟨"T", [x], []⟩] = .ok schema ∧
      schema.validate (Settings.mk 128 false true) (.class "T") (.object "T" [("x", .int 1)]) =
        .ok tree ∧
      ∀ checks, tree.Carries checks → checks.names.Nodup := by
  intro x
  have hv : (Schema.ofDeclarations [.class ⟨"T", [x], []⟩]).toOption.any (fun schema =>
      (schema.validate (Settings.mk 128 false true) (.class "T")
        (.object "T" [("x", .int 1)])).isOk && schema.classes.all fun c =>
          decide ((c.constraints.filter Constraint.isCheck).map (·.message)).Nodup &&
            c.fields.all fun f =>
              decide ((f.constraints.filter Constraint.isCheck).map (·.message)).Nodup) =
      true := by
    decide +kernel
  obtain ⟨schema, hs, hall⟩ := Results.toOption_any_iff.mp hv
  simp only [Bool.and_eq_true, List.all_eq_true, decide_eq_true_eq] at hall
  obtain ⟨hok, hn⟩ := hall
  obtain ⟨tree, ht⟩ := Results.isOk_iff.mp hok
  refine ⟨schema, tree, hs, ht,
    ((Schema.built_of_declarations hs).check_names_nodup_iff ht).1.mpr fun tag ks hp => ?_⟩
  cases hp with
  | field _ hc hf _ =>
    exact not_ambiguous_of_nodup ((hn _ (Schema.mem_of_class? hc).1).2 _ hf)
  | object _ hc => exact not_ambiguous_of_nodup (hn _ (Schema.mem_of_class? hc).1).1

/-- Of two checks with one message both apply to an integer, if one is bound to it and the other is
not. The JSON has the outcome of the second under the message, and the first is found under it. -/
theorem exists_check_names_repeated :
    let x : FieldDecl := ⟨"x", .int,
      [⟨.check, "pos", "this > 0", none⟩, ⟨.check, "pos", "this > 5", some .int⟩]⟩
    ∃ (schema : Schema) (tree : Validated) (checks : Checks),
      Schema.ofDeclarations [.class ⟨"T", [x], []⟩] = .ok schema ∧ schema.Built ∧
      schema.validate (Settings.mk 128 false true) (.class "T") (.object "T" [("x", .int 1)]) =
        .ok tree ∧
      tree.Carries checks ∧ ¬ checks.names.Nodup ∧
      ∃ members, checks.json = .object members ∧ members.length = 1 ∧ checks.length = 2 ∧
        Fields.find? "pos" members ≠ (checks.get? "pos").map CheckResult.json := by
  intro x
  let outcomes : Checks := [⟨"pos", some "this > 0", true⟩, ⟨"pos", some "this > 5", false⟩]
  have hv : (Schema.ofDeclarations [.class ⟨"T", [x], []⟩]).toOption.any (fun schema =>
      (schema.validate (Settings.mk 128 false true) (.class "T")
        (.object "T" [("x", .int 1)])).toOption.any fun tree =>
          (tree.child? (.field "x")).any fun node => node.checks? == some outcomes) = true := by
    decide +kernel
  obtain ⟨schema, hs, hvalid⟩ := Results.toOption_any_iff.mp hv
  obtain ⟨tree, ht, hchild⟩ := Results.toOption_any_iff.mp hvalid
  obtain ⟨node, hn, hc⟩ := (Option.any_eq_true ..).mp hchild
  refine ⟨schema, tree, outcomes, hs, Schema.built_of_declarations hs, ht, ?_, by decide,
    _, rfl, rfl, rfl, ?_⟩
  · exact Validated.carries_of_child? hn (Validated.carries_of_checks? (beq_iff_eq.mp hc))
  · simp [outcomes, CheckResult.json, CheckResult.status, Fields.ofList, Fields.insertAll,
      Fields.insert, Fields.find?, Checks.get?]

end Schema

end RecordCheck

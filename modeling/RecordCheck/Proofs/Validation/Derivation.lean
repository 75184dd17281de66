import RecordCheck.Proofs.Validation.Layers
import RecordCheck.Proofs.Value.Parts

/-! A visit that succeeds, as a derivation over the value. The derivation does not say in which
order the parts of an object are visited. -/

namespace RecordCheck.Validation

/-- How a value is accepted at a place, and the tree that it gives. -/
inductive Derivation (w : Validation) : Path → FieldType → Value → Validated → Prop where
  | alternative {path type a v tree} (ht : type.tag? = none) (hs : type.select? v = some a)
      (h : Derivation w path a v tree) : Derivation w path type v tree
  | scalar {path type v} (hd : path.depth ≤ w.settings.maxDepth) (hs : w.schema.Scalar type v) :
      Derivation w path type v (.scalar v)
  | list {path : Path} {type} {items : List Value} {nodes : Fin items.length → Validated}
      (hd : path.depth ≤ w.settings.maxDepth)
      (h : ∀ i : Fin items.length, Derivation w (path.push (.index i)) type items[i] (nodes i)) :
      Derivation w path (.list type) (.list items) (.list (List.ofFn nodes))
  | map {path : Path} {key type} {entries : List (String × Value)}
      {nodes : Fin entries.length → Validated} (hd : path.depth ≤ w.settings.maxDepth)
      (hk : ∀ entry ∈ entries, w.acceptsKey key entry.1)
      (h : ∀ i : Fin entries.length,
        Derivation w (path.push (.key entries[i].1)) type entries[i].2 (nodes i)) :
      Derivation w path (.map key type) (.map entries)
        (.map (List.ofFn fun i => (entries[i].1, nodes i)))
  | object {path : Path} {name} {c : OrderedClass} {fields : List (String × Value)}
      {values : Field → Value} {nodes : Field → Validated}
      (hd : path.depth ≤ w.settings.maxDepth) (hc : w.schema.class? name = some c)
      (hv : ∀ field ∈ c.fields, fieldValue? fields field = some (values field))
      (h : ∀ field ∈ c.fields,
        Derivation w (path.push (.field field.name)) field.type (values field) (nodes field))
      (hm : ∀ field ∈ c.fields, MetIn (field.type.liveTag? (values field))
        (w.fieldContext c.toClass fields (values field)) field.constraints)
      (ho : MetIn (some (.class name)) (w.objectContext c.toClass fields) c.constraints) :
      Derivation w path (.class name) (.object name fields)
        (w.objectTree c.toClass fields values nodes)

variable {w : Validation} {path : Path} {type : FieldType} {v : Value} {tree : Validated}

/-- A derivation for a choice is one for the alternative that the value lives in. -/
theorem Derivation.of_choice {a : FieldType} (ht : type.tag? = none) (hs : type.select? v = some a)
    (h : Derivation w path type v tree) : Derivation w path a v tree := by
  cases h with
  | alternative _ hs' h =>
    cases hs.symm.trans hs'
    exact h
  | scalar _ hs' => cases hs' <;> cases ht
  | _ => cases ht

/-- A derivation of an object is one for each field. -/
theorem Derivation.of_object {name : String} {c : OrderedClass} {fields : List (String × Value)}
    (hc : w.schema.class? name = some c)
    (h : Derivation w path (.class name) (.object name fields) tree) :
    ∃ values nodes,
      (∀ f ∈ c.fields, fieldValue? fields f = some (values f) ∧
        Derivation w (path.push (.field f.name)) f.type (values f) (nodes f)) ∧
      tree = w.objectTree c.toClass fields values nodes := by
  cases h with
  | alternative ht => cases ht
  | scalar _ hs => cases hs
  | @object _ _ _ _ values nodes _ hc' hv h =>
    cases hc.symm.trans hc'
    exact ⟨values, nodes, fun f hf => ⟨hv f hf, h f hf⟩, rfl⟩

theorem Derivation.visit (hw : w.schema.Complete) (h : Derivation w path type v tree) :
    visit w v path type = .ok tree := by
  induction h with
  | alternative ht hs _ ih => rw [visit_of_select? ht hs, ih]
  | @scalar path type v hd hs =>
    have ht : type.tag?.isSome := by cases hs <;> rfl
    rw [visit_scalar_eq_ok ht (by rintro _ rfl; cases hs) (by rintro _ rfl; cases hs)
      (by rintro _ _ rfl; cases hs)]
    exact ⟨hd, hs, rfl⟩
  | list hd _ ih => exact (visit_list_eq_ok rfl).mpr ⟨hd, _, rfl, _, ih, rfl⟩
  | map hd hk _ ih => exact (visit_map_eq_ok rfl).mpr ⟨hd, _, _, rfl, hk, _, ih, rfl⟩
  | object hd hc hv _ hm ho ih =>
    obtain ⟨hmem, rfl⟩ := Schema.mem_of_class? hc
    exact (visit_object_eq_ok rfl).mpr
      ⟨hd, rfl, _, hc, (visitObject_eq_ok (hw _ hmem)).mpr ⟨_, _, hv, ih, hm, ho, rfl⟩⟩

theorem derivation_of_visit (hw : w.schema.Complete) (h : visit w v path type = .ok tree) :
    Derivation w path type v tree := by
  induction v using Value.induction_parts_null generalizing path type tree with
  | h v ih hnull =>
    -- Only an alternative is visited in earnest.
    have tagged {a : FieldType} (ht : a.tag?.isSome) (h : visit w v path a = .ok tree) :
        Derivation w path a v tree := by
      cases v with
      | list items =>
        obtain ⟨hd, item, rfl, nodes, hn, rfl⟩ := (visit_list_eq_ok ht).mp h
        exact .list hd fun i => ih _ (List.getElem_mem _) (hn i)
      | map entries =>
        obtain ⟨hd, key, item, rfl, hk, nodes, hn, rfl⟩ := (visit_map_eq_ok ht).mp h
        exact .map hd hk fun i => ih _ (List.mem_map_of_mem (List.getElem_mem _)) (hn i)
      | object name fields =>
        obtain ⟨hd, rfl, c, hc, hvis⟩ := (visit_object_eq_ok ht).mp h
        obtain ⟨hmem, rfl⟩ := Schema.mem_of_class? hc
        obtain ⟨values, nodes, hv, hn, hm, ho, rfl⟩ := (visitObject_eq_ok (hw _ hmem)).mp hvis
        refine .object hd hc hv (fun field hf => ?_) hm ho
        rcases fieldValue?_mem (hv field hf) with hp | hp
        · exact ih _ hp (hn field hf)
        · have hfield := hn field hf
          rw [hp] at hfield ⊢
          exact hnull (by simp) hfield
      | _ =>
        obtain ⟨hd, hs, rfl⟩ := (visit_scalar_eq_ok ht (by simp) (by simp) (by simp)).mp h
        exact .scalar hd hs
    cases ht : type.tag? with
    | some tag => exact tagged (by simp [ht]) h
    | none =>
      cases hs : type.select? v with
      | none => exact absurd h (visit_of_select?_none ht hs)
      | some a =>
        rw [visit_of_select? ht hs] at h
        exact .alternative ht hs (tagged (FieldType.tag_of_select? hs) h)

/-- Visits succeed along derivations. -/
theorem derivation_iff (hw : w.schema.Complete) :
    Derivation w path type v tree ↔ visit w v path type = .ok tree :=
  ⟨Derivation.visit hw, derivation_of_visit hw⟩

end RecordCheck.Validation

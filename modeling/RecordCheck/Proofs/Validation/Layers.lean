import Mathlib.Data.Fin.Tuple.Basic
import Mathlib.Data.List.OfFn
import RecordCheck.Proofs.Schema.Fields
import RecordCheck.Proofs.Validation.Visit

/-! The visits of lists, maps and objects, in terms of those of their parts. -/

namespace RecordCheck.Validation

open Results

variable {w : Validation} {path : Path} {type : FieldType} {v : Value} {tree : Validated}

/-! ### Items and entries -/

theorem visitItems_eq_ok {items : List Value} {i : Nat} {trees : List Validated} :
    visitItems w items path type i = .ok trees ↔
      ∃ nodes : Fin items.length → Validated,
        (∀ j : Fin items.length,
          visit w items[j] (path.push (.index (i + j))) type = .ok (nodes j)) ∧
          trees = List.ofFn nodes := by
  induction items generalizing i trees with
  | nil =>
    simp only [visitItems, Except.ok.injEq, eq_comm (a := [])]
    exact ⟨fun h => ⟨finZeroElim, fun j => j.elim0, h⟩, fun ⟨_, _, h⟩ => h⟩
  | cons v rest ih =>
    simp only [visitItems, bind_eq_ok, pure_eq_ok, ih]
    simp only [List.length_cons, Fin.exists_fin_succ_pi, Fin.forall_fin_succ, List.ofFn_succ,
      Fin.cons_zero, Fin.cons_succ]
    constructor
    · intro hx
      obtain ⟨node, hn, _, ⟨nodes, hr, rfl⟩, rfl⟩ := hx
      refine ⟨node, nodes, ⟨hn, fun j => ?_⟩, rfl⟩
      have hj := hr j
      rw [Nat.add_right_comm] at hj
      exact hj
    · intro hx
      obtain ⟨node, nodes, ⟨hn, hr⟩, rfl⟩ := hx
      refine ⟨node, hn, _, ⟨nodes, fun j => ?_, rfl⟩, rfl⟩
      rw [Nat.add_right_comm]
      exact hr j

theorem visitEntries_eq_ok {entries : List (String × Value)} {key : FieldType}
    {trees : List (String × Validated)} :
    visitEntries w entries path key type = .ok trees ↔
      (∀ entry ∈ entries, w.acceptsKey key entry.1) ∧
        ∃ nodes : Fin entries.length → Validated,
          (∀ j : Fin entries.length,
            visit w entries[j].2 (path.push (.key entries[j].1)) type = .ok (nodes j)) ∧
            trees = List.ofFn fun j => (entries[j].1, nodes j) := by
  induction entries generalizing trees with
  | nil =>
    simp only [visitEntries, Except.ok.injEq, eq_comm (a := [])]
    exact ⟨fun h => ⟨by simp, finZeroElim, fun j => j.elim0, h⟩, fun ⟨_, _, _, h⟩ => h⟩
  | cons entry rest ih =>
    obtain ⟨k, v⟩ := entry
    by_cases hk : w.acceptsKey key k
    · simp only [visitEntries, hk, bind_eq_ok, pure_eq_ok, ih, List.forall_mem_cons,
        true_and, if_true]
      simp only [List.length_cons, Fin.exists_fin_succ_pi, Fin.forall_fin_succ, List.ofFn_succ,
        Fin.cons_zero, Fin.cons_succ]
      constructor
      · intro hx
        obtain ⟨node, hn, _, ⟨hr, nodes, ht, rfl⟩, rfl⟩ := hx
        exact ⟨hr, node, nodes, ⟨hn, ht⟩, rfl⟩
      · intro hx
        obtain ⟨hr, node, nodes, ⟨hn, ht⟩, rfl⟩ := hx
        exact ⟨node, hn, _, ⟨hr, nodes, ht, rfl⟩, rfl⟩
    · simp [visitEntries, hk, mismatch, bind, Except.bind]

/-! ### Objects -/

/-- The tree of a field, around that of its value. -/
def fieldTree (w : Validation) (c : Class) (fields : List (String × Value)) (field : Field)
    (v : Value) (node : Validated) : Validated :=
  wrap field.hasChecks ((checksIn (field.type.liveTag? v) field.constraints).map
    (w.settings.outcome (w.fieldContext c fields v))) node

/-- The tree of an object, around those of the values of its fields. -/
def objectTree (w : Validation) (c : Class) (fields : List (String × Value))
    (values : Field → Value) (nodes : Field → Validated) : Validated :=
  wrap c.hasChecks ((checksIn (some (.class c.name)) c.constraints).map
      (w.settings.outcome (w.objectContext c fields)))
    (.object c.name
      ((c.fields.map fun field =>
          (field.name, w.fieldTree c fields field (values field) (nodes field))) ++
        Fields.mapValues Validated.ofValue
          (fields.filter fun entry => (c.field? entry.1).isNone)))

/-- Entries in any order are put back into the order of declaration. -/
theorem arrange_eq {c : OrderedClass} (hc : c.Complete) (fields : List (String × Value))
    (g : Field → String × Validated) (hg : ∀ field ∈ c.fields, (g field).1 = field.name) :
    arrange c.toClass (c.fieldsInOrder.map g) fields =
      c.fields.map g ++ Fields.mapValues Validated.ofValue
        (fields.filter fun entry => (c.field? entry.1).isNone) := by
  have hnames : (Fields.names (c.fieldsInOrder.map g)).Nodup := by
    have hp : (Fields.names (c.fieldsInOrder.map g)).Perm (c.fields.map (·.name)) := by
      rw [Fields.names, List.map_map]
      refine (hc.perm.map _).trans (List.Perm.of_eq ?_)
      exact List.map_congr_left fun field hf => hg field hf
    exact hp.nodup_iff.mpr hc.names_nodup
  rw [arrange]
  congr 1
  conv_rhs => rw [← List.filterMap_eq_map]
  apply List.filterMap_congr
  intro field hf
  have hm : (field.name, (g field).2) ∈ c.fieldsInOrder.map g := by
    rw [← hg field hf]
    exact List.mem_map_of_mem (hc.mem_fieldsInOrder.mpr hf)
  rw [Fields.find?_of_mem hnames hm, ← hg field hf]
  rfl

theorem visitObject_eq_ok {c : OrderedClass} (hc : c.Complete)
    {fields : List (String × Value)} :
    w.visitObject path c fields (visits w fields) = .ok tree ↔
      ∃ (values : Field → Value) (nodes : Field → Validated),
        (∀ field ∈ c.fields, fieldValue? fields field = some (values field)) ∧
        (∀ field ∈ c.fields,
          visit w (values field) (path.push (.field field.name)) field.type = .ok (nodes field)) ∧
        (∀ field ∈ c.fields, MetIn (field.type.liveTag? (values field))
          (w.fieldContext c.toClass fields (values field)) field.constraints) ∧
        MetIn (some (.class c.name)) (w.objectContext c.toClass fields) c.constraints ∧
        tree = w.objectTree c.toClass fields values nodes := by
  simp only [visitObject, fill_eq, bind_eq_ok, pure_eq_ok, mapM_eq_ok,
    Settings.runConstraints_eq_ok, hc.mem_fieldsInOrder, visitField_eq_ok]
  constructor
  · intro h
    obtain ⟨_, ⟨g, hg, rfl⟩, _, ⟨ho, rfl⟩, rfl⟩ := h
    choose! values nodes hv hn hm he using hg
    refine ⟨values, nodes, hv, hn, hm, ho, ?_⟩
    rw [arrange_eq hc fields g fun field hf => by rw [he field hf], objectTree,
      List.map_congr_left he]
    rfl
  · intro h
    obtain ⟨values, nodes, hv, hn, hm, ho, rfl⟩ := h
    let g (field : Field) : String × Validated :=
      (field.name, w.fieldTree c.toClass fields field (values field) (nodes field))
    refine ⟨_, ⟨g, ?_, rfl⟩, _, ⟨ho, rfl⟩, ?_⟩
    · intro field hf
      exact ⟨values field, nodes field, hv field hf, hn field hf, hm field hf, rfl⟩
    · rw [arrange_eq hc fields g fun _ _ => rfl]
      rfl

/-! ### Values -/

theorem enter_of_tag {a : FieldType} (ht : type.tag?.isSome) :
    w.enter path type v = .ok a ↔ path.depth ≤ w.settings.maxDepth ∧ a = type := by
  simp only [enter, bind_eq_ok, checkDepth_eq_ok, alternative_of_tag ht]
  simp [eq_comm]

/-- A value of a union or optional type is visited as one of the alternative that it lives in. -/
theorem visit_of_select? {a : FieldType} (ht : type.tag? = none) (hs : type.select? v = some a) :
    visit w v path type = visit w v path a := by
  have he : w.enter path type v = w.enter path a v := by
    rw [enter, enter, alternative_of_choice ht, hs,
      alternative_of_tag (FieldType.tag_of_select? hs)]
  cases v <;> simp only [visit, he]

theorem visit_of_select?_none (ht : type.tag? = none) (hs : type.select? v = none) :
    visit w v path type ≠ .ok tree := by
  have he {a : FieldType} : w.enter path type v ≠ .ok a := by
    simp [enter, alternative_of_choice ht, hs, mismatch]
  cases v <;> simp only [visit, ne_eq, bind_eq_ok, he, false_and, exists_false, not_false_eq_true]

/-- Where the layer has no parts, the visit ends in a scalar. -/
theorem visit_scalar_eq_ok (ht : type.tag?.isSome) (hl : ∀ items, v ≠ .list items)
    (hm : ∀ entries, v ≠ .map entries) (ho : ∀ name fields, v ≠ .object name fields) :
    visit w v path type = .ok tree ↔
      path.depth ≤ w.settings.maxDepth ∧ w.schema.Scalar type v ∧ tree = .scalar v := by
  rw [visit]
  · simp only [bind_eq_ok, enter_of_tag ht]
    constructor
    · intro h
      obtain ⟨_, ⟨hd, rfl⟩, hs⟩ := h
      exact ⟨hd, (leaf_eq_ok ht).mp hs⟩
    · intro h
      obtain ⟨hd, hs⟩ := h
      exact ⟨_, ⟨hd, rfl⟩, (leaf_eq_ok ht).mpr hs⟩
  all_goals assumption

theorem visit_list_eq_ok (ht : type.tag?.isSome) {items : List Value} :
    visit w (.list items) path type = .ok tree ↔
      path.depth ≤ w.settings.maxDepth ∧ ∃ item, type = .list item ∧
        ∃ nodes : Fin items.length → Validated,
          (∀ i : Fin items.length,
            visit w items[i] (path.push (.index i)) item = .ok (nodes i)) ∧
          tree = .list (List.ofFn nodes) := by
  rw [visit, bind_eq_ok]
  simp only [enter_of_tag ht]
  constructor
  · intro hx
    obtain ⟨_, ⟨hd, rfl⟩, h⟩ := hx
    split at h
    next item =>
      simp only [bind_eq_ok, pure_eq_ok, visitItems_eq_ok, Nat.zero_add] at h
      obtain ⟨_, ⟨nodes, hn, rfl⟩, rfl⟩ := h
      exact ⟨hd, item, rfl, nodes, hn, rfl⟩
    next hl =>
      obtain ⟨hs, -⟩ := (leaf_eq_ok ht).mp h
      cases hs
  · intro hx
    obtain ⟨hd, item, rfl, nodes, hn, rfl⟩ := hx
    refine ⟨_, ⟨hd, rfl⟩, ?_⟩
    simp only [bind_eq_ok, pure_eq_ok, visitItems_eq_ok, Nat.zero_add]
    exact ⟨_, ⟨nodes, hn, rfl⟩, rfl⟩

theorem visit_map_eq_ok (ht : type.tag?.isSome) {entries : List (String × Value)} :
    visit w (.map entries) path type = .ok tree ↔
      path.depth ≤ w.settings.maxDepth ∧ ∃ key item, type = .map key item ∧
        (∀ entry ∈ entries, w.acceptsKey key entry.1) ∧
        ∃ nodes : Fin entries.length → Validated,
          (∀ i : Fin entries.length,
            visit w entries[i].2 (path.push (.key entries[i].1)) item = .ok (nodes i)) ∧
          tree = .map (List.ofFn fun i => (entries[i].1, nodes i)) := by
  rw [visit, bind_eq_ok]
  simp only [enter_of_tag ht]
  constructor
  · intro hx
    obtain ⟨_, ⟨hd, rfl⟩, h⟩ := hx
    split at h
    next key item =>
      simp only [bind_eq_ok, pure_eq_ok, visitEntries_eq_ok] at h
      obtain ⟨_, ⟨hk, nodes, hn, rfl⟩, rfl⟩ := h
      exact ⟨hd, key, item, rfl, hk, nodes, hn, rfl⟩
    next hl =>
      obtain ⟨hs, -⟩ := (leaf_eq_ok ht).mp h
      cases hs
  · intro hx
    obtain ⟨hd, key, item, rfl, hk, nodes, hn, rfl⟩ := hx
    refine ⟨_, ⟨hd, rfl⟩, ?_⟩
    simp only [bind_eq_ok, pure_eq_ok, visitEntries_eq_ok]
    exact ⟨_, ⟨hk, nodes, hn, rfl⟩, rfl⟩

theorem visit_object_eq_ok (ht : type.tag?.isSome) {name : String}
    {fields : List (String × Value)} :
    visit w (.object name fields) path type = .ok tree ↔
      path.depth ≤ w.settings.maxDepth ∧ type = .class name ∧
        ∃ c, w.schema.class? name = some c ∧
          w.visitObject path c fields (visits w fields) = .ok tree := by
  rw [visit, bind_eq_ok]
  simp only [enter_of_tag ht]
  constructor
  · intro hx
    obtain ⟨_, ⟨hd, rfl⟩, h⟩ := hx
    split at h
    next declared =>
      split at h
      next => cases h
      next c hc =>
        split at h
        next hn =>
          subst hn
          exact ⟨hd, rfl, c, hc, h⟩
        next => cases h
    next hl =>
      obtain ⟨hs, -⟩ := (leaf_eq_ok ht).mp h
      cases hs
  · intro hx
    obtain ⟨hd, rfl, c, hc, h⟩ := hx
    refine ⟨_, ⟨hd, rfl⟩, ?_⟩
    simp only [hc, if_true]
    exact h

end RecordCheck.Validation

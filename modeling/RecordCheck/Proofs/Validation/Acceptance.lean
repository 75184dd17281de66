import Mathlib.Logic.Relation
import RecordCheck.Proofs.Validation.Carries
import RecordCheck.Proofs.Validation.Derivation

/-! Which values are accepted, said of each part of the value on its own. No part comes before
another one. -/

namespace RecordCheck

open Validation

/-- A value that is met on the way into another one, and the type that it is to have. -/
structure Node where
  depth : Nat
  type : FieldType
  value : Value

/-- The constraints on an object of the class and on its fields are met. They see it filled. -/
structure Class.Lawful (c : Class) (root : Value) (fields : List (String × Value))
    (object : Value) : Prop where
  filled : c.Filled fields object
  fields_met : ∀ f ∈ c.fields, ∀ v, fieldValue? fields f = some v →
    MetIn (f.type.liveTag? v) ⟨v, object, root⟩ f.constraints
  own_met : MetIn (some (.class c.name)) ⟨object, object, root⟩ c.constraints

namespace Schema

/-- The step from a node to one below it. -/
inductive Part (schema : Schema) : Node → Node → Prop where
  | alternative {d type a v} (ht : type.tag? = none) (hs : type.select? v = some a) :
      Part schema ⟨d, type, v⟩ ⟨d, a, v⟩
  | item {d type items v} (hv : v ∈ items) :
      Part schema ⟨d, .list type, .list items⟩ ⟨d + 1, type, v⟩
  | entry {d key type entries k v} (hv : (k, v) ∈ entries) :
      Part schema ⟨d, .map key type, .map entries⟩ ⟨d + 1, type, v⟩
  | field {d name c fields f v} (hc : schema.class? name = some c) (hf : f ∈ c.fields)
      (hv : fieldValue? fields f = some v) :
      Part schema ⟨d, .class name, .object name fields⟩ ⟨d + 1, f.type, v⟩

/-- The nodes that are met on the way inwards from one. -/
def Reaches (schema : Schema) : Node → Node → Prop := Relation.ReflTransGen (Part schema)

/-- A key of a map: any string, or a declared variant. -/
def IsKey (schema : Schema) (type : FieldType) (key : String) : Prop :=
  .string ∈ type.variants ∨
    ∃ name enum, .enum name ∈ type.variants ∧ schema.enum? name = some enum ∧
      key ∈ enum.variants

/-- A value has a type, as far as its outermost layer shows. -/
inductive WellTyped (schema : Schema) : FieldType → Value → Prop where
  | choice {type a v} (ht : type.tag? = none) (hs : type.select? v = some a) :
      WellTyped schema type v
  | scalar {type v} (h : schema.Scalar type v) : WellTyped schema type v
  | list {type items} : WellTyped schema (.list type) (.list items)
  | map {key type entries} (hk : ∀ entry ∈ entries, schema.IsKey key entry.1) :
      WellTyped schema (.map key type) (.map entries)
  | object {name c fields} (hc : schema.class? name = some c)
      (hf : ∀ f ∈ c.fields, (fieldValue? fields f).isSome) :
      WellTyped schema (.class name) (.object name fields)

/-- What is required of a node by itself. -/
structure Admits (schema : Schema) (settings : Settings) (root : Value) (n : Node) : Prop where
  depth_le : n.depth ≤ settings.maxDepth
  typed : schema.WellTyped n.type n.value
  lawful : ∀ name c fields, n.type = .class name → n.value = .object name fields →
    schema.class? name = some c → ∃ object, c.toClass.Lawful root fields object

/-- Every node that is met is as it has to be. -/
def Accepts (schema : Schema) (settings : Settings) (type : FieldType) (v : Value) : Prop :=
  ∀ n, schema.Reaches ⟨0, type, v⟩ n → schema.Admits settings v n

end Schema

/-! ### Derivations and nodes -/

namespace Validation

variable {w : Validation} {path : Path} {type : FieldType} {v : Value} {tree : Validated}

@[simp] theorem depth_push (path : Path) (step : Step) :
    (path.push step).depth = path.depth + 1 := by
  simp [Path.push, Path.depth]

theorem acceptsKey_iff {key : String} :
    w.acceptsKey type key = true ↔ w.schema.IsKey type key := by
  simp only [acceptsKey, List.any_eq_true, Schema.IsKey]
  constructor
  · intro h
    obtain ⟨a, ha, hk⟩ := h
    have ht := FieldType.tag_of_mem_variants type a ha
    cases a with
    | enum name =>
      obtain ⟨enum, he, hm⟩ := isVariant_iff.mp hk
      exact .inr ⟨name, enum, ha, he, hm⟩
    | string => exact .inl ha
    | union _ | optional _ => cases ht
    | _ => cases (FieldType.accepts_of_tag ht).symm.trans hk
  · intro h
    rcases h with hs | ⟨name, enum, ha, he, hm⟩
    · exact ⟨.string, hs, rfl⟩
    · exact ⟨.enum name, ha, isVariant_iff.mpr ⟨enum, he, hm⟩⟩

/-- The tree of an object carries the outcomes of the checks on it and on its fields, and what the
trees of their values carry. -/
theorem carries_objectTree {c : Class} {fields : List (String × Value)} {values : Field → Value}
    {nodes : Field → Validated} {found : Checks} :
    (w.objectTree c fields values nodes).Carries found ↔
      (c.hasChecks = true ∧ found = (checksIn (some (.class c.name)) c.constraints).map
        (w.settings.outcome (w.objectContext c fields))) ∨
      ∃ f ∈ c.fields, (f.hasChecks = true ∧
        found = (checksIn (f.type.liveTag? (values f)) f.constraints).map
          (w.settings.outcome (w.fieldContext c fields (values f)))) ∨
        (nodes f).Carries found := by
  rw [objectTree, Validated.carries_wrap]
  refine or_congr_right ?_
  simp only [← Validated.carries_wrap]
  constructor
  · intro h
    cases h with
    | field ht hc =>
      rcases List.mem_append.mp ht with ht | ht
      · obtain ⟨f, hf, he⟩ := List.mem_map.mp ht
        obtain ⟨-, rfl⟩ := Prod.mk.inj he
        exact ⟨f, hf, hc⟩
      · obtain ⟨entry, -, he⟩ := List.mem_map.mp ht
        obtain ⟨-, rfl⟩ := Prod.mk.inj he
        exact absurd hc Validated.not_carries_ofValue
  · intro hx
    obtain ⟨f, hf, hc⟩ := hx
    exact .field (List.mem_append_left _ (List.mem_map_of_mem hf)) hc

/-- What a derivation is made of has derivations, and their trees are inside its tree. -/
theorem Derivation.part {n : Node} {d : Nat} (h : Derivation w path type v tree)
    (hd : path.depth = d) (hp : w.schema.Part ⟨d, type, v⟩ n) :
    ∃ path' tree', path'.depth = n.depth ∧ Derivation w path' n.type n.value tree' ∧
      ∀ found, tree'.Carries found → tree.Carries found := by
  subst hd
  cases hp with
  | alternative ht hs => exact ⟨path, tree, rfl, h.of_choice ht hs, fun _ hc => hc⟩
  | item hv =>
    obtain ⟨i, hi, rfl⟩ := List.getElem_of_mem hv
    cases h with
    | alternative ht => cases ht
    | scalar _ hs => cases hs
    | list _ h =>
      exact ⟨_, _, depth_push .., h ⟨i, hi⟩, fun _ hc => .item (List.mem_ofFn.mpr ⟨_, rfl⟩) hc⟩
  | @entry _ _ _ _ k _ hv =>
    obtain ⟨i, hi, he⟩ := List.getElem_of_mem hv
    cases h with
    | alternative ht => cases ht
    | scalar _ hs => cases hs
    | map _ _ h =>
      have hi' := h ⟨i, hi⟩
      simp only [Fin.getElem_fin, he] at hi'
      exact ⟨_, _, depth_push .., hi', fun _ hc => .entry (List.mem_ofFn.mpr ⟨⟨i, hi⟩, rfl⟩) hc⟩
  | field hc hf hv =>
    obtain ⟨values, nodes, hn, rfl⟩ := h.of_object hc
    obtain ⟨he, h⟩ := hn _ hf
    rw [hv, Option.some.injEq] at he
    rw [he]
    exact ⟨_, _, depth_push .., h,
      fun _ hcs => carries_objectTree.mpr (.inr ⟨_, hf, .inr hcs⟩)⟩

/-- The same for every node that is met on the way inwards. -/
theorem Derivation.inside {n : Node} (h : Derivation w path type v tree)
    (hr : w.schema.Reaches ⟨path.depth, type, v⟩ n) :
    ∃ path' tree', path'.depth = n.depth ∧ Derivation w path' n.type n.value tree' ∧
      ∀ found, tree'.Carries found → tree.Carries found := by
  induction hr with
  | refl => exact ⟨path, tree, rfl, h, fun _ hc => hc⟩
  | tail _ hp ih =>
    obtain ⟨_, _, hd, h, hsub⟩ := ih
    obtain ⟨path', tree', hd', h', hsub'⟩ := h.part hd hp
    exact ⟨path', tree', hd', h', fun found hc => hsub found (hsub' found hc)⟩

/-- The constraints on an object with a derivation and on its fields are met. -/
theorem Derivation.lawful {name : String} {c : OrderedClass} {fields : List (String × Value)}
    (hc : w.schema.class? name = some c)
    (h : Derivation w path (.class name) (.object name fields) tree) :
    c.toClass.Lawful w.root fields (filled c.toClass fields) := by
  cases h with
  | alternative ht => cases ht
  | scalar _ hs => cases hs
  | object _ hc' hv _ hm ho =>
    cases hc.symm.trans hc'
    obtain ⟨-, rfl⟩ := Schema.mem_of_class? hc
    refine ⟨filled_filled c.toClass fields, fun f hf u hu => ?_, ho⟩
    rw [hv f hf, Option.some.injEq] at hu
    subst hu
    exact hm f hf

theorem Derivation.admits {d : Nat} (h : Derivation w path type v tree) (hd : path.depth = d) :
    w.schema.Admits w.settings w.root ⟨d, type, v⟩ := by
  subst hd
  induction h with
  | alternative ht hs _ ih =>
    refine ⟨ih.depth_le, .choice ht hs, ?_⟩
    rintro name c fields rfl
    cases ht
  | scalar hd hs =>
    refine ⟨hd, .scalar hs, ?_⟩
    rintro name c fields rfl rfl
    cases hs
  | list hd => exact ⟨hd, .list, nofun⟩
  | map hd hk =>
    exact ⟨hd, .map fun entry he => acceptsKey_iff.mp (hk entry he), nofun⟩
  | @object path name c fields values nodes hd hc hv h hm ho =>
    refine ⟨hd, .object hc fun f hf => by simp [hv f hf], ?_⟩
    rintro _ c' _ ⟨⟩ ⟨⟩ hc'
    exact ⟨_, (Derivation.object hd hc hv h hm ho).lawful hc'⟩

/-- What is met below a derivation is as it has to be. -/
theorem Derivation.reaches {n : Node} (h : Derivation w path type v tree)
    (hr : w.schema.Reaches ⟨path.depth, type, v⟩ n) : w.schema.Admits w.settings w.root n := by
  obtain ⟨path', tree', hd, h, -⟩ := h.inside hr
  exact h.admits hd

theorem exists_derivation (hw : w.schema.Complete)
    (h : ∀ n, w.schema.Reaches ⟨path.depth, type, v⟩ n → w.schema.Admits w.settings w.root n) :
    ∃ tree, Derivation w path type v tree := by
  induction v using Value.induction_parts_null generalizing path type with
  | h v ih hnull =>
    have tagged {a : FieldType} (ht : a.tag?.isSome)
        (h : ∀ n, w.schema.Reaches ⟨path.depth, a, v⟩ n → w.schema.Admits w.settings w.root n) :
        ∃ tree, Derivation w path a v tree := by
      obtain ⟨hd, typed, lawful⟩ := h _ .refl
      -- The nodes below a part are below the value.
      have below {n m : Node} {step : Step} (hp : w.schema.Part ⟨path.depth, a, v⟩ n)
          (hn : n.depth = path.depth + 1)
          (hr : w.schema.Reaches ⟨(path.push step).depth, n.type, n.value⟩ m) :
          w.schema.Admits w.settings w.root m := by
        rw [depth_push, ← hn] at hr
        exact h m (hr.head hp)
      cases typed with
      | choice htn =>
        rw [htn] at ht
        cases ht
      | scalar hs => exact ⟨_, .scalar hd hs⟩
      | @list type items =>
        have hi (i : Fin items.length) :
            ∃ tree, Derivation w (path.push (.index i)) type items[i] tree :=
          ih _ (List.getElem_mem _) fun m hr => below (.item (List.getElem_mem _)) rfl hr
        choose nodes hn using hi
        exact ⟨_, .list hd hn⟩
      | @map key type entries hk =>
        have hi (i : Fin entries.length) :
            ∃ tree, Derivation w (path.push (.key entries[i].1)) type entries[i].2 tree :=
          ih _ (List.mem_map_of_mem (List.getElem_mem _)) fun m hr =>
            below (.entry (List.getElem_mem _)) rfl hr
        choose nodes hn using hi
        exact ⟨_, .map hd (fun entry he => acceptsKey_iff.mpr (hk entry he)) hn⟩
      | @object name c fields hc hf =>
        obtain ⟨object, hfilled, hm, ho⟩ := lawful _ _ _ rfl rfl hc
        obtain ⟨hmem, rfl⟩ := Schema.mem_of_class? hc
        obtain rfl := (filled_iff (hw c hmem).names_nodup).mp hfilled
        have hi (f : Field) (hmem : f ∈ c.fields) : ∃ u, fieldValue? fields f = some u ∧
            ∃ tree, Derivation w (path.push (.field f.name)) f.type u tree := by
          obtain ⟨u, hu⟩ := Option.isSome_iff_exists.mp (hf f hmem)
          have hb (m : Node)
              (hr : w.schema.Reaches ⟨(path.push (.field f.name)).depth, f.type, u⟩ m) :=
            below (.field hc hmem hu) rfl hr
          refine ⟨u, hu, ?_⟩
          rcases fieldValue?_mem hu with hp | rfl
          · exact ih u hp hb
          · exact hnull (by simp) hb
        choose! values hv nodes hn using hi
        exact ⟨_, .object hd hc hv hn (fun f hmem => hm f hmem _ (hv f hmem)) ho⟩
    cases ht : type.tag? with
    | some tag => exact tagged (by simp [ht]) h
    | none =>
      cases (h _ .refl).typed with
      | @choice _ a _ _ hs =>
        obtain ⟨tree, hn⟩ := tagged (FieldType.tag_of_select? hs) fun n hr =>
          h n (hr.head (.alternative ht hs))
        exact ⟨tree, .alternative ht hs hn⟩
      | scalar hs => cases hs <;> cases ht
      | _ => cases ht

end Validation

/-- A validation succeeds exactly if the value is accepted. -/
theorem Schema.Complete.accepts_iff {schema : Schema} (h : schema.Complete) (settings : Settings)
    (type : FieldType) (v : Value) :
    (∃ tree, schema.validate settings type v = .ok tree) ↔ schema.Accepts settings type v := by
  simp only [validate, ← derivation_iff (w := ⟨schema, settings, v⟩) h]
  constructor
  · rintro ⟨tree, ht⟩ n hr
    exact ht.reaches hr
  · exact fun ha => exists_derivation h ha

end RecordCheck

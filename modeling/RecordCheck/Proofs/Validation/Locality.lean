import RecordCheck.Proofs.Validation.Alternatives
import RecordCheck.Proofs.Validation.Depth
import RecordCheck.Proofs.Validation.Spots

/-! Where no constraint reads the outermost value, a part is validated as it is alone. So lists and
maps are validated part by part, with the trees and the first error that the parts have alone. -/

namespace RecordCheck

open Validation Results

/-- The inner place as seen from the value that the outer one leads into. -/
def Path.within (outer inner : Path) : Path := ⟨outer.root, outer.steps ++ inner.steps⟩

/-- The error of a part as an error of the value around it. -/
def ValidationError.within (outer : Path) (e : ValidationError) : ValidationError :=
  e.mapPath outer.within

/-- The whole is validated part by part: it succeeds if each part does alone, with the trees of the
parts, and fails as the first part that fails. -/
structure PartByPart {α : Type} (alone : α → Except ValidationError Validated)
    (build : List Validated → Validated) (place : α → Nat → Path) (parts : List α)
    (whole : Except ValidationError Validated) : Prop where
  succeeds_iff : (∃ tree, whole = .ok tree) ↔ ∀ a ∈ parts, ∃ t, alone a = .ok t
  tree_iff : ∀ tree, whole = .ok tree ↔
    ∃ trees, List.Forall₂ (fun a t => alone a = .ok t) parts trees ∧ tree = build trees
  error_iff : ∀ e, whole = .error e ↔
    ∃ before a after e', parts = before ++ a :: after ∧ (∀ b ∈ before, ∃ t, alone b = .ok t) ∧
      alone a = .error e' ∧ e = e'.within (place a before.length)

theorem forall_mem_zipIdx_fst {α : Type} {P : α → Prop} {xs : List α} :
    (∀ x ∈ xs.zipIdx, P x.1) ↔ ∀ a ∈ xs, P a := by
  conv_rhs => rw [← List.zipIdx_map_fst 0 xs, List.forall_mem_map]

theorem forall₂_zipIdx_fst {α β : Type} {r : α → β → Prop} {xs : List α} {ys : List β} :
    List.Forall₂ (fun x b => r x.1 b) xs.zipIdx ys ↔ List.Forall₂ r xs ys := by
  conv_rhs => rw [← List.zipIdx_map_fst 0 xs, List.forall₂_map_left_iff]

/-- A traversal of the parts, each at its place, goes part by part. -/
theorem partByPart_of_mapM {α : Type} {alone : α → Except ValidationError Validated}
    {build : List Validated → Validated} {place : α → Nat → Path} {parts : List α}
    {whole : Except ValidationError Validated}
    (h : whole = parts.zipIdx.mapM (fun x =>
      (alone x.1).mapError (ValidationError.within (place x.1 x.2))) >>=
        fun trees => .ok (build trees)) :
    PartByPart alone build place parts whole where
  succeeds_iff := by
    rw [h, exists_bind_ok_iff, exists_mapM_iff]
    simp only [mapError_eq_ok, forall_mem_zipIdx_fst (P := fun a => ∃ t, alone a = .ok t)]
  tree_iff tree := by
    rw [h, bind_eq_ok]
    simp only [mapM_ok_forall₂, mapError_eq_ok, Except.ok.injEq, eq_comm (a := tree)]
    exact exists_congr fun trees => and_congr_left'
      (forall₂_zipIdx_fst (r := fun a t => alone a = .ok t))
  error_iff e := by
    rw [h, bind_eq_error]
    simp only [mapM_eq_error, mapError_eq_ok, mapError_eq_error, reduceCtorEq, and_false,
      exists_false, or_false]
    constructor
    · rintro ⟨before, ⟨a, i⟩, after, hparts, hok, e', ha, rfl⟩
      obtain ⟨before, rest, rfl, rfl, hrest⟩ := List.zipIdx_eq_append_iff.mp hparts
      obtain ⟨a, after, rfl, ⟨⟩, rfl⟩ := List.zipIdx_eq_cons_iff.mp hrest.symm
      rw [Nat.zero_add]
      exact ⟨before, a, after, e', rfl, forall_mem_zipIdx_fst.mp hok, ha, rfl⟩
    · rintro ⟨before, a, after, e', rfl, hok, ha, rfl⟩
      refine ⟨before.zipIdx, (a, before.length), after.zipIdx (before.length + 1), ?_,
        forall_mem_zipIdx_fst.mpr hok, e', ha, rfl⟩
      rw [List.zipIdx_append, Nat.zero_add, List.zipIdx_cons]

namespace Validation

variable {w : Validation} {place : Path} {type : FieldType}

theorem visitItems_eq_mapM (items : List Value) (i : Nat) :
    visitItems w items place type i =
      (items.zipIdx i).mapM fun x => visit w x.1 (place.push (.index x.2)) type := by
  induction items generalizing i with
  | nil => rfl
  | cons v rest ih => rw [visitItems, List.zipIdx_cons, List.mapM_cons, ih]

theorem visitEntries_eq_mapM {key : FieldType} {entries : List (String × Value)}
    (hk : ∀ entry ∈ entries, w.acceptsKey key entry.1 = true) (i : Nat) :
    visitEntries w entries place key type =
      (entries.zipIdx i).mapM (fun x => visit w x.1.2 (place.push (.key x.1.1)) type) >>=
        fun trees => .ok (entries.zipWith (fun entry t => (entry.1, t)) trees) := by
  induction entries generalizing i with
  | nil => rfl
  | cons entry rest ih =>
    obtain ⟨k, v⟩ := entry
    obtain ⟨hk, hr⟩ := List.forall_mem_cons.mp hk
    simp only [visitEntries, hk, if_true, List.zipIdx_cons, List.mapM_cons, ih hr (i + 1),
      bind_assoc]
    rfl

end Validation

/-! ### Parts alone -/

namespace Schema

variable {schema : Schema} {settings : Settings} {type : FieldType} {u : Value} {place : Path}

/-- A part is visited as it is validated alone. -/
theorem Complete.visit_eq_alone (hw : schema.Complete) (hr : schema.Rootless) (root : Value)
    (hd : place.depth + u.height ≤ settings.maxDepth) :
    visit ⟨schema, settings, root⟩ u place type =
      (schema.validate settings type u).mapError (ValidationError.within place) := by
  -- Alone the part needs a limit of its height only, so the greater one makes no difference.
  let least := settings.withLimit u.height
  have never : ∀ path l, schema.validate least type u ≠ .error (.depthExceeded path l) :=
    validate_ne_depthExceeded (Nat.le_refl _)
  have hu : u.height ≤ settings.maxDepth := Nat.le_trans (Nat.le_add_left ..) hd
  have alone : schema.validate settings type u = schema.validate least type u :=
    validate_withLimit hu never
  have hg : Relocates place.within least.maxDepth settings.maxDepth := by
    refine ⟨fun path step => by simp [Path.within, Path.push], fun path hp => ?_⟩
    calc (place.within path).depth
        = place.depth + path.depth := List.length_append
      _ ≤ place.depth + u.height := Nat.add_le_add_left hp _
      _ ≤ settings.maxDepth := hd
  have hstart : place.within ⟨type.rootName, []⟩ = place := by simp [Path.within]
  have hc : Carried place.within (schema.validate least type u)
      (visit ⟨schema, settings, u⟩ u (place.within ⟨type.rootName, []⟩) type) :=
    carried_visit (w := ⟨schema, least, u⟩) hg u ⟨type.rootName, []⟩ type
  rw [sameVisit_of_rootless (w := ⟨schema, settings, root⟩) hw hr u u type place, alone]
  rw [hstart] at hc
  exact hc.eq_mapError never

variable {item : FieldType} {items : List Value} {entries : List (String × Value)}

theorem Complete.validate_list (hw : schema.Complete) (hr : schema.Rootless)
    (hd : (Value.list items).height ≤ settings.maxDepth) :
    PartByPart (schema.validate settings item) .list (fun _ i => ⟨"root", [.index i]⟩) items
      (schema.validate settings (.list item) (.list items)) := by
  apply partByPart_of_mapM
  have hz : checkDepth ⟨schema, settings, .list items⟩ ⟨"root", []⟩ = .ok () :=
    checkDepth_eq_ok.mpr (Nat.zero_le _)
  rw [validate, visit_list, FieldType.rootName, hz, ok_bind, visitItems_eq_mapM]
  · congr 1
    refine mapM_congr fun x hx => hw.visit_eq_alone hr _ (Nat.le_trans ?_ hd)
    rw [Value.height]
    exact Nat.add_le_add_left (Value.height_le_heightOfItems (List.fst_mem_of_mem_zipIdx hx)) 1
  all_goals simp

theorem acceptsKey_string (w : Validation) (key : String) : w.acceptsKey .string key = true := rfl

theorem Complete.validate_map (hw : schema.Complete) (hr : schema.Rootless)
    (hd : (Value.map entries).height ≤ settings.maxDepth) :
    PartByPart (fun entry => schema.validate settings item entry.2)
      (fun trees => .map (entries.zipWith (fun entry t => (entry.1, t)) trees))
      (fun entry _ => ⟨"root", [.key entry.1]⟩) entries
      (schema.validate settings (.map .string item) (.map entries)) := by
  apply partByPart_of_mapM
  have hz : checkDepth ⟨schema, settings, .map entries⟩ ⟨"root", []⟩ = .ok () :=
    checkDepth_eq_ok.mpr (Nat.zero_le _)
  rw [validate, visit_map, FieldType.rootName, hz, ok_bind,
    visitEntries_eq_mapM (fun entry _ => acceptsKey_string _ entry.1) 0, bind_assoc]
  · congr 1
    refine mapM_congr fun x hx => hw.visit_eq_alone hr _ (Nat.le_trans ?_ hd)
    rw [Value.height]
    have hm := List.mem_map_of_mem (f := (·.2)) (List.fst_mem_of_mem_zipIdx hx)
    exact Nat.add_le_add_left (Value.height_le_heightOfEntries hm) 1
  all_goals simp

theorem child?_wrap_object (hasChecks : Bool) (checks : Checks) (name : String)
    (fields : List (String × Validated)) (n : String) :
    (wrap hasChecks checks (.object name fields)).child? (.field n) = Fields.find? n fields := by
  cases hasChecks <;> rfl

variable {name : String} {c : OrderedClass} {fields : List (String × Value)} {f : Field}

/-- The visit of a declared field of an outermost object. -/
theorem Complete.visit_field (hw : schema.Complete) (hr : schema.Rootless)
    (hd : (Value.object name fields).height ≤ settings.maxDepth)
    (hu : fieldValue? fields f = some u) :
    visit ⟨schema, settings, .object name fields⟩ u ⟨name, [.field f.name]⟩ f.type =
      (schema.validate settings f.type u).mapError
        (ValidationError.within ⟨name, [.field f.name]⟩) := by
  refine hw.visit_eq_alone hr _ (Nat.le_trans ?_ hd)
  rw [Nat.add_comm]
  exact Value.height_of_fieldValue? hu

/-- A declared field of an object that is validated has the tree of its value alone, inside the
checks of the field. -/
theorem Complete.child?_of_validate (hw : schema.Complete) (hr : schema.Rootless)
    (hc : schema.class? name = some c)
    (hd : (Value.object name fields).height ≤ settings.maxDepth) {tree : Validated}
    (h : schema.validate settings (.class name) (.object name fields) = .ok tree)
    (hf : f ∈ c.fields) :
    ∃ u node checks, fieldValue? fields f = some u ∧
      schema.validate settings f.type u = .ok node ∧
      tree.child? (.field f.name) = some (wrap f.hasChecks checks node) := by
  obtain ⟨hm, -⟩ := mem_of_class? hc
  obtain ⟨values, nodes, hv, rfl⟩ := Derivation.of_object hc (derivation_of_visit hw h)
  obtain ⟨hu, hn⟩ := hv f hf
  have alone := (hw.visit_field hr hd hu).symm.trans (hn.visit hw)
  have hchild : (objectTree ⟨schema, settings, .object name fields⟩ c.toClass fields values
      nodes).child? (.field f.name) = some (fieldTree ⟨schema, settings, .object name fields⟩
        c.toClass fields f (values f) (nodes f)) := by
    rw [objectTree, child?_wrap_object, find?_arranged, (hw c hm).field?_of_mem hf]
  exact ⟨values f, nodes f, _, hu, mapError_eq_ok.mp alone, hchild⟩

/-- An object fails if the value of a declared field does alone. -/
theorem Complete.validate_of_field_error (hw : schema.Complete) (hr : schema.Rootless)
    (hc : schema.class? name = some c)
    (hd : (Value.object name fields).height ≤ settings.maxDepth) (hf : f ∈ c.fields)
    (hu : fieldValue? fields f = some u) {e : ValidationError}
    (h : schema.validate settings f.type u = .error e) :
    ∃ e', schema.validate settings (.class name) (.object name fields) = .error e' := by
  cases hv : schema.validate settings (.class name) (.object name fields) with
  | error e' => exact ⟨e', rfl⟩
  | ok tree =>
    obtain ⟨u', node, _, hu', hn, -⟩ := hw.child?_of_validate hr hc hd hv hf
    cases hu.symm.trans hu'
    cases h.symm.trans hn

/-- Where no constraint reads the outermost value, validation is local. Lists, and maps with strings
as keys, are validated part by part; the errors of the parts lead on from the index or the key. A
declared field of an object has the tree of its value alone, inside the checks of the field, and
the object fails if the value does alone. -/
theorem Built.validate_local (h : schema.Built) (hr : schema.Rootless) (settings : Settings) :
    (∀ item items, (Value.list items).height ≤ settings.maxDepth →
      PartByPart (schema.validate settings item) .list (fun _ i => ⟨"root", [.index i]⟩) items
        (schema.validate settings (.list item) (.list items))) ∧
    (∀ item entries, (Value.map entries).height ≤ settings.maxDepth →
      PartByPart (fun entry => schema.validate settings item entry.2)
        (fun trees => .map (entries.zipWith (fun entry t => (entry.1, t)) trees))
        (fun entry _ => ⟨"root", [.key entry.1]⟩) entries
        (schema.validate settings (.map .string item) (.map entries))) ∧
    ∀ name c fields, schema.class? name = some c →
      (Value.object name fields).height ≤ settings.maxDepth → ∀ f ∈ c.fields,
        (∀ tree, schema.validate settings (.class name) (.object name fields) = .ok tree →
          ∃ u node checks, fieldValue? fields f = some u ∧
            schema.validate settings f.type u = .ok node ∧
            tree.child? (.field f.name) = some (wrap f.hasChecks checks node)) ∧
        ∀ u e, fieldValue? fields f = some u → schema.validate settings f.type u = .error e →
          ∃ e', schema.validate settings (.class name) (.object name fields) = .error e' :=
  ⟨fun _ _ hd => h.complete.validate_list hr hd, fun _ _ hd => h.complete.validate_map hr hd,
    fun _ _ _ hc hd _ hf => ⟨fun _ ht => h.complete.child?_of_validate hr hc hd ht hf,
      fun _ _ hu he => h.complete.validate_of_field_error hr hc hd hf hu he⟩⟩

/-- Two objects of a class, of which the second breaks the assertion on its field: in a list the
place of the error is in the second item, in a map the first one has the tree that it has alone. -/
theorem exists_validate_local :
    let item : ClassDecl := ⟨"Item", [⟨"amount", .int,
      [⟨.assert, "positive", "this > 0", none⟩, ⟨.check, "small", "this < 10", none⟩]⟩], []⟩
    let good : Value := .object "Item" [("amount", .int 3)]
    let bad : Value := .object "Item" [("amount", .int (-3))]
    let settings := Settings.mk 2 false true
    ∃ schema tree e node checks, Schema.ofDeclarations [.class item] = .ok schema ∧
      schema.Built ∧ schema.Rootless ∧
      (Value.list [good, bad]).height ≤ settings.maxDepth ∧
      (Value.map [("a", good)]).height ≤ settings.maxDepth ∧
      schema.validate settings (.class "Item") good = .ok tree ∧
      schema.validate settings (.class "Item") bad = .error e ∧
      schema.validate settings (.list (.class "Item")) (.list [good, bad]) =
        .error (e.within ⟨"root", [.index 1]⟩) ∧
      schema.validate settings (.map .string (.class "Item")) (.map [("a", good)]) =
        .ok (.map [("a", tree)]) ∧
      schema.validate settings .int (.int 3) = .ok node ∧
      tree.child? (.field "amount") = some (.checked node checks) := by
  intro item good bad settings
  have hs : (Schema.ofDeclarations [.class item]).toOption.any (fun schema =>
      (decide schema.Rootless && (schema.validate settings (.class "Item") good).isOk) &&
        (failsWith (fun _ => true) (schema.validate settings (.class "Item") bad) &&
          (schema.class? "Item").any fun c => c.fields.any fun f =>
            f.name == "amount" && (f.type.tag? == some .int && f.hasChecks))) = true := by
    decide +kernel
  obtain ⟨schema, hs, hall⟩ := toOption_any_iff.mp hs
  simp only [Bool.and_eq_true, Option.any_eq_true, List.any_eq_true, decide_eq_true_eq,
    beq_iff_eq, isOk_iff, failsWith_iff] at hall
  obtain ⟨⟨hr, tree, ht⟩, ⟨e, he, -⟩, c, hc, f, hf, hname, htag, hchecks⟩ := hall
  have hb := Schema.built_of_declarations hs
  have hlist : (Value.list [good, bad]).height ≤ settings.maxDepth := by decide +kernel
  have hmap : (Value.map [("a", good)]).height ≤ settings.maxDepth := by decide +kernel
  have hobject : good.height ≤ settings.maxDepth := by decide +kernel
  obtain ⟨lists, maps, objects⟩ := hb.validate_local hr settings
  obtain ⟨u, node, checks, hu, hn, hchild⟩ := (objects "Item" c _ hc hobject f hf).1 tree ht
  have hint : f.type = .int :=
    FieldType.eq_of_tag?_eq (b := .int) htag (by simp [htag]) (by simp [htag]) (by simp [htag])
  have hthree : u = .int 3 := by
    rw [fieldValue?, hname] at hu
    exact (Option.some.inj hu).symm
  rw [hint, hthree] at hn
  rw [hname, hchecks] at hchild
  refine ⟨schema, tree, e, node, checks, hs, hb, hr, hlist, hmap, ht, he, ?_, ?_, hn, hchild⟩
  · exact ((lists (.class "Item") [good, bad] hlist).error_iff _).mpr
      ⟨[good], bad, [], e, rfl, by simpa using ⟨tree, ht⟩, he, rfl⟩
  · exact ((maps (.class "Item") [("a", good)] hmap).tree_iff _).mpr
      ⟨[tree], .cons ht .nil, rfl⟩

end Schema

end RecordCheck

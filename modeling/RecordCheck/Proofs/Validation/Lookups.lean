import RecordCheck.Proofs.Schema.Building
import RecordCheck.Proofs.Validation.Acceptance
import RecordCheck.Proofs.Validation.Failures
import RecordCheck.Proofs.Validation.Walks

/-! Names of types that a validation comes upon are declared: those in the type that it starts with,
and so those in the fields of every class that it enters. -/

namespace RecordCheck

open Validation Results

/-! ### Declared names -/

namespace FieldType

mutual

theorem Mentions.of_mem_variants {a : FieldType} {tag : Tag} (h : a.Mentions tag)
    (type : FieldType) (ha : a ∈ type.variants) : type.Mentions tag := by
  match type with
  | .union members =>
    obtain ⟨member, hm, hmt⟩ := h.of_mem_variantsOf members ha
    exact .member hm hmt
  | .optional inner =>
    rcases List.mem_append.mp ha with ha | ha
    · exact .base (h.of_mem_variants inner ha)
    · rw [List.mem_singleton.mp ha] at h
      cases h
  | .null | .bool | .int | .float | .string | .enum _ | .class _ | .list _ | .map _ _ =>
    rw [variants_of_tag rfl, List.mem_singleton] at ha
    exact ha ▸ h

theorem Mentions.of_mem_variantsOf {a : FieldType} {tag : Tag} (h : a.Mentions tag)
    (types : List FieldType) (ha : a ∈ variantsOf types) : ∃ type ∈ types, type.Mentions tag := by
  match types with
  | [] => cases ha
  | type :: rest =>
    rcases List.mem_append.mp ha with ha | ha
    · exact ⟨type, List.mem_cons_self .., h.of_mem_variants type ha⟩
    · obtain ⟨member, hm, hmt⟩ := h.of_mem_variantsOf rest ha
      exact ⟨member, List.mem_cons_of_mem _ hm, hmt⟩

end

end FieldType

namespace Schema

variable {schema : Schema} {type : FieldType}

/-- A class or an enumeration has the name, as the tag says. -/
def Declares (schema : Schema) : Tag → Prop
  | .class name => ∃ c, schema.class? name = some c
  | .enum name => ∃ enum, schema.enum? name = some enum
  | _ => True

/-- All names in the type are declared. -/
def Resolves (schema : Schema) (type : FieldType) : Prop :=
  ∀ tag, type.Mentions tag → schema.Declares tag

/-- All names in the types of fields are declared. -/
def Closed (schema : Schema) : Prop := ∀ c ∈ schema.classes, ∀ f ∈ c.fields, schema.Resolves f.type

theorem Resolves.item (h : schema.Resolves (.list type)) : schema.Resolves type :=
  fun tag ht => h tag (.item ht)

theorem Resolves.key {key : FieldType} (h : schema.Resolves (.map key type)) :
    schema.Resolves key := fun tag ht => h tag (.key ht)

theorem Resolves.value {key : FieldType} (h : schema.Resolves (.map key type)) :
    schema.Resolves type := fun tag ht => h tag (.value ht)

theorem Resolves.variant {a : FieldType} (h : schema.Resolves type) (ha : a ∈ type.variants) :
    schema.Resolves a := fun tag ht => h tag (ht.of_mem_variants type ha)

theorem Built.closed (h : schema.Built) : schema.Closed := by
  obtain ⟨decls, -, hb⟩ := h
  obtain ⟨hclasses, henums⟩ := Declarations.build_keeps hb
  have declares (tag : Tag) (ht : decls.Declares tag) : schema.Declares tag := by
    cases tag with
    | «class» name =>
      obtain ⟨c, hc, hn⟩ := ht
      rw [← hclasses] at hc
      obtain ⟨o, ho, rfl⟩ := List.mem_map.mp hc
      rw [Declares, ← Option.isSome_iff_exists, class?, List.find?_isSome]
      exact ⟨o, ho, beq_iff_eq.mpr hn⟩
    | enum name =>
      obtain ⟨enum, he, hn⟩ := ht
      rw [← henums] at he
      rw [Declares, ← Option.isSome_iff_exists, enum?, List.find?_isSome]
      exact ⟨enum, he, beq_iff_eq.mpr hn⟩
    | _ => trivial
  intro c hc f hf tag ht
  have hm : c.toClass ∈ decls.classes := hclasses ▸ List.mem_map_of_mem hc
  have hfield := (Declarations.build_eq_ok.mp hb).1 _ hm f hf
  exact declares tag ((Declarations.checkField_eq_ok.mp hfield).1 tag ht)

end Schema

/-! ### Answers -/

variable {w : Validation}

/-- The question is about what is declared, and the answer is what the declarations say. -/
def Query.Answered (w : Validation) : Query → Prop
  | .class name => ∃ c, w.schema.class? name = some c
  | .member name v => ∃ enum, w.schema.enum? name = some enum ∧
      ∀ path tree, w.leaf path (.enum name) v = .ok tree ↔
        tree = .scalar v ∧ ∃ variant ∈ enum.variants, v = .member name variant
  | .key type k =>
      (∀ name, .enum name ∈ type.variants → ∃ enum, w.schema.enum? name = some enum) ∧
        (w.acceptsKey type k = true ↔ w.schema.IsKey type k)

namespace Query

theorem answered_class {name : String} (h : w.schema.Resolves (.class name)) :
    (Query.class name).Answered w := h _ (.class name)

theorem answered_member {name : String} (h : w.schema.Resolves (.enum name)) (v : Value) :
    (member name v).Answered w := by
  obtain ⟨enum, he⟩ := h _ (.enum name)
  refine ⟨enum, he, fun path tree => ?_⟩
  rw [leaf_enum_eq_ok, and_comm, and_congr_right_iff]
  intro _
  constructor
  · intro hs
    cases hs with
    | member he' hv =>
      cases he.symm.trans he'
      exact ⟨_, hv, rfl⟩
  · intro hs
    obtain ⟨variant, hv, rfl⟩ := hs
    exact .member he hv

theorem answered_key {type : FieldType} (h : w.schema.Resolves type) (k : String) :
    (Query.key type k).Answered w :=
  ⟨fun name hn => h.variant hn _ (.enum name), acceptsKey_iff⟩

end Query

/-! ### Walks -/

namespace Walk

variable {α β : Type}

/-- All questions that the walk asks are about what is declared, and it misses no class. -/
structure Resolved (w : Validation) (m : Walk α) : Prop where
  answered : ∀ query ∈ m.queries w, query.Answered w
  known : ∀ name, m.run w ≠ .error (.unknownClass name)

theorem Resolved.done {result : Except ValidationError α}
    (h : ∀ name, result ≠ .error (.unknownClass name)) : (done result).Resolved w where
  answered := by simp [queries]
  known := h

theorem Resolved.pure (a : α) : (pure a : Walk α).Resolved w := .done fun _ h => by cases h

theorem Resolved.mismatch (path : Path) (expected found : String) :
    (Walk.done (Validation.mismatch path expected found) : Walk α).Resolved w :=
  .done fun _ h => by cases h

theorem Resolved.ask {query : Query} {next : query.Answer → Walk α} (h : query.Answered w)
    (hn : (next (w.answer query)).Resolved w) : (ask query next).Resolved w where
  answered := List.forall_mem_cons.mpr ⟨h, hn.answered⟩
  known := hn.known

theorem Resolved.askClass {name : String} (h : w.schema.Resolves (.class name)) :
    (askClass name).Resolved w := .ask (Query.answered_class h) (.pure _)

theorem Resolved.askMember {name : String} (h : w.schema.Resolves (.enum name)) (v : Value) :
    (askMember name v).Resolved w := .ask (Query.answered_member h v) (.pure _)

theorem Resolved.askKey {type : FieldType} (h : w.schema.Resolves type) (k : String) :
    (askKey type k).Resolved w := .ask (Query.answered_key h k) (.pure _)

theorem Resolved.bind {m : Walk α} {f : α → Walk β} (h : m.Resolved w)
    (hf : ∀ a, m.run w = .ok a → (f a).Resolved w) : (m >>= f).Resolved w := by
  induction m with
  | done result =>
    cases result with
    | ok a => exact hf a rfl
    | error e => exact .done fun name hn => h.known name (by cases hn; rfl)
  | ask query next ih =>
    obtain ⟨hq, hn⟩ := List.forall_mem_cons.mp h.answered
    exact .ask hq (ih (w.answer query) ⟨hn, h.known⟩ hf)

theorem Resolved.forEach {f : α → Walk β} {xs : List α} (h : ∀ a ∈ xs, (f a).Resolved w) :
    (forEach f xs).Resolved w := by
  induction xs with
  | nil => exact .pure []
  | cons a rest ih =>
    obtain ⟨ha, hr⟩ := List.forall_mem_cons.mp h
    exact ha.bind fun b _ => (ih hr).bind fun bs _ => .pure (b :: bs)

end Walk

namespace Validation

open Walk

variable {path : Path} {type : FieldType} {v : Value}

theorem resolved_runConstraints (path : Path) (ctx : Eval.Context) (tag : Option Tag)
    (ks : List Constraint) :
    (done (w.settings.runConstraints path ctx tag ks)).Resolved w := by
  refine .done fun name h => ?_
  obtain ⟨_, k, _, -, -, -, hb⟩ := Settings.runConstraints_eq_error.mp h
  cases hb

theorem mem_variants_of_alternative {a : FieldType} (h : alternative path type v = .ok a) :
    a ∈ type.variants := by
  by_cases ht : type.tag?.isSome
  · rw [alternative_of_tag ht] at h
    cases h
    simp [FieldType.variants_of_tag ht]
  · rw [alternative_of_choice (by simpa using ht)] at h
    split at h
    next b hb =>
      cases h
      exact (FieldType.select?_spec hb).1
    next => cases h

theorem alternative_ne_unknownClass (name : String) :
    alternative path type v ≠ .error (.unknownClass name) := by
  intro h
  by_cases ht : type.tag?.isSome
  · rw [alternative_of_tag ht] at h
    cases h
  · rw [alternative_of_choice (by simpa using ht)] at h
    split at h <;> cases h

theorem resolved_walkEnter : (walkEnter w.settings path type v).Resolved w := by
  rw [walkEnter]
  split
  next => exact .done fun _ h => by cases h
  next => exact .done alternative_ne_unknownClass

/-- Names in the alternative are names in the type. -/
theorem resolves_of_walkEnter {schema : Schema} {a : FieldType} (h : schema.Resolves type)
    (ha : (walkEnter w.settings path type v).run w = .ok a) : schema.Resolves a := by
  rw [walkEnter] at ha
  split at ha
  next => cases ha
  next => exact h.variant (mem_variants_of_alternative ha)

theorem resolved_walkLeaf (h : w.schema.Resolves type) : (walkLeaf path type v).Resolved w := by
  cases type with
  | enum name =>
    refine (Resolved.askMember h v).bind fun member _ => ?_
    split
    next => exact .pure _
    next => exact .mismatch ..
  | «class» name =>
    refine (Resolved.askClass h).bind fun c hc => ?_
    cases c with
    | none =>
      obtain ⟨o, ho⟩ := Query.answered_class h
      rw [run_askClass, ho] at hc
      cases hc
    | some c => exact .mismatch ..
  | list _ | map _ _ => exact .mismatch ..
  | null | bool | int | float | string | union _ | optional _ =>
    refine .done fun name hn => ?_
    split at hn <;> cases hn

/-! ### Values -/

/-- The walk through the value is resolved wherever all names in the type are. -/
def Reads (w : Validation) (v : Value) : Prop :=
  ∀ path type, w.schema.Resolves type → (walk w.settings w.root v path type).Resolved w

theorem resolved_walkItems {items : List Value} (hi : ∀ u ∈ items, Reads w u)
    (h : w.schema.Resolves type) (i : Nat) :
    (walkItems w.settings w.root items path type i).Resolved w := by
  induction items generalizing i with
  | nil => exact .pure []
  | cons u rest ih =>
    obtain ⟨hu, hr⟩ := List.forall_mem_cons.mp hi
    rw [walkItems]
    exact (hu _ _ h).bind fun node _ => (ih hr (i + 1)).bind fun nodes _ => .pure (node :: nodes)

theorem resolved_walkEntries {entries : List (String × Value)} {key : FieldType}
    (he : ∀ u ∈ entries.map (·.2), Reads w u) (hk : w.schema.Resolves key)
    (h : w.schema.Resolves type) :
    (walkEntries w.settings w.root entries path key type).Resolved w := by
  induction entries with
  | nil => exact .pure []
  | cons entry rest ih =>
    obtain ⟨k, u⟩ := entry
    obtain ⟨hu, hr⟩ := List.forall_mem_cons.mp he
    have hrest : (do
        let node ← walk w.settings w.root u (path.push (.key k)) type
        return (k, node) :: (← walkEntries w.settings w.root rest path key type)).Resolved w :=
      (hu _ _ h).bind fun node _ => (ih hr).bind fun nodes _ => .pure ((k, node) :: nodes)
    rw [walkEntries]
    refine (Resolved.askKey hk k).bind fun admitted _ => ?_
    split
    next => exact hrest
    next => exact (Resolved.mismatch ..).bind fun _ _ => hrest

theorem resolved_walkNode {place : Path} {fields : List (String × Value)} {f : Field}
    (hf : ∀ u ∈ fields.map (·.2), Reads w u) (h : w.schema.Resolves f.type) :
    (walkNode w.settings place (walks w.settings w.root fields) f).Resolved w := by
  rw [walkNode, find?_walks]
  cases hu : Fields.find? f.name fields with
  | some u => exact hf u (List.mem_map_of_mem (Fields.mem_of_find? hu)) _ _ h
  | none =>
    dsimp only [Option.map_none]
    split
    next =>
      exact resolved_walkEnter.bind fun a ha =>
        resolved_walkLeaf (resolves_of_walkEnter h ha)
    next => exact .mismatch ..

theorem resolved_walkObject {fields : List (String × Value)} {c : OrderedClass}
    (hf : ∀ u ∈ fields.map (·.2), Reads w u) (h : ∀ f ∈ c.fields, w.schema.Resolves f.type) :
    (walkObject w.settings w.root path c fields (walks w.settings w.root fields)).Resolved w := by
  have hfields : ∀ f ∈ c.fieldsInOrder, (walkField w.settings w.root path (fill c.toClass fields)
      fields (walks w.settings w.root fields) f).Resolved w := by
    intro f hm
    obtain ⟨i, -, hi⟩ := List.mem_filterMap.mp hm
    refine (resolved_walkNode hf (h f (List.mem_of_getElem? hi))).bind fun node _ => ?_
    exact (resolved_runConstraints ..).bind fun checks _ => .pure _
  rw [walkObject]
  refine (Resolved.forEach hfields).bind fun nodes _ => ?_
  exact (resolved_runConstraints ..).bind fun checks _ => .pure _

theorem resolved_walk (hc : w.schema.Closed) (v : Value) : Reads w v := by
  induction v using Value.induction_parts with
  | h v ih =>
    intro path type h
    cases v with
    | list items =>
      rw [walk]
      refine resolved_walkEnter.bind fun a ha => ?_
      have hr := resolves_of_walkEnter h ha
      cases a with
      | list item => exact (resolved_walkItems ih hr.item 0).bind fun nodes _ => .pure _
      | _ => exact resolved_walkLeaf hr
    | map entries =>
      rw [walk]
      refine resolved_walkEnter.bind fun a ha => ?_
      have hr := resolves_of_walkEnter h ha
      cases a with
      | map key item =>
        exact (resolved_walkEntries ih hr.key hr.value).bind fun nodes _ => .pure _
      | _ => exact resolved_walkLeaf hr
    | object className fields =>
      rw [walk]
      refine resolved_walkEnter.bind fun a ha => ?_
      have hr := resolves_of_walkEnter h ha
      cases a with
      | «class» name =>
        refine (Resolved.askClass hr).bind fun c hn => ?_
        rw [run_askClass, Except.ok.injEq] at hn
        cases c with
        | none =>
          obtain ⟨o, ho⟩ := Query.answered_class hr
          rw [ho] at hn
          cases hn
        | some c =>
          dsimp only
          split
          next => exact resolved_walkObject ih (hc c (Schema.mem_of_class? hn).1)
          next => exact .mismatch ..
      | _ => exact resolved_walkLeaf hr
    | _ =>
      simp only [walk]
      exact resolved_walkEnter.bind fun a ha => resolved_walkLeaf (resolves_of_walkEnter h ha)

end Validation

namespace Schema

/-- Of a type whose names are declared, a validation asks for nothing that is not declared. What it
refuses is refused by a declaration, and it misses no class. -/
theorem Built.queries_answered {schema : Schema} (h : schema.Built) {type : FieldType}
    (ht : schema.Resolves type) (settings : Settings) (v : Value) :
    let w : Validation := ⟨schema, settings, v⟩
    let m := walk settings v v ⟨type.rootName, []⟩ type
    m.run w = schema.validate settings type v ∧ (∀ query ∈ m.queries w, query.Answered w) ∧
      ∀ name, schema.validate settings type v ≠ .error (.unknownClass name) := by
  intro w m
  have hrun : m.run w = schema.validate settings type v := run_walk v _ type
  have hm : m.Resolved w := resolved_walk h.closed v _ type ht
  exact ⟨hrun, hm.answered, hrun ▸ hm.known⟩

/-- A class that holds others of its kind, and is declared before all that it names. Seven questions
are asked before a key is refused that is no variant. -/
theorem exists_queries_answered :
    let box : ClassDecl := ⟨"Box",
      [⟨"boxes", .optional (.list (.class "Box")), []⟩,
       ⟨"labels", .map (.enum "Language") (.union [.string, .class "Label"]), []⟩], []⟩
    let label : ClassDecl := ⟨"Label", [⟨"language", .enum "Language", []⟩], []⟩
    let languages : EnumType := ⟨"Language", ["EN", "FR"]⟩
    let v : Value := .object "Box"
      [("boxes", .list [.object "Box" [("labels", .map [("FR", .string "boîte")])]]),
       ("labels", .map [("EN", .object "Label" [("language", .member "Language" "FR")]),
         ("XX", .string "")])]
    let m := walk {} v v ⟨"Box", []⟩ (.class "Box")
    ∃ schema : Schema,
      Schema.ofDeclarations [.class box, .class label, .enum languages] = .ok schema ∧
      schema.Built ∧ schema.Resolves (.class "Box") ∧ (m.queries ⟨schema, {}, v⟩).length = 7 ∧
      (∀ query ∈ m.queries ⟨schema, {}, v⟩, query.Answered ⟨schema, {}, v⟩) ∧
      schema.validate {} (.class "Box") v = .error
        (.typeMismatch ⟨"Box", [.field "labels", .key "XX"]⟩ "Language" "key \"XX\"") := by
  intro box label languages v m
  have hs : (Schema.ofDeclarations [.class box, .class label, .enum languages]).toOption.any
      (fun schema => (schema.class? "Box").isSome &&
        ((m.queries ⟨schema, {}, v⟩).length == 7 &&
          failsWith (· == .typeMismatch ⟨"Box", [.field "labels", .key "XX"]⟩ "Language"
            "key \"XX\"") (schema.validate {} (.class "Box") v))) = true := by
    decide +kernel
  obtain ⟨schema, hs, hall⟩ := toOption_any_iff.mp hs
  simp only [Bool.and_eq_true, beq_iff_eq, failsWith_iff] at hall
  obtain ⟨hbox, hlen, e, hv, rfl⟩ := hall
  have hb := Schema.built_of_declarations hs
  have ht : schema.Resolves (.class "Box") := by
    intro tag h
    cases h
    exact Option.isSome_iff_exists.mp hbox
  exact ⟨schema, hs, hb, ht, hlen, (hb.queries_answered ht {} v).2.1, hv⟩

end Schema

end RecordCheck

import RecordCheck.Proofs.Validation.Acceptance

/-! A value of a union or optional type is validated as one of the alternative that it lives in.
So an alternative accepts it for the whole type unless another one of the same tag comes first. -/

namespace RecordCheck

open Validation

namespace FieldType

variable {type a : FieldType} {pre post : List FieldType} {v : Value}

/-- Types of one tag differ only if they are both lists or both maps. -/
theorem eq_of_tag?_eq {b : FieldType} (h : a.tag? = b.tag?) (hs : a.tag?.isSome)
    (hl : a.tag? ≠ some .list) (hm : a.tag? ≠ some .map) : a = b := by
  cases a with
  | list _ | map _ _ => simp [tag?] at hl hm
  | union _ | optional _ => simp [tag?] at hs
  | _ => cases b <;> simp_all [tag?]

theorem find?_first {p : FieldType → Bool} (ha : p a = true)
    (hp : ∀ b ∈ pre, p b = true → b = a) : (pre ++ a :: post).find? p = some a := by
  rw [List.find?_append]
  cases hf : pre.find? p with
  | some b => rw [hp b (List.mem_of_find?_eq_some hf) (List.find?_some hf), Option.some_or]
  | none => rw [Option.none_or, List.find?_cons_of_pos ha]

/-- A value that an alternative admits lives in it, if no other one of its tag comes first. An
integer may live in an alternative of its own instead of one for floats. -/
theorem select?_of_first (hv : type.variants = pre ++ a :: post)
    (hp : ∀ b ∈ pre, b.tag? = a.tag? → b = a) (ha : a.admits v = true) :
    type.select? v = some a ∨ a = .float ∧ type.select? v = some .int ∧ v.tag = .int := by
  by_cases hta : a.tag? = some v.tag
  · left
    have hf : type.variants.find? (fun b => b.tag? == some v.tag) = some a := by
      rw [hv]
      refine find?_first (by simpa using hta) fun b hb htb => hp b hb ?_
      rw [hta]
      simpa using htb
    rw [select?, hf]
  · -- Only floats admit values of another tag.
    have hw : a.tag? = some .float ∧ v.tag = .int := by simpa [admits, hta] using ha
    have hfloat : a = .float :=
      eq_of_tag?_eq (b := .float) hw.1 (by simp [hw]) (by simp [hw]) (by simp [hw])
    simp only [select?]
    split
    next b hb =>
      have htb : b.tag? = some .int := by simpa [hw.2] using List.find?_some hb
      have hint : b = .int :=
        eq_of_tag?_eq (b := .int) htb (by simp [htb]) (by simp [htb]) (by simp [htb])
      exact .inr ⟨hfloat, by rw [hint], hw.2⟩
    next hnone =>
      left
      rw [hv]
      refine find?_first ha fun b hb hadm => hp b hb ?_
      have hne : ¬ b.tag? = some v.tag := by
        have hn := List.find?_eq_none.mp hnone b (by simp [hv, hb])
        simpa using hn
      have htb : b.tag? = some .float ∧ v.tag = .int := by simpa [admits, hne] using hadm
      rw [htb.1, hw.1]

end FieldType

namespace Validation

variable {w : Validation} {path path' : Path} {type : FieldType} {v : Value} {tree : Validated}

/-- Where a value stands matters for its depth alone. -/
theorem Derivation.of_depth (h : Derivation w path type v tree) (hd : path'.depth = path.depth) :
    Derivation w path' type v tree := by
  induction h generalizing path' with
  | alternative ht hs _ ih => exact .alternative ht hs (ih hd)
  | scalar hle hs => exact .scalar (hd ▸ hle) hs
  | list hle _ ih =>
    exact .list (hd ▸ hle) fun i => ih i (by rw [depth_push, depth_push, hd])
  | map hle hk _ ih =>
    exact .map (hd ▸ hle) hk fun i => ih i (by rw [depth_push, depth_push, hd])
  | object hle hc hv _ hm ho ih =>
    exact .object (hd ▸ hle) hc hv
      (fun f hf => ih f hf (by rw [depth_push, depth_push, hd])) hm ho

/-- A type that is not a choice accepts only values that it admits. -/
theorem Derivation.admits_of_tag (h : Derivation w path type v tree) (ht : type.tag?.isSome) :
    type.admits v = true := by
  cases h with
  | alternative htn =>
    rw [htn] at ht
    cases ht
  | scalar _ hs => cases hs <;> simp [FieldType.admits, FieldType.tag?, Value.tag]
  | list | map | object => exact FieldType.admits_of_tag rfl

end Validation

namespace Schema

variable {schema : Schema} {settings : Settings} {type : FieldType} {v : Value} {tree : Validated}

/-- A validation has a derivation at any place of depth zero. -/
theorem Complete.validate_eq_ok_iff (h : schema.Complete) (root : String) :
    schema.validate settings type v = .ok tree ↔
      Derivation ⟨schema, settings, v⟩ ⟨root, []⟩ type v tree := by
  rw [validate, ← derivation_iff (w := ⟨schema, settings, v⟩) h]
  exact ⟨fun hd => hd.of_depth rfl, fun hd => hd.of_depth rfl⟩

/-- A union or optional type accepts what one of its alternatives accepts, with the same tree, if
no other alternative of the same tag comes before that one. Only lists and maps have others of
their tag. What the type accepts, the alternative that the value lives in accepts, with the same
tree. -/
theorem Built.validate_of_alternative (h : schema.Built) (settings : Settings)
    (ht : type.tag? = none) (v : Value) (tree : Validated) :
    (∀ pre a post, type.variants = pre ++ a :: post → (∀ b ∈ pre, b.tag? = a.tag? → b = a) →
      schema.validate settings a v = .ok tree → schema.validate settings type v = .ok tree) ∧
    (∀ a ∈ type.variants, a.tag? ≠ some .list → a.tag? ≠ some .map →
      schema.validate settings a v = .ok tree → schema.validate settings type v = .ok tree) ∧
    (schema.validate settings type v = .ok tree →
      ∃ a ∈ type.variants, type.select? v = some a ∧
        schema.validate settings a v = .ok tree) := by
  have first (pre : List FieldType) (a : FieldType) (post : List FieldType)
      (hv : type.variants = pre ++ a :: post) (hp : ∀ b ∈ pre, b.tag? = a.tag? → b = a)
      (ha : schema.validate settings a v = .ok tree) :
      schema.validate settings type v = .ok tree := by
    have hd := (h.complete.validate_eq_ok_iff "root").mp ha
    have hta := FieldType.tag_of_mem_variants type a (by simp [hv])
    refine (h.complete.validate_eq_ok_iff "root").mpr ?_
    rcases FieldType.select?_of_first hv hp (hd.admits_of_tag hta) with hs | ⟨rfl, hs, htv⟩
    · exact .alternative ht hs hd
    · cases hd with
      | alternative htn => cases htn
      | scalar hle hsc =>
        refine .alternative ht hs (.scalar hle ?_)
        cases hsc with
        | float => cases htv
        | widened => exact .int _
  refine ⟨first, fun a ha hl hm hok => ?_, fun hok => ?_⟩
  · obtain ⟨pre, post, hv⟩ := List.append_of_mem ha
    refine first pre a post hv (fun b _ hb => ?_) hok
    exact (FieldType.eq_of_tag?_eq hb.symm (FieldType.tag_of_mem_variants type a ha) hl hm).symm
  · cases (h.complete.validate_eq_ok_iff "root").mp hok with
    | @alternative _ _ a _ _ _ hs hd =>
      exact ⟨a, (FieldType.select?_spec hs).1, hs,
        (h.complete.validate_eq_ok_iff "root").mpr hd⟩
    | scalar _ hs => cases hs <;> cases ht
    | _ => cases ht

/-- A list stands before the map that accepts the value, and a class after both. -/
theorem exists_validate_of_alternative :
    let point : ClassDecl := ⟨"Point", [⟨"x", .int, []⟩], []⟩
    let type : FieldType := .optional (.union [.list .int, .map .string (.list .float),
      .class "Point", .map .string .string])
    let v : Value := .map [("a", .list [.int 1])]
    ∃ (schema : Schema) (tree : Validated),
      Schema.ofDeclarations [.class point] = .ok schema ∧ schema.Built ∧ type.tag? = none ∧
      schema.validate (Settings.mk 2 false true) (.map .string (.list .float)) v = .ok tree ∧
      schema.validate (Settings.mk 2 false true) type v = .ok tree := by
  intro point type v
  have hs : (Schema.ofDeclarations [.class point]).toOption.any (fun schema =>
      (schema.validate (Settings.mk 2 false true) (.map .string (.list .float)) v).isOk) =
      true := by
    decide +kernel
  obtain ⟨schema, hs, hok⟩ := Results.toOption_any_iff.mp hs
  obtain ⟨tree, ha⟩ := Results.isOk_iff.mp hok
  have hb := Schema.built_of_declarations hs
  have ht : type.tag? = none := rfl
  refine ⟨schema, tree, hs, hb, ht, ha, ?_⟩
  refine (hb.validate_of_alternative (Settings.mk 2 false true) ht v tree).1 [.list .int] _ _ rfl
    (fun b hm htag => ?_) ha
  rw [List.mem_singleton.mp hm] at htag
  cases htag

/-- The first alternative for lists is tried alone: strings are not accepted where integers come
first, although the other alternative accepts them. -/
theorem exists_validate_of_alternative_error :
    let type : FieldType := .union [.list .int, .list .string]
    let v : Value := .list [.string "a"]
    ∃ (schema : Schema) (tree : Validated),
      Schema.ofDeclarations [] = .ok schema ∧ schema.Built ∧ .list .string ∈ type.variants ∧
      schema.validate (Settings.mk 128 false true) (.list .string) v = .ok tree ∧
      ∀ tree', schema.validate (Settings.mk 128 false true) type v ≠ .ok tree' := by
  intro type v
  have hs : (Schema.ofDeclarations []).toOption.any (fun schema =>
      (schema.validate (Settings.mk 128 false true) (.list .string) v).isOk &&
        !(schema.validate (Settings.mk 128 false true) type v).isOk) = true := by
    decide +kernel
  obtain ⟨schema, hs, hall⟩ := Results.toOption_any_iff.mp hs
  obtain ⟨hok, hno⟩ := Bool.and_eq_true_iff.mp hall
  obtain ⟨tree, ha⟩ := Results.isOk_iff.mp hok
  refine ⟨schema, tree, hs, Schema.built_of_declarations hs, by simp [type, FieldType.variants,
    FieldType.variantsOf], ha, fun tree' ht => ?_⟩
  rw [ht] at hno
  cases hno

end Schema

end RecordCheck

import RecordCheck.Proofs.Schema.Built

/-! The names of classes and enumerations that stand in a type, and their declarations. -/

namespace RecordCheck

namespace FieldType

/-- The tag of a class or an enumeration whose name stands anywhere in the type. -/
inductive Mentions : FieldType → Tag → Prop where
  | enum (name) : Mentions (.enum name) (.enum name)
  | class (name) : Mentions (.class name) (.class name)
  | item {type tag} (h : Mentions type tag) : Mentions (.list type) tag
  | key {key type tag} (h : Mentions key tag) : Mentions (.map key type) tag
  | value {key type tag} (h : Mentions type tag) : Mentions (.map key type) tag
  | member {members type tag} (hm : type ∈ members) (h : Mentions type tag) :
      Mentions (.union members) tag
  | base {type tag} (h : Mentions type tag) : Mentions (.optional type) tag

end FieldType

namespace Declarations

open FieldType

variable {tag : Tag}

mutual

theorem mem_namedTags_iff (type : FieldType) : tag ∈ namedTags type ↔ type.Mentions tag := by
  match type with
  | .enum name =>
    rw [namedTags, List.mem_singleton]
    exact ⟨fun h => h ▸ .enum name, fun h => by cases h; rfl⟩
  | .class name =>
    rw [namedTags, List.mem_singleton]
    exact ⟨fun h => h ▸ .class name, fun h => by cases h; rfl⟩
  | .list item =>
    rw [namedTags, mem_namedTags_iff item]
    exact ⟨.item, fun h => by cases h; assumption⟩
  | .map key value =>
    rw [namedTags, List.mem_append, mem_namedTags_iff key, mem_namedTags_iff value]
    constructor
    · intro h
      rcases h with h | h
      · exact .key h
      · exact .value h
    · intro h
      cases h with
      | key h => exact .inl h
      | value h => exact .inr h
  | .union members =>
    rw [namedTags, mem_namedTagsOf_iff members]
    constructor
    · intro h
      obtain ⟨type, hm, h⟩ := h
      exact .member hm h
    · intro h
      cases h with
      | member hm h => exact ⟨_, hm, h⟩
  | .optional base =>
    rw [namedTags, mem_namedTags_iff base]
    exact ⟨.base, fun h => by cases h; assumption⟩
  | .null | .bool | .int | .float | .string =>
    simp only [namedTags, List.not_mem_nil, false_iff]
    intro h
    cases h

theorem mem_namedTagsOf_iff (types : List FieldType) :
    tag ∈ namedTagsOf types ↔ ∃ type ∈ types, type.Mentions tag := by
  match types with
  | [] => simp [namedTagsOf]
  | type :: rest =>
    rw [namedTagsOf, List.mem_append, mem_namedTags_iff type, mem_namedTagsOf_iff rest,
      List.exists_mem_cons_iff]

end

/-- A class or an enumeration is declared under the name, as the tag says. -/
def Declares (decls : Declarations) : Tag → Prop
  | .class name => ∃ c ∈ decls.classes, c.name = name
  | .enum name => ∃ enum ∈ decls.enums, enum.name = name
  | _ => True

theorem declares_iff {decls : Declarations} : decls.declares tag = true ↔ decls.Declares tag := by
  cases tag <;> simp [declares, Declares, hasClass, hasEnum]

end Declarations

end RecordCheck

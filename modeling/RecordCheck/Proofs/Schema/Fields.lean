import Mathlib.Data.List.Induction
import Mathlib.Data.List.Perm.Basic
import RecordCheck.Proofs.Expr.References
import RecordCheck.Proofs.Schema.Built

/-! The fields of a class in their order of evaluation. -/

namespace RecordCheck

/-- Some constraint of the field takes the other one from the object, or reads the object as a
whole. -/
def Field.Reads (f g : Field) : Prop :=
  ∃ l ∈ f.constraints, l.formula.expr.readsWhole .block = true ∨
    ∃ e ∈ l.formula.expr.subterms, e.access? .block = some g.name

theorem Field.reads_iff {f g : Field} : Declarations.reads f g = true ↔ f.Reads g := by
  simp [Declarations.reads, Field.Reads, Formula.readsWholeBlock, Formula.blockReferences,
    Expr.mem_references]

/-- No name stands twice, and every field is evaluated once. -/
structure OrderedClass.Complete (c : OrderedClass) : Prop where
  names_nodup : (c.fields.map (·.name)).Nodup
  order_perm : c.order.Perm (List.range c.fields.length)

theorem OrderedClass.Sound.complete {c : OrderedClass} (h : c.Sound) : c.Complete where
  names_nodup := h.names_nodup
  order_perm := by simpa using h.respects.perm

/-- Every class of the schema is complete. -/
def Schema.Complete (schema : Schema) : Prop := ∀ c ∈ schema.classes, c.Complete

theorem Schema.Built.complete {schema : Schema} (h : schema.Built) : schema.Complete :=
  fun c hc => (h.sound c hc).complete

theorem Schema.mem_of_class? {schema : Schema} {name : String} {c : OrderedClass}
    (h : schema.class? name = some c) : c ∈ schema.classes ∧ c.name = name :=
  ⟨List.mem_of_find?_eq_some h, by simpa using List.find?_some h⟩

theorem Schema.class?_eq_some_iff {schema : Schema} {name : String} {c : OrderedClass}
    (hn : (schema.classes.map (·.name)).Nodup) :
    schema.class? name = some c ↔ c ∈ schema.classes ∧ c.name = name := by
  refine ⟨mem_of_class?, fun h => ?_⟩
  obtain ⟨hm, rfl⟩ := h
  cases ho : schema.class? c.name with
  | some o =>
    obtain ⟨hom, he⟩ := mem_of_class? ho
    rw [List.inj_on_of_nodup_map hn hom hm he]
  | none => simpa using List.find?_eq_none.mp ho c hm

/-- Entries for the declared fields are found as the fields are. -/
theorem Class.find?_map {α : Type} (c : Class) (g : Field → α) (name : String) :
    Fields.find? name (c.fields.map fun f => (f.name, g f)) = (c.field? name).map g := by
  rw [field?]
  induction c.fields with
  | nil => rfl
  | cons f rest ih =>
    by_cases hf : f.name = name
    · simp [Fields.find?, hf]
    · simp [Fields.find?, hf, ih]

theorem Class.mem_of_field? {c : Class} {name : String} {f : Field} (h : c.field? name = some f) :
    f ∈ c.fields ∧ f.name = name :=
  ⟨List.mem_of_find?_eq_some h, by simpa using List.find?_some h⟩

theorem Class.isNone_field?_iff {c : Class} {name : String} :
    (c.field? name).isNone = true ↔ ∀ f ∈ c.fields, f.name ≠ name := by
  simp [field?]

namespace OrderedClass

variable {c : OrderedClass}

theorem filterMap_range {α : Type} (xs : List α) :
    (List.range xs.length).filterMap (fun i => xs[i]?) = xs := by
  induction xs using List.reverseRecOn with
  | nil => rfl
  | append_singleton xs x ih =>
    rw [List.length_append, List.length_singleton, List.range_succ, List.filterMap_append]
    have hx : (List.range xs.length).filterMap (fun i => (xs ++ [x])[i]?) = xs := by
      conv_rhs => rw [← ih]
      apply List.filterMap_congr
      intro i hi
      exact List.getElem?_append_left (List.mem_range.mp hi)
    simp [hx]

theorem Complete.perm (h : c.Complete) : c.fieldsInOrder.Perm c.fields := by
  have hp := h.order_perm.filterMap fun i => c.fields[i]?
  rwa [filterMap_range] at hp

theorem Complete.mem_fieldsInOrder (h : c.Complete) {field : Field} :
    field ∈ c.fieldsInOrder ↔ field ∈ c.fields := h.perm.mem_iff

/-- A field is known by its name. -/
theorem Complete.field_eq (h : c.Complete) {f g : Field} (hf : f ∈ c.fields) (hg : g ∈ c.fields)
    (hn : f.name = g.name) : f = g := List.inj_on_of_nodup_map h.names_nodup hf hg hn

theorem Complete.field?_of_mem (h : c.Complete) {f : Field} (hf : f ∈ c.fields) :
    c.field? f.name = some f := by
  cases hn : c.field? f.name with
  | some g =>
    obtain ⟨hg, he⟩ := Class.mem_of_field? hn
    rw [h.field_eq hg hf he]
  | none => simpa using List.find?_eq_none.mp hn f hf

/-- Wherever a field stands in the order, the fields that it reads stand before it. -/
theorem Sound.before (h : c.Sound) {fs gs : List Field} {f g : Field}
    (hs : c.fieldsInOrder = fs ++ f :: gs) (hg : g ∈ c.fields) (hn : g.name ≠ f.name)
    (hr : Declarations.reads f g = true) : g ∈ fs := by
  obtain ⟨xs, ys, ho, rfl, hy⟩ := List.filterMap_eq_append_iff.mp hs
  obtain ⟨zs, i, ws, rfl, hz, hi, -⟩ := List.filterMap_eq_cons_iff.mp hy
  obtain ⟨j, hj⟩ := List.getElem?_of_mem hg
  have hne : j ≠ i := by
    rintro rfl
    rw [hj] at hi
    cases hi
    exact hn rfl
  rw [← List.append_assoc] at ho
  have hw := h.respects.before ho j ((Declarations.mem_waitsFor hi).mpr ⟨g, hj, hne, hr⟩)
  rcases List.mem_append.mp hw with hx | hz'
  · exact List.mem_filterMap.mpr ⟨j, hx, hj⟩
  · rw [hz j hz'] at hj
    cases hj

end OrderedClass

end RecordCheck

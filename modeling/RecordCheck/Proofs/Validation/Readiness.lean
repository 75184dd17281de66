import RecordCheck.Proofs.Eval.Reads
import RecordCheck.Proofs.Schema.Fields
import RecordCheck.Proofs.Validation.Trace

/-! What is to be there when a constraint of a field is evaluated: the fields that it reads. -/

namespace RecordCheck

open Validation Results

namespace Site

variable {w : Validation} {site : Site} {past later : List Event} {f g : Field} {u : Value}

def place (site : Site) (field : Field) : Path := site.path.push (.field field.name)

/-- What the constraints of a field of the object see. -/
def context (w : Validation) (site : Site) (v : Value) : Eval.Context :=
  w.fieldContext site.owner.toClass site.fields v

theorem context_eq_block (w : Validation) (site : Site) (v : Value) :
    site.context w v = ⟨v, site.block, w.root⟩ := by
  rw [context, fieldContext, block, fill_eq]

/-- Some field, of the value `u`, has been validated, and so have been the constraints on it. -/
structure Done (w : Validation) (past : List Event) (site : Site) (g : Field) (u : Value) :
    Prop where
  value_eq : fieldValue? site.fields g = some u
  visited : ∃ tree, visit w u (site.place g) g.type = .ok tree
  met : MetIn (g.type.liveTag? u) (site.context w u) g.constraints
  evaluated : ∀ l ∈ g.constraints, l.appliesIn (g.type.liveTag? u) = true →
    .evaluating site g l (site.context w u) ∈ past
  finished : .finished site g ∈ past

/-- A field is missing, or is not of its type, or does not meet one of its constraints. -/
inductive Aborts (w : Validation) (site : Site) (g : Field) : Prop where
  | missing (hv : fieldValue? site.fields g = none)
  | mistyped {u e} (hv : fieldValue? site.fields g = some u)
      (he : visit w u (site.place g) g.type = .error e)
  | unmet {u l} (hv : fieldValue? site.fields g = some u) (hl : l ∈ g.constraints)
      (ha : l.appliesIn (g.type.liveTag? u) = true) (hm : ¬ l.Met (site.context w u))

/-- All that a constraint of a field reads is there. -/
structure Ready (w : Validation) (past : List Event) (site : Site) (f : Field) (k : Constraint)
    (ctx : Eval.Context) : Prop where
  class_eq : w.schema.class? site.owner.name = some site.owner
  field_mem : f ∈ site.owner.fields
  constraint_mem : k ∈ f.constraints
  context_eq : ∃ v, fieldValue? site.fields f = some v ∧ ctx = site.context w v
  done : ∀ g ∈ site.owner.fields, g.name ≠ f.name → f.Reads g →
    ∃ u, Done w past site g u ∧ Eval.fieldOf ctx.block g.name = .ok u
  defined : ∀ e ∈ k.formula.expr.subterms, ∀ name, e.access? .block = some name →
    ∃ u, Eval.eval ctx e = .ok u

theorem Done.mono (h : Done w past site g u) (hs : past ⊆ later) : Done w later site g u :=
  ⟨h.value_eq, h.visited, h.met, fun l hl ha => hs (h.evaluated l hl ha), hs h.finished⟩

theorem Done.not_aborts (h : Done w past site g u) : ¬ site.Aborts w g := by
  intro ha
  cases ha with
  | missing hv =>
    rw [h.value_eq] at hv
    cases hv
  | mistyped hv he =>
    rw [h.value_eq] at hv
    cases hv
    obtain ⟨tree, ht⟩ := h.visited
    rw [ht] at he
    cases he
  | unmet hv hl ha hm =>
    rw [h.value_eq] at hv
    cases hv
    exact hm (h.met _ hl ha)

/-- The object as constraints see it has the value of every declared field. -/
theorem fieldOf_block (hg : g ∈ site.owner.fields) (hv : fieldValue? site.fields g = some u)
    (v : Value) : Eval.fieldOf (site.context w v).block g.name = .ok u := by
  rw [context, fieldContext, filled, Eval.fieldOf_object, find?_filledFields hg hv]
  rfl

theorem Ready.mono {k : Constraint} {ctx : Eval.Context} (h : Ready w past site f k ctx)
    (hs : past ⊆ later) : Ready w later site f k ctx := by
  refine ⟨h.class_eq, h.field_mem, h.constraint_mem, h.context_eq, ?_, h.defined⟩
  intro g hg hn hr
  obtain ⟨u, hd, hu⟩ := h.done g hg hn hr
  exact ⟨u, hd.mono hs, hu⟩

/-- A constraint is ready once every field is done that its field reads. -/
theorem ready_of_done {k : Constraint} {v : Value} (hc : w.schema.class? site.owner.name =
      some site.owner) (hs : site.owner.Sound) (hf : f ∈ site.owner.fields)
    (hk : k ∈ f.constraints) (hv : fieldValue? site.fields f = some v)
    (hd : ∀ g ∈ site.owner.fields, g.name ≠ f.name → f.Reads g → ∃ u, Done w past site g u) :
    Ready w past site f k (site.context w v) := by
  have read (g : Field) (hg : g ∈ site.owner.fields) (hn : g.name ≠ f.name) (hr : f.Reads g) :
      ∃ u, Done w past site g u ∧ Eval.fieldOf (site.context w v).block g.name = .ok u := by
    obtain ⟨u, hu⟩ := hd g hg hn hr
    exact ⟨u, hu, fieldOf_block hg hu.value_eq v⟩
  refine ⟨hc, hf, hk, ⟨v, hv, rfl⟩, read, ?_⟩
  intro e he name ha
  have hknown := hs.known f hf k hk name (Expr.mem_references.mpr ⟨e, he, ha⟩)
  obtain ⟨g, hg⟩ := Option.isSome_iff_exists.mp hknown
  have hm : g ∈ site.owner.fields := List.mem_of_find?_eq_some hg
  obtain rfl : g.name = name := by simpa using List.find?_some hg
  by_cases hn : g.name = f.name
  · obtain rfl := hs.complete.field_eq hm hf hn
    exact ⟨v, Eval.eval_of_access? ha (fieldOf_block hf hv v)⟩
  · obtain ⟨u, -, hu⟩ := read g hm hn ⟨k, hk, .inr ⟨e, he, ha⟩⟩
    exact ⟨u, Eval.eval_of_access? ha hu⟩

end Site

end RecordCheck

import RecordCheck.Proofs.Schema.Cycles
import RecordCheck.Proofs.Schema.Fields
import RecordCheck.Proofs.Schema.Mentions

/-! Which declarations make a schema: those without an unknown name, a misplaced binding or a cycle
between the fields of a class. The schema has what is declared, and an order for each class. -/

namespace RecordCheck

open Results Relation

/-! ### Well-formed declarations -/

/-- The constraint is bound to an alternative of the type, or it is bound to none and at most one
alternative is something other than null. -/
structure Constraint.BoundIn (k : Constraint) (type : FieldType) : Prop where
  bound : ∀ tag, k.variant = some tag → ∃ a ∈ type.variants, a.tag? = some tag
  unbound : k.variant = none →
    (type.variants.filter fun a => a.tag? != some .null).length ≤ 1

namespace Class

/-- The fields that the constraint takes from an object are fields of the class. -/
def Knows (c : Class) (k : Constraint) : Prop :=
  ∀ e ∈ k.formula.expr.subterms, ∀ name, e.access? .block = some name →
    ∃ f ∈ c.fields, f.name = name

/-- Of two fields of the class, the first is validated after the second, since it reads it. -/
def Waits (c : Class) (f g : Field) : Prop :=
  f ∈ c.fields ∧ g ∈ c.fields ∧ g.name ≠ f.name ∧ f.Reads g

/-- The field at the place is not placed yet, and all that it waits for are. -/
def Ready (c : Class) (placed : List Nat) (i : Nat) : Prop :=
  ∃ f, c.fields[i]? = some f ∧ i ∉ placed ∧
    ∀ j g, c.fields[j]? = some g → c.Waits f g → j ∈ placed

/-- What the declaration of a class has to satisfy beyond distinct names. -/
structure WellDeclared (decls : Declarations) (c : Class) : Prop where
  types_declared : ∀ f ∈ c.fields, ∀ tag, f.type.Mentions tag → decls.Declares tag
  bound : ∀ f ∈ c.fields, ∀ k ∈ f.constraints, k.BoundIn f.type
  fields_known : ∀ f ∈ c.fields, ∀ k ∈ f.constraints, c.Knows k
  own_known : ∀ k ∈ c.constraints, c.Knows k
  acyclic : ∀ f, ¬ TransGen c.Waits f f

end Class

/-- All fields are placed, each time the first that is ready. -/
structure OrderedClass.ReadyFirst (c : OrderedClass) : Prop where
  perm : c.order.Perm (List.range c.fields.length)
  least : ∀ before i after, c.order = before ++ i :: after →
    IsLeast {j | c.toClass.Ready before j} i

namespace Declarations

variable {decls : Declarations} {c : Class}

/-! ### Names and bindings -/

theorem checkBinding_eq_ok {f : Field} {k : Constraint} :
    checkBinding c f k = .ok () ↔ k.BoundIn f.type := by
  have hu : f.type.isUnion = true ↔
      ¬ (f.type.variants.filter fun a => a.tag? != some .null).length ≤ 1 := by
    rw [FieldType.isUnion, decide_eq_true_iff, Nat.not_le]
  have ha (tag : Tag) : (f.type.variants.any fun a => a.tag? == some tag) = true ↔
      ∃ a ∈ f.type.variants, a.tag? = some tag := by simp
  rw [checkBinding]
  cases hv : k.variant with
  | none =>
    constructor
    · intro h
      refine ⟨by simp [hv], fun _ => ?_⟩
      by_contra hn
      simp [hu.mpr hn] at h
    · intro h
      have hn : ¬ f.type.isUnion = true := by
        rw [hu, not_not]
        exact h.unbound hv
      rw [Bool.not_eq_true] at hn
      simp only [hn, Bool.false_eq_true, if_false]
  | some tag =>
    constructor
    · intro h
      refine ⟨fun t ht => ?_, by simp [hv]⟩
      cases hv.symm.trans ht
      by_contra hn
      simp [mt (ha tag).mp hn] at h
    · intro h
      simp only [(ha tag).mpr (h.bound tag hv), if_true]

theorem checkField_eq_ok {f : Field} :
    decls.checkField c f = .ok () ↔ (∀ tag, f.type.Mentions tag → decls.Declares tag) ∧
      ∀ k ∈ f.constraints, k.BoundIn f.type := by
  have hnames : (∀ tag, f.type.Mentions tag → decls.Declares tag) ↔
      (namedTags f.type).find? (fun tag => !decls.declares tag) = none := by
    simp only [List.find?_eq_none, mem_namedTags_iff, Bool.not_eq_true', Bool.not_eq_false,
      declares_iff]
  rw [hnames, checkField]
  cases (namedTags f.type).find? fun tag => !decls.declares tag with
  | some tag => simp
  | none => simp only [forM_eq_ok, checkBinding_eq_ok, true_and]

theorem knows_iff {k : Constraint} :
    c.Knows k ↔ ∀ name ∈ k.formula.blockReferences, (c.field? name).isSome := by
  simp only [Class.Knows, Formula.blockReferences, Expr.mem_references, Class.field?,
    List.find?_isSome, beq_iff_eq]
  constructor
  · intro h name hm
    obtain ⟨e, he, ha⟩ := hm
    exact h e he name ha
  · intro h e he name ha
    exact h name ⟨e, he, ha⟩

/-! ### Order -/

theorem exists_field {i j : Nat} (h : Dependencies.Waits (dependencies c.fields) i j) :
    ∃ f, c.fields[i]? = some f :=
  ⟨_, List.getElem?_eq_getElem (by simpa using h.lt_length)⟩

theorem waitsFor_lt (i : Nat) : ∀ d ∈ Dependencies.waitsFor (dependencies c.fields) i,
    d < (dependencies c.fields).length := by
  intro d hd
  obtain ⟨f, hf⟩ := exists_field hd
  obtain ⟨g, hg, -⟩ := (mem_waitsFor hf).mp hd
  simpa using (List.getElem?_eq_some_iff.mp hg).1

section Order

variable {i j : Nat} {placed : List Nat} {f g : Field} (hn : (c.fields.map (·.name)).Nodup)

include hn

theorem waits_iff (hf : c.fields[i]? = some f) (hg : c.fields[j]? = some g) :
    Dependencies.Waits (dependencies c.fields) i j ↔ c.Waits f g := by
  have hne : j ≠ i ↔ g.name ≠ f.name := by
    refine not_congr ⟨fun h => ?_, fun h => ?_⟩
    · subst h
      rw [hf] at hg
      cases hg
      rfl
    · obtain ⟨hj, -⟩ := List.getElem?_eq_some_iff.mp hg
      rw [← List.getElem?_inj (by simpa using hj) hn]
      simp only [List.getElem?_map, hf, hg, Option.map_some, h]
  rw [Dependencies.Waits, mem_waitsFor hf]
  constructor
  · intro h
    obtain ⟨other, ho, hji, hr⟩ := h
    cases hg.symm.trans ho
    exact ⟨List.mem_of_getElem? hf, List.mem_of_getElem? hg, hne.mp hji, Field.reads_iff.mp hr⟩
  · intro h
    obtain ⟨-, -, hgf, hr⟩ := h
    exact ⟨g, hg, hne.mpr hgf, Field.reads_iff.mpr hr⟩

theorem transGen_waits_iff (hf : c.fields[i]? = some f) (hg : c.fields[j]? = some g) :
    TransGen (Dependencies.Waits (dependencies c.fields)) i j ↔ TransGen c.Waits f g := by
  constructor
  · intro h
    induction h generalizing g with
    | single hw => exact .single ((waits_iff hn hf hg).mp hw)
    | tail _ hw ih =>
      obtain ⟨m, hm⟩ := exists_field hw
      exact (ih hm).tail ((waits_iff hn hm hg).mp hw)
  · intro h
    induction h generalizing j with
    | single hw => exact .single ((waits_iff hn hf hg).mpr hw)
    | tail _ hw ih =>
      obtain ⟨k, hm⟩ := List.getElem?_of_mem hw.1
      exact (ih hm).tail ((waits_iff hn hm hg).mpr hw)

theorem acyclic_iff : (∀ i, ¬ TransGen (Dependencies.Waits (dependencies c.fields)) i i) ↔
    ∀ f, ¬ TransGen c.Waits f f := by
  constructor
  · intro h f hw
    obtain ⟨g, hfg, -⟩ := TransGen.head'_iff.mp hw
    obtain ⟨i, hi⟩ := List.getElem?_of_mem hfg.1
    exact h i ((transGen_waits_iff hn hi hi).mpr hw)
  · intro h i hw
    obtain ⟨j, hij, -⟩ := TransGen.head'_iff.mp hw
    obtain ⟨f, hf⟩ := exists_field hij
    exact h f ((transGen_waits_iff hn hf hf).mp hw)

theorem ready_iff : Dependencies.Ready (dependencies c.fields) placed i ↔ c.Ready placed i := by
  constructor
  · intro h
    have hi : i < c.fields.length := by simpa using h.lt
    have hf := List.getElem?_eq_getElem hi
    refine ⟨_, hf, h.not_mem, fun j g hg hw => ?_⟩
    exact h.waits j ((waits_iff hn hf hg).mpr hw)
  · intro h
    obtain ⟨f, hf, hp, hw⟩ := h
    refine ⟨by simpa using (List.getElem?_eq_some_iff.mp hf).1, hp, fun j hj => ?_⟩
    obtain ⟨g, hg, -⟩ := (mem_waitsFor hf).mp hj
    exact hw j g hg ((waits_iff hn hf hg).mp hj)

theorem exists_orderClass_iff : (∃ o, orderClass c = .ok o) ↔
    (∀ f ∈ c.fields, ∀ k ∈ f.constraints, c.Knows k) ∧ (∀ k ∈ c.constraints, c.Knows k) ∧
      ∀ f, ¬ TransGen c.Waits f f := by
  rw [← acyclic_iff hn, ← Dependencies.exists_order_iff waitsFor_lt]
  simp only [orderClass_eq_ok, knows_iff]
  constructor
  · intro h
    obtain ⟨o, hfields, hown, -, hd⟩ := h
    exact ⟨hfields, hown, o.order, hd⟩
  · intro h
    obtain ⟨hfields, hown, order, hd⟩ := h
    exact ⟨{ c with order := order }, hfields, hown, rfl, hd⟩

theorem readyFirst_of_orderClass {o : OrderedClass} (h : orderClass c = .ok o) :
    o.ReadyFirst := by
  obtain ⟨-, -, rfl, hd⟩ := orderClass_eq_ok.mp h
  refine ⟨by simpa using (Dependencies.respects_of_order hd).perm, fun before i after hs => ?_⟩
  have hleast := Dependencies.leastFirst_of_order hd before i after hs
  simpa only [ready_iff hn] using hleast

end Order

/-! ### Schemas -/

theorem build_keeps {schema : Schema} (h : decls.build = .ok schema) :
    schema.classes.map (·.toClass) = decls.classes ∧ schema.enums = decls.enums := by
  obtain ⟨-, hm, he⟩ := build_eq_ok.mp h
  have heq : List.Forall₂ (· = ·) decls.classes (schema.classes.map (·.toClass)) := by
    rw [List.forall₂_map_right_iff]
    exact (mapM_ok_forall₂.mp hm).imp fun c o ho => (orderClass_eq_ok.mp ho).2.2.1.symm
  rw [List.forall₂_eq_eq_eq] at heq
  exact ⟨heq.symm, he⟩

theorem readyFirst_of_build (h : decls.Reachable) {schema : Schema}
    (hb : decls.build = .ok schema) : ∀ o ∈ schema.classes, o.ReadyFirst := by
  obtain ⟨-, hm, -⟩ := build_eq_ok.mp hb
  intro o ho
  obtain ⟨c, hc, hco⟩ := exists_of_mem_mapM hm ho
  exact readyFirst_of_orderClass (h.declared c hc).names_nodup hco

/-- The declarations make a schema exactly if each class is well declared. The schema then has what
is declared, in this order, and evaluates each time the first field that is ready. -/
theorem Reachable.build_iff (h : decls.Reachable) :
    ((∃ schema, decls.build = .ok schema) ↔ ∀ c ∈ decls.classes, c.WellDeclared decls) ∧
      ∀ schema, decls.build = .ok schema →
        schema.classes.map (·.toClass) = decls.classes ∧ schema.enums = decls.enums ∧
          ∀ c ∈ schema.classes, c.ReadyFirst := by
  refine ⟨?_, fun schema hb => ?_⟩
  · have hn (c : Class) (hc : c ∈ decls.classes) := (h.declared c hc).names_nodup
    have hclasses : (∃ classes, decls.classes.mapM orderClass = .ok classes) ↔
        ∀ c ∈ decls.classes, ∃ o, orderClass c = .ok o := exists_mapM_iff
    simp only [build_eq_ok, checkField_eq_ok]
    constructor
    · intro hb c hc
      obtain ⟨schema, hfields, hm, -⟩ := hb
      obtain ⟨hknown, hown, hacyclic⟩ :=
        (exists_orderClass_iff (hn c hc)).mp (hclasses.mp ⟨schema.classes, hm⟩ c hc)
      exact ⟨fun f hf => (hfields c hc f hf).1, fun f hf => (hfields c hc f hf).2, hknown, hown,
        hacyclic⟩
    · intro hw
      obtain ⟨classes, hm⟩ := hclasses.mpr fun c hc =>
        (exists_orderClass_iff (hn c hc)).mpr
          ⟨(hw c hc).fields_known, (hw c hc).own_known, (hw c hc).acyclic⟩
      refine ⟨⟨classes, decls.enums⟩, fun c hc f hf => ?_, hm, rfl⟩
      exact ⟨(hw c hc).types_declared f hf, (hw c hc).bound f hf⟩
  · obtain ⟨hclasses, henums⟩ := build_keeps hb
    exact ⟨hclasses, henums, readyFirst_of_build h hb⟩

/-- A field that reads two others stands before them, and is evaluated after them. -/
theorem exists_build :
    let trip : ClassDecl := ⟨"Trip",
      [⟨"days", .int, [⟨.assert, "fits", "block.from + this <= block.until", none⟩]⟩,
       ⟨"from", .int, []⟩,
       ⟨"until", .int, [⟨.assert, "later", "block.from < this", none⟩]⟩,
       ⟨"next", .optional (.class "Trip"), []⟩], []⟩
    ∃ (decls : Declarations) (schema : Schema),
      [.class trip].foldlM Declarations.add {} = .ok decls ∧ decls.Reachable ∧
      decls.build = .ok schema ∧ (∀ c ∈ decls.classes, c.WellDeclared decls) ∧
      (∀ c ∈ schema.classes, c.ReadyFirst) ∧ schema.classes.map (·.order) = [[1, 2, 0, 3]] := by
  intro trip
  have hd : ([.class trip].foldlM Declarations.add {}).toOption.any (fun decls =>
      decls.build.toOption.any fun schema =>
        schema.classes.map (·.order) == [[1, 2, 0, 3]]) = true := by
    decide +kernel
  obtain ⟨decls, hd, hb⟩ := toOption_any_iff.mp hd
  obtain ⟨schema, hb, ho⟩ := toOption_any_iff.mp hb
  have hr := Reachable.empty.foldlM hd
  obtain ⟨hw, hschema⟩ := hr.build_iff
  exact ⟨decls, schema, hd, hr, hb, hw.mp ⟨schema, hb⟩, (hschema schema hb).2.2, beq_iff_eq.mp ho⟩

end Declarations

end RecordCheck

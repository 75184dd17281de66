import RecordCheck.Proofs.Schema.Building
import RecordCheck.Proofs.Value.Fields
import RecordCheck.Schema.Registry

/-! Calls on a registry, some of which fail. A failing call changes nothing, so what is in the
registry comes from the others, and a class is found by its name in the schema that is made. -/

namespace RecordCheck

open Results

/-! ### What a declaration gives -/

structure ConstraintDecl.Gives (decl : ConstraintDecl) (k : Constraint) : Prop where
  kind : k.kind = decl.kind
  message : k.message = decl.message
  variant : k.variant = decl.variant
  formula : Formula.compile decl.source = .ok k.formula

structure FieldDecl.Gives (decl : FieldDecl) (f : Field) : Prop where
  name : f.name = decl.name
  type : f.type = decl.type
  constraints : List.Forall₂ ConstraintDecl.Gives decl.constraints f.constraints

structure ClassDecl.Gives (decl : ClassDecl) (c : Class) : Prop where
  name : c.name = decl.name
  fields : List.Forall₂ FieldDecl.Gives decl.fields c.fields
  constraints : List.Forall₂ ConstraintDecl.Gives decl.constraints c.constraints

/-- The sources are formulas, and no two checks have the same message and the same binding. -/
structure ConstraintDecl.Fit (decls : List ConstraintDecl) : Prop where
  checks_nodup : ((decls.filter (·.kind == .check)).map fun d => (d.message, d.variant)).Nodup
  compiles : ∀ d ∈ decls, ∃ f, Formula.compile d.source = .ok f

namespace Declaration

/-- What is required of a declaration by itself. -/
def WellFormed : Declaration → Prop
  | .enum e => e.variants.Nodup
  | .class decl => (decl.fields.map (·.name)).Nodup ∧
      (∀ f ∈ decl.fields, ConstraintDecl.Fit f.constraints) ∧
        ConstraintDecl.Fit decl.constraints

def name : Declaration → String
  | .enum e => e.name
  | .class decl => decl.name

def enum? : Declaration → Option EnumType
  | .enum e => some e
  | .class _ => none

def class? : Declaration → Option ClassDecl
  | .enum _ => none
  | .class decl => some decl

theorem class?_eq_some_iff {d : Declaration} {decl : ClassDecl} :
    d.class? = some decl ↔ d = .class decl := by
  cases d <;> simp [class?]

end Declaration

namespace Declarations

theorem compileConstraints_gives {owner : String} {decls : List ConstraintDecl}
    {constraints : List Constraint} (h : compileConstraints owner decls = .ok constraints) :
    List.Forall₂ ConstraintDecl.Gives decls constraints := by
  simp only [compileConstraints] at h
  split at h
  next => cases h
  next =>
    refine (mapM_ok_forall₂.mp h).imp fun decl k hk => ?_
    simp only [compileConstraint] at hk
    split at hk
    next formula hf =>
      cases hk
      exact ⟨rfl, rfl, rfl, hf⟩
    next => cases hk

theorem exists_compileConstraints_iff {owner : String} {decls : List ConstraintDecl} :
    (∃ constraints, compileConstraints owner decls = .ok constraints) ↔
      ConstraintDecl.Fit decls := by
  have hc (d : ConstraintDecl) :
      (∃ k, compileConstraint owner d = .ok k) ↔ ∃ f, Formula.compile d.source = .ok f := by
    rw [compileConstraint]
    cases Formula.compile d.source <;> simp
  simp only [compileConstraints]
  constructor
  · intro h
    obtain ⟨constraints, hk⟩ := h
    split at hk
    next => cases hk
    next hn =>
      have hall := exists_mapM_iff.mp ⟨constraints, hk⟩
      exact ⟨(firstRepeated?_eq_none.mp hn).1, fun d hd => (hc d).mp (hall d hd)⟩
  · intro h
    rw [firstRepeated?_eq_none.mpr ⟨h.checks_nodup, fun _ _ => List.not_mem_nil⟩]
    exact exists_mapM_iff.mpr fun d hd => (hc d).mpr (h.compiles d hd)

theorem exists_compileFields_iff {className : String} {names : List String}
    {decls : List FieldDecl} :
    (∃ fields, compileFields className names decls = .ok fields) ↔
      (decls.map (·.name)).Nodup ∧ (∀ d ∈ decls, d.name ∉ names) ∧
        ∀ d ∈ decls, ConstraintDecl.Fit d.constraints := by
  induction decls generalizing names with
  | nil => simp [compileFields]
  | cons decl rest ih =>
    simp only [List.map_cons, List.nodup_cons, List.forall_mem_cons]
    rw [compileFields]
    by_cases hn : decl.name ∈ names
    · simp [hn, bind, Except.bind]
    · have hc : names.contains decl.name = false := by simpa using hn
      simp only [hc, Bool.false_eq_true, if_false, bind_eq_ok, pure_eq_ok]
      constructor
      · intro h
        obtain ⟨_, constraints, hcs, fields, hfs, -⟩ := h
        obtain ⟨hd, hs, hfit⟩ := ih.mp ⟨fields, hfs⟩
        refine ⟨⟨fun hm => ?_, hd⟩, ⟨hn, fun d hm => ?_⟩,
          exists_compileConstraints_iff.mp ⟨constraints, hcs⟩, hfit⟩
        · obtain ⟨d, hm, he⟩ := List.mem_map.mp hm
          exact hs d hm (he ▸ List.mem_cons_self ..)
        · exact fun hx => hs d hm (List.mem_cons_of_mem _ hx)
      · intro h
        obtain ⟨⟨hm, hd⟩, ⟨-, hs⟩, hfit, hfits⟩ := h
        obtain ⟨constraints, hcs⟩ := exists_compileConstraints_iff.mpr hfit
        have hrest : ∀ d ∈ rest, d.name ∉ decl.name :: names := by
          intro d hdm hx
          rcases List.mem_cons.mp hx with hx | hx
          · exact hm (hx ▸ List.mem_map_of_mem hdm)
          · exact hs d hdm hx
        obtain ⟨fields, hfs⟩ := ih.mpr ⟨hd, hrest, hfits⟩
        exact ⟨_, constraints, hcs, fields, hfs, rfl⟩

theorem compileFields_gives {className : String} {names : List String} {decls : List FieldDecl}
    {fields : List Field} (h : compileFields className names decls = .ok fields) :
    List.Forall₂ FieldDecl.Gives decls fields := by
  induction decls generalizing names fields with
  | nil =>
    cases h
    exact .nil
  | cons decl decls ih =>
    rw [compileFields] at h
    by_cases hn : names.contains decl.name
    · simp only [hn, if_true, bind_eq_ok, throw_ne_ok, false_and, exists_const] at h
    · simp only [hn, Bool.false_eq_true, if_false, bind_eq_ok, pure_eq_ok] at h
      obtain ⟨constraints, hc, rest, hr, rfl⟩ := h
      exact .cons ⟨rfl, rfl, compileConstraints_gives hc⟩ (ih hr)

end Declarations

namespace Registry

variable {r r' : Registry} {d : Declaration} {past : List Declaration}

/-! ### One call -/

/-- What a call does that succeeds. -/
inductive Adds (r : Registry) : Declaration → Registry → Prop where
  | enum {enum} (fresh : r.isDeclared enum.name = false) (distinct : enum.variants.Nodup) :
      Adds r (.enum enum) { r with enums := Fields.insert enum.name enum r.enums }
  | class {decl fields constraints} (fresh : r.isDeclared decl.name = false)
      (hf : Declarations.compileFields decl.name [] decl.fields = .ok fields)
      (hc : Declarations.compileConstraints decl.name decl.constraints = .ok constraints) :
      Adds r (.class decl)
        { r with
          places := Fields.insert decl.name r.classes.length r.places
          classes := r.classes ++ [⟨decl.name, fields, constraints⟩] }

theorem run_ofExcept {α : Type} (x : Except SchemaError α) (r : Registry) :
    (MonadExcept.ofExcept x : EStateM SchemaError Registry α).run r =
      match x with
      | .ok a => .ok a r
      | .error e => .error e r := by
  cases x <;> rfl

theorem Adds.run (h : Adds r d r') : (add d).run r = .ok () r' := by
  cases h with
  | «enum» fresh distinct =>
    have hv := Declarations.firstRepeated?_eq_none.mpr ⟨distinct, fun _ _ => List.not_mem_nil⟩
    simp [add, addEnum, fresh, hv]
  | «class» fresh hf hc => simp [add, addClass, run_ofExcept, fresh, hf, hc]

theorem addsEnum_or_fails (r : Registry) (enum : EnumType) :
    (∃ r', Adds r (.enum enum) r') ∨ ∃ e, (add (.enum enum)).run r = .error e r := by
  cases hd : r.isDeclared enum.name with
  | true => exact .inr ⟨.duplicateEnum enum.name, by simp [add, addEnum, hd]⟩
  | false =>
    cases hv : Declarations.firstRepeated? [] enum.variants with
    | some variant =>
      exact .inr ⟨.duplicateVariant enum.name variant, by simp [add, addEnum, hd, hv]⟩
    | none => exact .inl ⟨_, .enum hd (Declarations.firstRepeated?_eq_none.mp hv).1⟩

theorem addsClass_or_fails (r : Registry) (decl : ClassDecl) :
    (∃ r', Adds r (.class decl) r') ∨ ∃ e, (add (.class decl)).run r = .error e r := by
  cases hd : r.isDeclared decl.name with
  | true => exact .inr ⟨.duplicateClass decl.name, by simp [add, addClass, hd]⟩
  | false =>
    cases hf : Declarations.compileFields decl.name [] decl.fields with
    | error e => exact .inr ⟨e, by simp [add, addClass, run_ofExcept, hd, hf]⟩
    | ok fields =>
      cases hc : Declarations.compileConstraints decl.name decl.constraints with
      | error e => exact .inr ⟨e, by simp [add, addClass, run_ofExcept, hd, hf, hc]⟩
      | ok constraints => exact .inl ⟨_, .class hd hf hc⟩

/-- A call does what it has to do, or it fails where nothing is changed yet. -/
theorem adds_or_fails (r : Registry) (d : Declaration) :
    (∃ r', Adds r d r') ∨ ∃ e, (add d).run r = .error e r := by
  cases d with
  | enum enum => exact addsEnum_or_fails r enum
  | «class» decl => exact addsClass_or_fails r decl

theorem adds_of_run (h : (add d).run r = .ok () r') : Adds r d r' := by
  rcases adds_or_fails r d with ⟨s, hs⟩ | ⟨e, he⟩
  · cases hs.run.symm.trans h
    exact hs
  · cases he.symm.trans h

/-- A failing call leaves the registry as it was. -/
theorem eq_of_add_error {e : SchemaError} (h : (add d).run r = .error e r') : r' = r := by
  rcases adds_or_fails r d with ⟨s, hs⟩ | ⟨f, hf⟩
  · cases hs.run.symm.trans h
  · cases hf.symm.trans h
    rfl

/-- A call succeeds for a new name and a declaration that is well-formed. -/
theorem exists_add_iff : (∃ r', (add d).run r = .ok () r') ↔
    r.isDeclared d.name = false ∧ d.WellFormed := by
  constructor
  · intro h
    obtain ⟨r', hr⟩ := h
    cases adds_of_run hr with
    | «enum» fresh distinct => exact ⟨fresh, distinct⟩
    | «class» fresh hf hc =>
      obtain ⟨hn, -, hfit⟩ := Declarations.exists_compileFields_iff.mp ⟨_, hf⟩
      exact ⟨fresh, hn, hfit, Declarations.exists_compileConstraints_iff.mp ⟨_, hc⟩⟩
  · intro h
    cases d with
    | enum enum => exact ⟨_, (Adds.enum h.1 h.2).run⟩
    | «class» decl =>
      obtain ⟨fresh, hn, hfit, hown⟩ := h
      have hnil : ∀ f ∈ decl.fields, f.name ∉ ([] : List String) := fun _ _ => List.not_mem_nil
      obtain ⟨fields, hf⟩ := Declarations.exists_compileFields_iff.mpr ⟨hn, hnil, hfit⟩
      obtain ⟨constraints, hc⟩ := Declarations.exists_compileConstraints_iff.mpr hown
      exact ⟨_, (Adds.class fresh hf hc).run⟩

/-! ### The registry after some calls -/

/-- The names of the classes, then those of the enumerations. -/
def names (r : Registry) : List String :=
  r.classes.map (·.name) ++ r.enums.map (·.2.name)

theorem isDeclared_iff_mem {name : String} : r.isDeclared name = true ↔
    name ∈ Fields.names r.places ∨ name ∈ Fields.names r.enums := by
  simp [isDeclared, Fields.contains, Fields.find?_isSome_iff]

theorem not_mem_of_fresh {name : String} (hn : r.isDeclared name = false) :
    name ∉ Fields.names r.places ∧ name ∉ Fields.names r.enums := by
  rw [← not_or, ← isDeclared_iff_mem, hn]
  exact Bool.false_ne_true

/-- The registry has exactly what the declarations say, each under its own name. -/
structure Coherent (r : Registry) (accepted : List Declaration) : Prop where
  names_nodup : r.names.Nodup
  declared : ∀ c ∈ r.classes, c.Declared
  variants_nodup : ∀ entry ∈ r.enums, entry.2.variants.Nodup
  classes : List.Forall₂ ClassDecl.Gives (accepted.filterMap Declaration.class?) r.classes
  enums : r.enums = (accepted.filterMap Declaration.enum?).map fun e => (e.name, e)
  isDeclared_iff : ∀ name, r.isDeclared name = true ↔ ∃ d ∈ accepted, d.name = name
  place_iff : ∀ name i, Fields.find? name r.places = some i ↔
    ∃ c, r.classes[i]? = some c ∧ c.name = name

namespace Coherent

theorem empty : Coherent {} [] where
  names_nodup := List.nodup_nil
  declared := by simp
  variants_nodup := by simp
  classes := .nil
  enums := rfl
  isDeclared_iff := by simp [isDeclared, Fields.contains, Fields.find?]
  place_iff := by simp [Fields.find?]

variable (h : Coherent r past)

include h

theorem not_mem_names {name : String} (hn : r.isDeclared name = false) : name ∉ r.names := by
  obtain ⟨hp, he⟩ := not_mem_of_fresh hn
  intro hm
  rcases List.mem_append.mp hm with hm | hm
  · obtain ⟨c, hc, hcn⟩ := List.mem_map.mp hm
    obtain ⟨i, hi⟩ := List.getElem?_of_mem hc
    have hplace := (h.place_iff name i).mpr ⟨c, hi, hcn⟩
    exact hp (Fields.find?_isSome_iff.mp (by rw [hplace]; rfl))
  · refine he ?_
    rw [h.enums] at hm ⊢
    simpa [Fields.names] using hm

theorem add_enum {enum : EnumType} (fresh : r.isDeclared enum.name = false)
    (distinct : enum.variants.Nodup) :
    Coherent { r with enums := Fields.insert enum.name enum r.enums } (past ++ [.enum enum]) := by
  rw [Fields.insert_of_not_mem (not_mem_of_fresh fresh).2]
  refine ⟨?_, h.declared, ?_, ?_, ?_, fun name => ?_, h.place_iff⟩
  · have hs : r.classes.map (·.name) ++ (r.enums ++ [(enum.name, enum)]).map (·.2.name) =
        r.names ++ [enum.name] := by simp [names]
    rw [names, hs, ← List.concat_eq_append]
    exact h.names_nodup.concat (h.not_mem_names fresh)
  · rw [List.forall_mem_append]
    exact ⟨h.variants_nodup, by simpa using distinct⟩
  · simpa [List.filterMap_cons, Declaration.class?] using h.classes
  · simp [Declaration.enum?, h.enums]
  · have hd : isDeclared { r with enums := r.enums ++ [(enum.name, enum)] } name = true ↔
        r.isDeclared name = true ∨ name = enum.name := by
      simp [isDeclared_iff_mem, Fields.names, or_assoc]
    rw [hd, h.isDeclared_iff]
    simp [Declaration.name, or_and_right, exists_or, @eq_comm _ name]

theorem add_class {c : Class} {decl : ClassDecl} (fresh : r.isDeclared decl.name = false)
    (hg : decl.Gives c) (hc : c.Declared) :
    Coherent
      { r with
        places := Fields.insert decl.name r.classes.length r.places
        classes := r.classes ++ [c] } (past ++ [.class decl]) := by
  have hp := (not_mem_of_fresh fresh).1
  rw [Fields.insert_of_not_mem hp]
  refine ⟨?_, ?_, h.variants_nodup, ?_, ?_, fun name => ?_, fun name i => ?_⟩
  · have hs : (r.classes ++ [c]).map (·.name) ++ r.enums.map (·.2.name) =
        r.classes.map (·.name) ++ decl.name :: r.enums.map (·.2.name) := by simp [hg.name]
    rw [names, hs, List.nodup_middle, List.nodup_cons]
    exact ⟨h.not_mem_names fresh, h.names_nodup⟩
  · rw [List.forall_mem_append]
    exact ⟨h.declared, by simpa using hc⟩
  · have hs : (past ++ [Declaration.class decl]).filterMap Declaration.class? =
        past.filterMap Declaration.class? ++ [decl] := by
      simp [Declaration.class?]
    rw [hs]
    exact List.rel_append h.classes (.cons hg .nil)
  · simp [List.filterMap_cons, Declaration.enum?, h.enums]
  · have hd : isDeclared
        { r with
          places := r.places ++ [(decl.name, r.classes.length)]
          classes := r.classes ++ [c] } name = true ↔
        r.isDeclared name = true ∨ name = decl.name := by
      simp [isDeclared_iff_mem, Fields.names, or_right_comm]
    rw [hd, h.isDeclared_iff]
    simp [Declaration.name, or_and_right, exists_or, @eq_comm _ name]
  · simp only [Fields.find?_append, getElem?_append_singleton_iff, or_and_right, exists_or,
      ← h.place_iff]
    by_cases hn : decl.name = name
    · subst hn
      have hnone : Fields.find? decl.name r.places = none := by
        rwa [← Option.not_isSome_iff_eq_none, Fields.find?_isSome_iff]
      simp [hnone, Fields.find?, hg.name, eq_comm]
    · simp [Fields.find?, hn, hg.name]

/-- A call that succeeds adds its declaration. -/
theorem add (s : Adds r d r') : r'.Coherent (past ++ [d]) := by
  cases s with
  | «enum» fresh distinct => exact h.add_enum fresh distinct
  | «class» fresh hf hc =>
    obtain ⟨hn, -, hk⟩ := Declarations.compileFields_spec hf
    refine h.add_class fresh ⟨rfl, ?_, ?_⟩ ⟨hn, hk, Declarations.checkKeys_nodup hc⟩
    · exact Declarations.compileFields_gives hf
    · exact Declarations.compileConstraints_gives hc

theorem isDeclared_declarations {name : String} (hn : r.isDeclared name = false) :
    r.declarations.isDeclared name = false := by
  have hm := h.not_mem_names hn
  rw [← Bool.not_eq_true]
  intro hd
  apply hm
  simpa [Declarations.isDeclared, Declarations.hasClass, Declarations.hasEnum, declarations,
    Fields.values, names] using hd

/-- What is declared grows as it does without an index. -/
theorem declarations_add (s : Adds r d r') : r.declarations.add d = .ok r'.declarations := by
  cases s with
  | @enum enum fresh distinct =>
    have hd := h.isDeclared_declarations fresh
    have hv := Declarations.firstRepeated?_eq_none.mpr ⟨distinct, fun _ _ => List.not_mem_nil⟩
    have he : Fields.values (Fields.insert enum.name enum r.enums) =
        Fields.values r.enums ++ [enum] := by
      simp [Fields.insert_of_not_mem (not_mem_of_fresh fresh).2, Fields.values]
    simp only [Declarations.add, Declarations.addEnum, hd, Bool.false_eq_true, if_false, hv]
    rw [declarations, declarations, he]
  | «class» fresh hf hc =>
    have hd := h.isDeclared_declarations fresh
    simp only [Declarations.add, Declarations.addClass, hd, Bool.false_eq_true, if_false, hf, hc]
    rfl

end Coherent

/-! ### Sessions -/

/-- The declarations that are accepted of some that are added one after another, and the registry
at the end. -/
def session (r : Registry) : List Declaration → List Declaration × Registry
  | [] => ([], r)
  | d :: rest =>
    match (add d).run r with
    | .ok _ next => (d :: (session next rest).1, (session next rest).2)
    | .error _ next => session next rest

/-- The accepted ones alone lead to the same registry. -/
theorem run_accepted (r : Registry) (ds : List Declaration) :
    ((session r ds).1.forM add).run r = .ok () (session r ds).2 := by
  induction ds generalizing r with
  | nil => rfl
  | cons d rest ih =>
    rw [session]
    split
    next next hd =>
      change (add d >>= fun _ => (session next rest).1.forM add).run r = _
      rw [EStateM.run_bind, hd]
      exact ih next
    next e next hd =>
      rw [← eq_of_add_error hd]
      exact ih next

theorem Coherent.session (h : r.Coherent past) (ds : List Declaration) :
    (r.session ds).2.Coherent (past ++ (r.session ds).1) := by
  induction ds generalizing r past with
  | nil => simpa [Registry.session] using h
  | cons d rest ih =>
    rw [Registry.session]
    split
    next next hd => simpa using ih (h.add (adds_of_run hd))
    next e next hd =>
      rw [eq_of_add_error hd]
      exact ih h

theorem Coherent.reachable_session (h : r.Coherent past) (hr : r.declarations.Reachable)
    (ds : List Declaration) : (r.session ds).2.declarations.Reachable := by
  induction ds generalizing r past with
  | nil => exact hr
  | cons d rest ih =>
    rw [Registry.session]
    split
    next next hd =>
      have hs := adds_of_run hd
      exact ih (h.add hs) (hr.add (h.declarations_add hs))
    next e next hd =>
      rw [eq_of_add_error hd]
      exact ih h hr

/-! ### Looking classes up -/

variable {schema : IndexedSchema}

theorem build_eq_ok : r.build = .ok schema ↔
    r.declarations.build = .ok schema.toSchema ∧ schema.places = r.places := by
  simp only [build, bind_eq_ok, pure_eq_ok]
  constructor
  · intro h
    obtain ⟨_, hs, rfl⟩ := h
    exact ⟨hs, rfl⟩
  · intro h
    obtain ⟨hs, hp⟩ := h
    exact ⟨schema.toSchema, hs, by rw [← hp]⟩

theorem build_keeps (hb : r.build = .ok schema) :
    schema.classes.map (·.toClass) = r.classes :=
  (Declarations.build_keeps (build_eq_ok.mp hb).1).1

theorem Coherent.block?_eq_some_iff (h : r.Coherent past) (hb : r.build = .ok schema)
    {name : String} {c : OrderedClass} :
    schema.block? name = some c ↔ c ∈ schema.classes ∧ c.name = name := by
  have place (i : Nat) : Fields.find? name schema.places = some i ↔
      ∃ o, schema.classes[i]? = some o ∧ o.name = name := by
    rw [(build_eq_ok.mp hb).2, h.place_iff, ← build_keeps hb]
    simp
  simp only [IndexedSchema.block?, Option.bind_eq_some_iff]
  constructor
  · intro hf
    obtain ⟨i, hi, hc⟩ := hf
    obtain ⟨o, ho, hn⟩ := (place i).mp hi
    cases ho.symm.trans hc
    exact ⟨List.mem_of_getElem? hc, hn⟩
  · intro hc
    obtain ⟨hm, hn⟩ := hc
    obtain ⟨i, hi⟩ := List.getElem?_of_mem hm
    exact ⟨i, (place i).mpr ⟨c, hi, hn⟩, hi⟩

/-- The index finds what a search by name does. -/
theorem Coherent.block?_eq_class? (h : r.Coherent past) (hb : r.build = .ok schema)
    (name : String) : schema.block? name = schema.class? name := by
  have hn : (schema.classes.map (·.name)).Nodup := by
    have hnames := (List.nodup_append.mp h.names_nodup).1
    rw [← build_keeps hb] at hnames
    simpa [Function.comp_def] using hnames
  apply Option.ext
  intro c
  rw [h.block?_eq_some_iff hb, Schema.class?_eq_some_iff hn]

end Registry

/-- A class is found under each name that is declared for one, and under no other name. -/
structure IndexedSchema.Finds (schema : IndexedSchema) (accepted : List Declaration) : Prop where
  found : ∀ decl, .class decl ∈ accepted →
    ∃ c, schema.block? decl.name = some c ∧ decl.Gives c.toClass
  declared : ∀ name c, schema.block? name = some c →
    ∃ decl, .class decl ∈ accepted ∧ decl.name = name ∧ decl.Gives c.toClass

namespace Registry

variable {r : Registry} {past : List Declaration} {schema : IndexedSchema}

theorem Coherent.finds (h : r.Coherent past) (hb : r.build = .ok schema) :
    schema.Finds past := by
  have hgives := h.classes
  rw [← build_keeps hb, List.forall₂_map_right_iff] at hgives
  have mem_iff {decl : ClassDecl} :
      decl ∈ past.filterMap Declaration.class? ↔ .class decl ∈ past := by
    simp [Declaration.class?_eq_some_iff]
  constructor
  · intro decl hd
    obtain ⟨c, hc, hg⟩ := exists_of_mem_forall₂ hgives.flip (mem_iff.mpr hd)
    exact ⟨c, (h.block?_eq_some_iff hb).mpr ⟨hc, hg.name⟩, hg⟩
  · intro name c hc
    obtain ⟨hm, hn⟩ := (h.block?_eq_some_iff hb).mp hc
    obtain ⟨decl, hd, hg⟩ := exists_of_mem_forall₂ hgives hm
    exact ⟨decl, mem_iff.mp hd, hg.name.symm.trans hn, hg⟩

/-- What holds of schemas that come from declarations holds of those that calls lead to. -/
theorem built_of_session {declarations : List Declaration}
    (hb : (session {} declarations).2.build = .ok schema) : schema.toSchema.Built :=
  ⟨_, Coherent.empty.reachable_session .empty declarations, (build_eq_ok.mp hb).1⟩

/-- Whatever is added to a new registry, and whichever calls fail: a call succeeds for a new name
and a declaration that is well-formed, and else changes nothing. The calls that succeed lead to the
same registry alone, and it has exactly what they declare. The schema that is made finds their
classes, by the index as by a search, and is one that comes from declarations. -/
theorem session_spec (declarations : List Declaration) :
    let accepted := (session {} declarations).1
    let registry := (session {} declarations).2
    (∀ d (r : Registry), (∃ r', (add d).run r = .ok () r') ↔
        r.isDeclared d.name = false ∧ d.WellFormed) ∧
      (∀ d e (r r' : Registry), (add d).run r = .error e r' → r' = r) ∧
      (accepted.forM add).run {} = .ok () registry ∧ registry.Coherent accepted ∧
      ∀ schema, registry.build = .ok schema → schema.Finds accepted ∧ schema.toSchema.Built ∧
        ∀ name, schema.block? name = schema.class? name := by
  have h := Coherent.empty.session declarations
  rw [List.nil_append] at h
  exact ⟨fun _ _ => exists_add_iff, fun _ _ _ _ => eq_of_add_error, run_accepted {} declarations, h,
    fun _ hb => ⟨h.finds hb, built_of_session hb, h.block?_eq_class? hb⟩⟩

/-- Four of six calls fail. One of them is for a class, and its name is free for the enumeration
that comes after it. -/
theorem exists_session :
    let leg : ClassDecl := ⟨"Leg", [⟨"length", .int, [⟨.assert, "positive", "this > 0", none⟩]⟩,
      ⟨"unit", .enum "Unit", []⟩], []⟩
    let calls : List Declaration :=
      [.class { leg with name := "Unit", fields := leg.fields ++ leg.fields },
       .enum ⟨"Unit", ["KM", "KM"]⟩, .enum ⟨"Unit", ["KM", "MILE"]⟩, .class leg,
       .class { leg with name := "Stop", constraints := [⟨.check, "open", "this.length >", none⟩] },
       .enum ⟨"Leg", []⟩]
    (session {} calls).1.map Declaration.name = ["Unit", "Leg"] ∧
      ((session {} calls).1.forM add).run {} = .ok () (session {} calls).2 ∧
      ∃ schema c decl, (session {} calls).2.build = .ok schema ∧ schema.block? "Unit" = none ∧
        schema.block? "Leg" = some c ∧ .class decl ∈ (session {} calls).1 ∧ decl.name = "Leg" ∧
        decl.Gives c.toClass := by
  intro leg calls
  obtain ⟨-, -, hrun, -, hfinds⟩ := session_spec calls
  have hb : (session {} calls).2.build.toOption.any (fun schema =>
      (schema.block? "Unit").isNone && (schema.block? "Leg").isSome) = true := by
    decide +kernel
  obtain ⟨schema, hb, hs⟩ := toOption_any_iff.mp hb
  obtain ⟨hunit, hleg⟩ := Bool.and_eq_true_iff.mp hs
  obtain ⟨c, hc⟩ := Option.isSome_iff_exists.mp hleg
  obtain ⟨decl, hd, hn, hg⟩ := (hfinds schema hb).1.declared "Leg" c hc
  refine ⟨by decide +kernel, hrun, schema, c, decl, hb, ?_, hc, hd, hn, hg⟩
  exact Option.isNone_iff_eq_none.mp hunit

end Registry

end RecordCheck

import RecordCheck.Proofs.Validation.Readiness

/-! Before a constraint of a field is evaluated, the fields that the constraints of the field read
have been validated. -/

namespace RecordCheck

open Validation Results

/-! ### Runs -/

namespace Traced

variable {α β : Type} {w : Validation} {past : List Event} {x : Traced α}

/-- After the events of `past`, each constraint is ready when it is evaluated. -/
def Orderly (w : Validation) (past : List Event) (x : Traced α) : Prop :=
  ∀ mid site f k ctx later, x.log = mid ++ .evaluating site f k ctx :: later →
    site.Ready w (past ++ mid) f k ctx

theorem Orderly.of_log_nil (h : x.log = []) : x.Orderly w past := by
  intro mid site f k ctx later hl
  rw [h] at hl
  simp at hl

theorem Orderly.pure (a : α) : (pure a : Traced α).Orderly w past := .of_log_nil rfl

theorem Orderly.silent (r : Except ValidationError α) : (silent r).Orderly w past :=
  .of_log_nil rfl

theorem Orderly.evaluating {site : Site} {f : Field} {k : Constraint} {ctx : Eval.Context}
    (h : site.Ready w past f k ctx) : (emit (.evaluating site f k ctx)).Orderly w past := by
  intro mid site' f' k' ctx' later hl
  cases mid with
  | nil =>
    cases hl
    rwa [List.append_nil]
  | cons event mid => simp [emit] at hl

theorem Orderly.finished {site : Site} {f : Field} :
    (emit (.finished site f)).Orderly w past := by
  intro mid site' f' k' ctx' later hl
  cases mid <;> simp [emit] at hl

theorem Orderly.bind {f : α → Traced β} (hx : x.Orderly w past)
    (hf : ∀ a, x.result = .ok a → (f a).Orderly w (past ++ x.log)) :
    (x >>= f).Orderly w past := by
  intro mid site field k ctx later hl
  cases hr : x.result with
  | error e =>
    rw [log_bind_error hr] at hl
    exact hx mid site field k ctx later hl
  | ok a =>
    rw [log_bind_ok hr] at hl
    rcases List.append_eq_append_iff.mp hl with ⟨rest, rfl, he⟩ | ⟨rest, hx', he⟩
    · have hready := hf a hr rest site field k ctx later he
      rwa [List.append_assoc] at hready
    · cases rest with
      | nil =>
        rw [List.append_nil] at hx'
        have hready := hf a hr [] site field k ctx later he.symm
        rwa [List.append_nil, hx'] at hready
      | cons event rest =>
        cases he
        exact hx mid site field k ctx rest hx'

end Traced

namespace Validation

open Traced

variable {w : Validation} {site : Site} {past : List Event}

/-- Inside a value, each constraint is ready when it is evaluated, whatever came before. -/
def Follows (w : Validation) (v : Value) : Prop :=
  ∀ path type past, (trace w v path type).Orderly w past

/-! ### Fields -/

theorem log_traceAll {settings : Settings} {field : Field} {ctx : Eval.Context}
    {constraints : List Constraint} {checks : Checks}
    (h : (traceAll settings site field ctx constraints).result = .ok checks) :
    (traceAll settings site field ctx constraints).log =
      constraints.map fun k => .evaluating site field k ctx := by
  induction constraints generalizing checks with
  | nil => rfl
  | cons k rest ih =>
    simp only [traceAll, result_bind, result_emit, result_silent, bind_eq_ok] at h
    obtain ⟨-, -, outcome, ho, outcomes, hr, -⟩ := h
    rw [traceAll, log_bind_ok rfl, log_bind_ok ho, log_bind_ok hr, ih hr]
    simp [emit, silent, pure]

theorem orderly_traceAll {field : Field} {ctx : Eval.Context} {constraints : List Constraint}
    (h : ∀ k ∈ constraints, site.Ready w past field k ctx) :
    (traceAll w.settings site field ctx constraints).Orderly w past := by
  induction constraints generalizing past with
  | nil => exact .pure _
  | cons k rest ih =>
    rw [List.forall_mem_cons] at h
    rw [traceAll]
    refine (Orderly.evaluating h.1).bind fun _ _ => (Orderly.silent _).bind fun _ _ =>
      .bind (ih ?_) fun _ _ => .pure _
    intro l hl
    exact (h.2 l hl).mono (by simp)

/-- The value of the field is there if its visit succeeds. -/
theorem fieldValue?_of_traceNode {field : Field} {node : Validated}
    (h : (w.traceNode site (traces w site.fields) field).result = .ok node) :
    fieldValue? site.fields field =
      some ((Fields.find? field.name site.fields).getD .null) := by
  simp only [traceNode, find?_traces] at h
  simp only [fieldValue?]
  cases hf : Fields.find? field.name site.fields with
  | some v => rfl
  | none =>
    simp only [hf, Option.map_none, result_silent] at h
    split at h
    next ha => simp [ha]
    next => cases h

theorem orderly_traceNode {field : Field} (h : ∀ u ∈ site.fields.map (·.2), Follows w u) :
    (w.traceNode site (traces w site.fields) field).Orderly w past := by
  simp only [traceNode, find?_traces]
  cases hf : Fields.find? field.name site.fields with
  | some v => exact h v (List.mem_map_of_mem (Fields.mem_of_find? hf)) _ _ _
  | none => exact .silent _

theorem orderly_traceField {f : Field} (hc : w.schema.class? site.owner.name = some site.owner)
    (hs : site.owner.Sound) (h : ∀ u ∈ site.fields.map (·.2), Follows w u)
    (hf : f ∈ site.owner.fields)
    (hd : ∀ g ∈ site.owner.fields, g.name ≠ f.name → f.Reads g → ∃ u, site.Done w past g u) :
    (w.traceField site (traces w site.fields) f).Orderly w past := by
  rw [traceField]
  refine (orderly_traceNode h).bind fun node hn => ?_
  refine .bind (orderly_traceAll ?_) fun _ _ => .bind .finished fun _ _ => .pure _
  intro k hk
  have hready : site.Ready w past f k _ :=
    Site.ready_of_done hc hs hf (List.mem_of_mem_filter hk) (fieldValue?_of_traceNode hn) hd
  rw [Site.context_eq_block] at hready
  exact hready.mono (List.subset_append_left ..)

theorem done_of_traceField {f : Field} {entry : String × Validated}
    (h : (w.traceField site (traces w site.fields) f).result = .ok entry) :
    ∃ u, site.Done w (past ++ (w.traceField site (traces w site.fields) f).log) f u := by
  have hv := h
  rw [result_traceField fun u _ => result_trace u, Site.block, fill_eq, visitField_eq_ok] at hv
  obtain ⟨u, node, hu, hn, hm, -⟩ := hv
  rw [traceField] at h ⊢
  simp only [result_bind, bind_eq_ok] at h
  obtain ⟨node', hn', checks, hch, -, -, -⟩ := h
  have hval := fieldValue?_of_traceNode hn'
  rw [hu, Option.some.injEq] at hval
  refine ⟨u, hu, ⟨node, hn⟩, hm, ?_, ?_⟩
  · intro l hl ha
    rw [log_bind_ok hn', log_bind_ok hch, log_traceAll hch, ← hval, Site.context_eq_block]
    refine List.mem_append_right _ (List.mem_append_right _ (List.mem_append_left _ ?_))
    exact List.mem_map_of_mem (List.mem_filter.mpr ⟨hl, ha⟩)
  · rw [log_bind_ok hn', log_bind_ok hch, log_bind_ok rfl]
    simp [emit]

/-- The fields of an object are validated one after another, each after those that it reads. -/
theorem orderly_fields {fs gs : List Field}
    (hc : w.schema.class? site.owner.name = some site.owner) (hs : site.owner.Sound)
    (h : ∀ u ∈ site.fields.map (·.2), Follows w u) (ho : site.owner.fieldsInOrder = fs ++ gs)
    (hd : ∀ g ∈ fs, ∃ u, site.Done w past g u) :
    (forEach (w.traceField site (traces w site.fields)) gs).Orderly w past := by
  induction gs generalizing fs past with
  | nil => exact .pure _
  | cons f gs ih =>
    have hrest : site.owner.fieldsInOrder = (fs ++ [f]) ++ gs := by simpa using ho
    rw [forEach]
    refine .bind ?_ fun entry he => .bind (ih hrest ?_) fun _ _ => .pure _
    · have hf : f ∈ site.owner.fields := hs.complete.mem_fieldsInOrder.mp (by simp [ho])
      refine orderly_traceField hc hs h hf fun g hg hn hr => ?_
      exact hd g (hs.before ho hg hn (Field.reads_iff.mpr hr))
    · intro g hg
      rcases List.mem_append.mp hg with hg | hg
      · obtain ⟨u, hu⟩ := hd g hg
        exact ⟨u, hu.mono (List.subset_append_left ..)⟩
      · rw [List.mem_singleton.mp hg]
        exact done_of_traceField he

theorem orderly_traceObject (hc : w.schema.class? site.owner.name = some site.owner)
    (hs : site.owner.Sound) (h : ∀ u ∈ site.fields.map (·.2), Follows w u) :
    (w.traceObject site (traces w site.fields)).Orderly w past := by
  rw [traceObject]
  refine .bind (orderly_fields hc hs h (List.nil_append _).symm (by simp)) fun _ _ => ?_
  exact (Orderly.silent _).bind fun _ _ => .pure _

theorem composes_orderly : Composes fun past x => x.Orderly w past :=
  ⟨fun _ result => .silent result, Orderly.bind⟩

theorem orderly_trace (hs : ∀ c ∈ w.schema.classes, c.Sound) (v : Value) : Follows w v := by
  refine trace_induction composes_orderly (fun site hc h past => ?_) v
  exact orderly_traceObject hc (hs _ (Schema.mem_of_class? hc).1) h

end Validation

/-- Whenever a constraint of a field is evaluated, the fields that the constraints of its field
read have been validated and stand in the object that the constraint sees. If one of them aborts,
no constraint of the field is evaluated. -/
theorem Schema.Built.constraints_ready {schema : Schema} (h : schema.Built) (settings : Settings)
    (type : FieldType) (v : Value) :
    let w : Validation := ⟨schema, settings, v⟩
    let run := schema.trace settings type v
    run.result = schema.validate settings type v ∧
      (∀ (past later : List Event) (site : Site) (f : Field) (k : Constraint)
        (ctx : Eval.Context), run.log = past ++ .evaluating site f k ctx :: later →
          site.Ready w past f k ctx) ∧
      ∀ (site : Site) (f g : Field), g ∈ site.owner.fields → g.name ≠ f.name → f.Reads g →
        site.Aborts w g → ∀ k ctx, .evaluating site f k ctx ∉ run.log := by
  intro w run
  have hw : ∀ c ∈ w.schema.classes, c.Sound := h.sound
  have ready (past later : List Event) (site : Site) (f : Field) (k : Constraint)
      (ctx : Eval.Context) (hl : run.log = past ++ .evaluating site f k ctx :: later) :
      site.Ready w past f k ctx :=
    orderly_trace hw v ⟨type.rootName, []⟩ type [] past site f k ctx later hl
  refine ⟨result_trace v _ _, ready, ?_⟩
  intro site f g hg hn hr ha k ctx hm
  obtain ⟨past, later, hl⟩ := List.append_of_mem hm
  obtain ⟨u, hd, -⟩ := (ready past later site f k ctx hl).done g hg hn hr
  exact hd.not_aborts ha

/-- A field that is declared before the one that it reads is evaluated after it. -/
theorem exists_finished_before_evaluating :
    let range : ClassDecl := ⟨"Range", [⟨"high", .int, [⟨.assert, "ordered", "block.low <= this",
      none⟩]⟩, ⟨"low", .int, []⟩], []⟩
    let v : Value := .object "Range" [("high", .int 3), ("low", .int 1)]
    ∃ schema : Schema, Schema.ofDeclarations [.class range] = .ok schema ∧ schema.Built ∧
      ∃ (past later : List Event) (site : Site) (f g : Field) (k : Constraint)
        (ctx : Eval.Context), (schema.trace (Settings.mk 1 false true) (.class "Range") v).log =
          past ++ .evaluating site f k ctx :: later ∧
        f.name = "high" ∧ g.name = "low" ∧ .finished site g ∈ past := by
  intro range v
  let reads (event : Event) : Bool :=
    event.casesOn
      (fun site f _ _ => f.name == "high" &&
        site.owner.fields.any fun g => g.name == "low" && Declarations.reads f g)
      fun _ _ => false
  have hv : (Schema.ofDeclarations [.class range]).toOption.any (fun schema =>
      (schema.trace (Settings.mk 1 false true) (.class "Range") v).log.any reads) = true := by
    decide +kernel
  obtain ⟨schema, hs, hlog⟩ := toOption_any_iff.mp hv
  have hb := Schema.built_of_declarations hs
  obtain ⟨event, hm, he⟩ := List.any_eq_true.mp hlog
  obtain ⟨past, later, hl⟩ := List.append_of_mem hm
  cases event with
  | finished => cases he
  | evaluating site f k ctx =>
    simp only [reads, Bool.and_eq_true, beq_iff_eq, List.any_eq_true] at he
    obtain ⟨hf, g, hg, hn, hr⟩ := he
    have hready := (hb.constraints_ready (Settings.mk 1 false true) (.class "Range") v).2.1
      past later site f k ctx hl
    obtain ⟨u, hd, -⟩ := hready.done g hg (by simp [hf, hn]) (Field.reads_iff.mp hr)
    exact ⟨schema, hs, hb, past, later, site, f, g, k, ctx, hl, hf, hn, hd.finished⟩

end RecordCheck

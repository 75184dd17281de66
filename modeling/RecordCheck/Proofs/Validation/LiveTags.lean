import RecordCheck.Proofs.Validation.Alternatives
import RecordCheck.Proofs.Validation.Precedence
import RecordCheck.Proofs.Validation.Spots

/-! The alternative that a value lives in. One that is validated lives in an alternative with a
tag, so the constraints of a field are always chosen by a tag. -/

namespace RecordCheck

open Validation Results

/-! ### Choices -/

/-- The first item of a list that has a property. -/
def IsFirst {α : Type} (p : α → Prop) (xs : List α) (a : α) : Prop :=
  p a ∧ ∃ before after, xs = before ++ a :: after ∧ ∀ b ∈ before, ¬ p b

theorem find?_eq_some_iff_isFirst {α : Type} {p : α → Bool} {xs : List α} {a : α} :
    xs.find? p = some a ↔ IsFirst (fun b => p b = true) xs a := by
  simp only [IsFirst, List.find?_eq_some_iff_append, Bool.not_eq_true, Bool.not_eq_true']

theorem IsFirst.mem {α : Type} {p : α → Prop} {xs : List α} {a : α} (h : IsFirst p xs a) :
    a ∈ xs := by
  obtain ⟨-, before, after, rfl, -⟩ := h
  simp

theorem IsFirst.congr {α : Type} {p q : α → Prop} {xs : List α} {a : α} (h : IsFirst p xs a)
    (hpq : ∀ b ∈ xs, p b ↔ q b) : IsFirst q xs a := by
  obtain ⟨hp, before, after, rfl, hb⟩ := h
  refine ⟨(hpq a (by simp)).mp hp, before, after, rfl, fun b hm hq => hb b hm ?_⟩
  exact (hpq b (by simp [hm])).mpr hq

theorem Value.tag_eq_int_iff {v : Value} : v.tag = .int ↔ ∃ n, v = .int n := by
  cases v <;> simp [tag]

namespace FieldType

/-- Which alternative a value lives in: the first of its own tag, else for an integer the first
for floats, else none. -/
inductive Choice (alternatives : List FieldType) (v : Value) : Option FieldType → Prop where
  | own {a} (h : IsFirst (fun b => b.tag? = some v.tag) alternatives a) :
      Choice alternatives v (some a)
  | widened {n a} (hv : v = .int n) (hn : ∀ b ∈ alternatives, b.tag? ≠ some v.tag)
      (h : IsFirst (· = .float) alternatives a) : Choice alternatives v (some a)
  | none (hn : ∀ b ∈ alternatives, b.tag? ≠ some v.tag)
      (hf : ∀ n, v = .int n → .float ∉ alternatives) : Choice alternatives v none

variable {a : FieldType} {v : Value}

theorem tag?_eq_float_iff : a.tag? = some .float ↔ a = .float := by
  constructor
  · intro h
    exact eq_of_tag?_eq (b := .float) h (by simp [h]) (by simp [h]) (by simp [h])
  · rintro rfl
    rfl

/-- Apart from the values of its own tag an alternative admits only an integer as a float. -/
theorem admits_iff_of_ne (h : a.tag? ≠ some v.tag) :
    a.admits v = true ↔ a = .float ∧ ∃ n, v = .int n := by
  simp only [admits, Bool.or_eq_true, Bool.and_eq_true, beq_iff_eq, h, false_or,
    tag?_eq_float_iff, Value.tag_eq_int_iff]

theorem find?_own_iff {alternatives : List FieldType} :
    alternatives.find? (fun b => b.tag? == some v.tag) = some a ↔
      IsFirst (fun b => b.tag? = some v.tag) alternatives a := by
  simp only [find?_eq_some_iff_isFirst, beq_iff_eq]

theorem find?_admits_iff {alternatives : List FieldType}
    (hn : ∀ b ∈ alternatives, b.tag? ≠ some v.tag) :
    alternatives.find? (fun b => b.admits v) = some a ↔
      (∃ n, v = .int n) ∧ IsFirst (· = .float) alternatives a := by
  rw [find?_eq_some_iff_isFirst]
  constructor
  · intro h
    have hv := ((admits_iff_of_ne (hn a h.mem)).mp h.1).2
    exact ⟨hv, h.congr fun b hb => by simp [admits_iff_of_ne (hn b hb), hv]⟩
  · rintro ⟨hv, h⟩
    exact h.congr fun b hb => by simp [admits_iff_of_ne (hn b hb), hv]

theorem select?_of_ne {type : FieldType} (hn : ∀ b ∈ type.variants, b.tag? ≠ some v.tag) :
    type.select? v = type.variants.find? fun b => b.admits v := by
  have hnone : type.variants.find? (fun b => b.tag? == some v.tag) = none := by
    simpa using hn
  rw [select?, hnone]

/-- The selection is the choice. -/
theorem select?_eq_iff {type : FieldType} {choice : Option FieldType} :
    type.select? v = choice ↔ Choice type.variants v choice := by
  constructor
  · rintro rfl
    by_cases hx : ∃ b ∈ type.variants, b.tag? = some v.tag
    · have hsome : (type.variants.find? fun b => b.tag? == some v.tag).isSome := by
        simpa [List.find?_isSome] using hx
      obtain ⟨a, ha⟩ := Option.isSome_iff_exists.mp hsome
      rw [select?, ha]
      exact .own (find?_own_iff.mp ha)
    · have hn : ∀ b ∈ type.variants, b.tag? ≠ some v.tag := fun b hb ht => hx ⟨b, hb, ht⟩
      rw [select?_of_ne hn]
      cases hf : type.variants.find? fun b => b.admits v with
      | some a =>
        obtain ⟨⟨n, hv⟩, h⟩ := (find?_admits_iff hn).mp hf
        exact .widened hv hn h
      | none =>
        refine .none hn fun n hv hm => List.find?_eq_none.mp hf _ hm ?_
        exact (admits_iff_of_ne (hn _ hm)).mpr ⟨rfl, n, hv⟩
  · intro h
    cases h with
    | own h => rw [select?, find?_own_iff.mpr h]
    | widened hv hn h =>
      rw [select?_of_ne hn]
      exact (find?_admits_iff hn).mpr ⟨⟨_, hv⟩, h⟩
    | none hn hf =>
      rw [select?_of_ne hn, List.find?_eq_none]
      intro b hb ha
      obtain ⟨rfl, n, hv⟩ := (admits_iff_of_ne (hn b hb)).mp ha
      exact hf n hv hb

/-- Without an alternative for integers an integer lives in the one for floats. -/
example : (optional (.union [.string, .optional .bool, .union [.list .int, .float]])).select?
    (.int 3) = some .float := rfl

end FieldType

/-! ### Visits that succeed -/

namespace Validation

variable {w : Validation} {path : Path} {type : FieldType} {v : Value} {tree : Validated}

/-- A value that is accepted lives in an alternative with a tag, and is accepted as one of that
alternative. -/
theorem Derivation.live (h : Derivation w path type v tree) :
    ∃ a tag, type.select? v = some a ∧ a.tag? = some tag ∧ Derivation w path a v tree := by
  cases h with
  | @alternative _ _ a _ _ ht hs h =>
    obtain ⟨tag, hta⟩ := Option.isSome_iff_exists.mp (FieldType.tag_of_select? hs)
    exact ⟨a, tag, hs, hta, h⟩
  | scalar hd hs =>
    obtain ⟨tag, hta⟩ := Option.isSome_iff_exists.mp (FieldType.tag_of_select? hs.select?)
    exact ⟨type, tag, hs.select?, hta, .scalar hd hs⟩
  | list hd h => exact ⟨_, .list, FieldType.select?_list .., rfl, .list hd h⟩
  | map hd hk h => exact ⟨_, .map, FieldType.select?_map .., rfl, .map hd hk h⟩
  | @object _ name _ _ _ _ hd hc hv h hm ho =>
    exact ⟨_, .class name, FieldType.select?_class .., rfl, .object hd hc hv h hm ho⟩

/-- So does every value inside it that is validated. -/
theorem Stands.live {s : Spot} (h : Stands w s tree) (ht : s.type? = some type) :
    ∃ a tag, type.select? s.value = some a ∧ a.tag? = some tag := by
  cases h with
  | value h | field h =>
    cases ht
    obtain ⟨a, tag, hs, hta, -⟩ := h.live
    exact ⟨a, tag, hs, hta⟩
  | plain => cases ht

end Validation

/-- The field of an object has a value, which lives in an alternative with the tag. -/
structure Site.Live (schema : Schema) (site : Site) (f : Field) (v : Value) (tag : Tag) : Prop where
  class_eq : schema.class? site.owner.name = some site.owner
  field_mem : f ∈ site.owner.fields
  value_eq : fieldValue? site.fields f = some v
  tagged : ∃ a, f.type.select? v = some a ∧ a.tag? = some tag

/-- The constraints of a field are chosen by the tag of the alternative that its value lives in. -/
def Event.Tagged (w : Validation) (log : List Event) : Event → Prop
  | .evaluating site f k ctx => ∃ v tag, site.Live w.schema f v tag ∧ ctx = site.context w v ∧
      k ∈ f.constraints ∧ k.appliesTo tag = true
  | .finished site f => ∃ v tag, site.Live w.schema f v tag ∧ ∀ k ∈ f.constraints,
      k.appliesTo tag = true → .evaluating site f k (site.context w v) ∈ log

theorem Event.Tagged.mono {w : Validation} {log log' : List Event} {event : Event}
    (h : event.Tagged w log) (hs : log ⊆ log') : event.Tagged w log' := by
  cases event with
  | evaluating => exact h
  | finished =>
    obtain ⟨v, tag, hl, he⟩ := h
    exact ⟨v, tag, hl, fun k hk ha => hs (he k hk ha)⟩

namespace Traced

variable {α β : Type} {w : Validation} {x : Traced α}

/-- Every event of the log is about a field whose constraints are chosen by a tag. -/
def Tagged (w : Validation) (x : Traced α) : Prop := ∀ event ∈ x.log, event.Tagged w x.log

theorem log_bind_pure (f : α → β) : (x >>= fun a => pure (f a)).log = x.log := by
  cases hr : x.result with
  | error e => rw [log_bind_error hr]
  | ok a =>
    rw [log_bind_ok hr]
    exact List.append_nil _

theorem Tagged.pure (a : α) : (pure a : Traced α).Tagged w := fun _ h => nomatch h

theorem Tagged.silent (r : Except ValidationError α) : (silent r).Tagged w :=
  fun _ h => nomatch h

theorem Tagged.bind {f : α → Traced β} (hx : x.Tagged w)
    (hf : ∀ a, x.result = .ok a → (f a).Tagged w) : (x >>= f).Tagged w := by
  intro event he
  cases hr : x.result with
  | error e =>
    rw [log_bind_error hr] at he ⊢
    exact hx event he
  | ok a =>
    rw [log_bind_ok hr] at he ⊢
    rcases List.mem_append.mp he with he | he
    · exact (hx event he).mono (List.subset_append_left ..)
    · exact (hf a hr event he).mono (List.subset_append_right ..)

theorem Tagged.forEach {f : α → Traced β} {xs : List α} (h : ∀ a ∈ xs, (f a).Tagged w) :
    (forEach f xs).Tagged w := by
  induction xs with
  | nil => exact .pure _
  | cons a rest ih =>
    rw [List.forall_mem_cons] at h
    rw [Traced.forEach]
    exact h.1.bind fun _ _ => (ih h.2).bind fun _ _ => .pure _

end Traced

namespace Validation

open Traced

variable {w : Validation} {site : Site}

/-- Inside a value, the constraints of every field are chosen by a tag. -/
def Tags (w : Validation) (v : Value) : Prop := ∀ path type, (trace w v path type).Tagged w

/-! ### Fields -/

/-- Where the visit of a field succeeds, it is that of its value. -/
theorem visit_of_traceNode {f : Field} {node : Validated}
    (h : (w.traceNode site (traces w site.fields) f).result = .ok node) :
    ∃ v, fieldValue? site.fields f = some v ∧ visit w v (site.place f) f.type = .ok node := by
  have hval := fieldValue?_of_traceNode h
  refine ⟨_, hval, ?_⟩
  simp only [traceNode, find?_traces] at h
  simp only [fieldValue?] at hval
  cases hf : Fields.find? f.name site.fields with
  | some v =>
    simp only [hf, Option.map_some] at h
    rw [← h]
    exact (result_trace v _ _).symm
  | none =>
    have ha : f.type.accepts .null = true := by
      by_contra ha
      simp [hf, ha] at hval
    simpa [hf, ha, visitAbsent_eq, Site.place] using h

/-- Constraints are evaluated in their order, up to one that fails. -/
theorem log_traceAll_upTo {settings : Settings} {f : Field} {ctx : Eval.Context}
    {constraints : List Constraint} :
    (traceAll settings site f ctx constraints).log <+:
      constraints.map fun k => .evaluating site f k ctx := by
  induction constraints with
  | nil => exact List.nil_prefix
  | cons k rest ih =>
    rw [traceAll, log_bind_ok rfl, List.map_cons]
    refine List.cons_prefix_cons.mpr ⟨rfl, ?_⟩
    cases hk : settings.runConstraint (site.path.push (.field f.name)) ctx k with
    | error e =>
      rw [log_bind_error rfl]
      exact List.nil_prefix
    | ok outcome =>
      rw [log_bind_ok rfl, log_bind_pure]
      exact ih

theorem tagged_traceNode {f : Field} (h : ∀ u ∈ site.fields.map (·.2), Tags w u) :
    (w.traceNode site (traces w site.fields) f).Tagged w := by
  simp only [traceNode, find?_traces]
  cases hf : Fields.find? f.name site.fields with
  | some v => exact h v (List.mem_map_of_mem (Fields.mem_of_find? hf)) _ _
  | none => exact .silent _

theorem tagged_of_mem_traceAll {f : Field} {v : Value} {tag : Tag} {event : Event}
    (hl : site.Live w.schema f v tag) (log : List Event)
    (he : event ∈ (traceAll w.settings site f (site.context w v)
      (f.constraints.filter (·.appliesTo tag))).log) : event.Tagged w log := by
  obtain ⟨k, hk, rfl⟩ := List.mem_map.mp (log_traceAll_upTo.subset he)
  obtain ⟨hk, ha⟩ := List.mem_filter.mp hk
  exact ⟨v, tag, hl, rfl, hk, ha⟩

/-- What follows the visit of a field: its constraints, and the event that it is finished. -/
theorem tagged_constraints {α : Type} {f : Field} {v : Value} {tag : Tag}
    (hl : site.Live w.schema f v tag) (g : Checks → α) :
    (do
      let checks ← traceAll w.settings site f (site.context w v)
        (f.constraints.filter (·.appliesTo tag))
      emit (.finished site f)
      return g checks : Traced α).Tagged w := by
  intro event he
  cases hr : (traceAll w.settings site f (site.context w v)
      (f.constraints.filter (·.appliesTo tag))).result with
  | error e =>
    rw [log_bind_error hr] at he
    exact tagged_of_mem_traceAll hl _ he
  | ok checks =>
    rw [log_bind_ok hr, log_bind_pure] at he ⊢
    rcases List.mem_append.mp he with he | he
    · exact tagged_of_mem_traceAll hl _ he
    · rw [List.mem_singleton.mp he]
      refine ⟨v, tag, hl, fun k hk ha => List.mem_append_left _ ?_⟩
      rw [log_traceAll hr]
      exact List.mem_map_of_mem (List.mem_filter.mpr ⟨hk, ha⟩)

theorem tagged_traceField {f : Field} (hw : w.schema.Complete)
    (hc : w.schema.class? site.owner.name = some site.owner) (hf : f ∈ site.owner.fields)
    (h : ∀ u ∈ site.fields.map (·.2), Tags w u) :
    (w.traceField site (traces w site.fields) f).Tagged w := by
  rw [traceField]
  refine (tagged_traceNode h).bind fun node hn => ?_
  obtain ⟨v, hv, hok⟩ := visit_of_traceNode hn
  obtain ⟨a, tag, hs, hta, -⟩ := (derivation_of_visit hw hok).live
  have hl : site.Live w.schema f v tag := ⟨hc, hf, hv, a, hs, hta⟩
  have htag : (f.type.select? v).bind (·.tag?) = some tag := by rw [hs, Option.bind_some, hta]
  simp only [getD_of_fieldValue? hv, htag, ← Site.context_eq_block]
  exact tagged_constraints hl _

theorem tagged_traceObject (hw : w.schema.Complete)
    (hc : w.schema.class? site.owner.name = some site.owner)
    (h : ∀ u ∈ site.fields.map (·.2), Tags w u) :
    (w.traceObject site (traces w site.fields)).Tagged w := by
  have hcomplete := hw _ (Schema.mem_of_class? hc).1
  rw [traceObject]
  refine .bind (.forEach fun f hf => ?_) fun _ _ => (Tagged.silent _).bind fun _ _ => .pure _
  exact tagged_traceField hw hc (hcomplete.mem_fieldsInOrder.mp hf) h

theorem composes_tagged : Composes fun _ x => x.Tagged w :=
  ⟨fun _ result => .silent result, Tagged.bind⟩

theorem tagged_trace (hw : w.schema.Complete) (v : Value) : Tags w v := by
  intro path type
  refine trace_induction composes_tagged (fun site hc h _ => ?_) v path type []
  exact tagged_traceObject hw hc fun u hu path type => h u hu path type []

end Validation

theorem Site.Live.eq {schema : Schema} {site : Site} {f : Field} {v v' : Value} {tag tag' : Tag}
    (h : site.Live schema f v tag) (h' : site.Live schema f v' tag') : v = v' ∧ tag = tag' := by
  obtain rfl : v = v' := Option.some.inj (h.value_eq.symm.trans h'.value_eq)
  obtain ⟨a, hs, ht⟩ := h.tagged
  obtain ⟨a', hs', ht'⟩ := h'.tagged
  obtain rfl : a = a' := Option.some.inj (hs.symm.trans hs')
  exact ⟨rfl, Option.some.inj (ht.symm.trans ht')⟩

/-- The alternatives of a type are neither unions nor optional. A value lives in the first one of
its own tag, or else, if it is an integer, in the first one for floats, and a type accepts the
values that live in one of its alternatives. Where a built schema accepts a value, it and all that
is validated inside it live in alternatives with a tag. In any run, of the constraints of a field
those are evaluated that apply to the tag of the alternative that its value lives in. -/
theorem FieldType.live_alternative (type : FieldType) (v : Value) :
    (∀ a ∈ type.variants, (∀ members, a ≠ .union members) ∧ ∀ base, a ≠ .optional base) ∧
    (∀ choice, type.select? v = choice ↔ Choice type.variants v choice) ∧
    (type.accepts v = true ↔ ∃ a, type.select? v = some a) ∧
    ∀ schema : Schema, schema.Built → ∀ settings,
      (∀ tree, schema.validate settings type v = .ok tree →
        ∃ a tag, type.select? v = some a ∧ a.tag? = some tag ∧
          schema.validate settings a v = .ok tree ∧
          ∀ steps s declared, schema.spot? type v steps = some s → s.type? = some declared →
            ∃ b tag, declared.select? s.value = some b ∧ b.tag? = some tag) ∧
      let run := schema.trace settings type v
      run.result = schema.validate settings type v ∧
      (∀ site f k ctx, .evaluating site f k ctx ∈ run.log → ∃ tag,
        site.Live schema f ctx.this tag ∧ k ∈ f.constraints ∧ k.appliesTo tag = true) ∧
      ∀ site f, .finished site f ∈ run.log → ∃ u tag, site.Live schema f u tag ∧
        ∀ k ∈ f.constraints,
          (∃ ctx, .evaluating site f k ctx ∈ run.log) ↔ k.appliesTo tag = true := by
  refine ⟨fun a ha => ?_, fun _ => select?_eq_iff, ?_, fun schema hb settings => ⟨?_, ?_⟩⟩
  · have ht := tag_of_mem_variants type a ha
    constructor
    · rintro members rfl
      cases ht
    · rintro base rfl
      cases ht
  · rw [accepts_iff_select?, Option.isSome_iff_exists]
  · intro tree hok
    have hderivation := (hb.complete.validate_eq_ok_iff "root").mp hok
    obtain ⟨a, tag, hs, ht, hd⟩ := hderivation.live
    refine ⟨a, tag, hs, ht, (hb.complete.validate_eq_ok_iff "root").mpr hd, ?_⟩
    intro steps s declared hspot hdeclared
    have hreach := (Stands.value hderivation).reach? steps
    obtain ⟨node, -, hstands⟩ := exists_of_rel_left hreach hspot
    exact hstands.live hdeclared
  · intro run
    have tagged : run.Tagged ⟨schema, settings, v⟩ :=
      tagged_trace (w := ⟨schema, settings, v⟩) hb.complete v _ _
    refine ⟨result_trace v _ _, ?_, ?_⟩
    · intro site f k ctx he
      obtain ⟨u, tag, hl, rfl, hk, ha⟩ := tagged _ he
      exact ⟨tag, hl, hk, ha⟩
    · intro site f he
      obtain ⟨u, tag, hl, hall⟩ := tagged _ he
      refine ⟨u, tag, hl, fun k hk => ⟨?_, fun ha => ⟨_, hall k hk ha⟩⟩⟩
      rintro ⟨ctx, he⟩
      obtain ⟨u', tag', hl', -, -, ha⟩ := tagged _ he
      obtain ⟨-, rfl⟩ := hl.eq hl'
      exact ha

/-- An integer in a field for strings or floats meets the constraint on floats alone. -/
theorem exists_live_alternative :
    let level : FieldType := .optional (.union [.string, .optional (.union [.float, .list .int])])
    let reading : ClassDecl := ⟨"Reading", [⟨"level", level,
      [⟨.assert, "short", "len(this) < 9", some .string⟩,
        ⟨.assert, "positive", "this > 0", some .float⟩]⟩], []⟩
    let v : Value := .object "Reading" [("level", .int 3)]
    ∃ (schema : Schema) (tree : Validated), Schema.ofDeclarations [.class reading] = .ok schema ∧
      schema.Built ∧
      schema.validate (Settings.mk 1 false true) (.class "Reading") v = .ok tree ∧
      (∃ a tag, (FieldType.class "Reading").select? v = some a ∧ a.tag? = some tag) ∧
      ∃ (site : Site) (f : Field) (k : Constraint) (ctx : Eval.Context),
        .evaluating site f k ctx ∈
          (schema.trace (Settings.mk 1 false true) (.class "Reading") v).log ∧
        k.message = "positive" ∧ site.Live schema f ctx.this .float := by
  intro level reading v
  let positive (event : Event) : Bool :=
    event.casesOn (fun _ _ k _ => k.message == "positive" && k.variant == some .float)
      fun _ _ => false
  have hv : (Schema.ofDeclarations [.class reading]).toOption.any (fun schema =>
      (schema.validate (Settings.mk 1 false true) (.class "Reading") v).isOk &&
      (schema.trace (Settings.mk 1 false true) (.class "Reading") v).log.any positive) = true := by
    decide +kernel
  obtain ⟨schema, hs, h⟩ := toOption_any_iff.mp hv
  obtain ⟨hok, hlog⟩ := Bool.and_eq_true_iff.mp h
  obtain ⟨tree, hok⟩ := isOk_iff.mp hok
  obtain ⟨event, hm, he⟩ := List.any_eq_true.mp hlog
  have hb := Schema.built_of_declarations hs
  obtain ⟨-, -, -, hrun⟩ := FieldType.live_alternative (.class "Reading") v
  obtain ⟨hvalid, -, hevaluating, -⟩ := hrun schema hb (Settings.mk 1 false true)
  obtain ⟨a, tag, ha, ht, -⟩ := hvalid tree hok
  cases event with
  | finished => cases he
  | evaluating site f k ctx =>
    simp only [positive, Bool.and_eq_true, beq_iff_eq] at he
    obtain ⟨hmessage, hvariant⟩ := he
    obtain ⟨tag', hl, -, happlies⟩ := hevaluating site f k ctx hm
    obtain rfl : .float = tag' := by simpa [Constraint.appliesTo, hvariant] using happlies
    exact ⟨schema, tree, hs, hb, hok, ⟨a, tag, ha, ht⟩, site, f, k, ctx, hm, hmessage, hl⟩

end RecordCheck

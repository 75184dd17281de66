import RecordCheck.Proofs.Schema.Fields
import RecordCheck.Proofs.Validation.Visit
import RecordCheck.Proofs.Value.Parts

/-! A visit that keeps a log of its fields. Without the log, it is the visit itself. -/

namespace RecordCheck

/-- An object that is visited: its place, its class and the fields that it comes with. -/
structure Site where
  path : Path
  owner : OrderedClass
  fields : List (String × Value)

/-- The object as its constraints see it. -/
def Site.block (site : Site) : Value := Validation.fill site.owner.toClass site.fields

inductive Event where
  /-- A constraint of a field is about to be evaluated. -/
  | evaluating (site : Site) (field : Field) (constraint : Constraint) (ctx : Eval.Context)
  /-- A field has been validated, its constraints included. -/
  | finished (site : Site) (field : Field)

/-- A computation with a log. The log is kept where the computation fails. -/
structure Traced (α : Type) where
  log : List Event
  result : Except ValidationError α

namespace Traced

variable {α β : Type}

instance : Monad Traced where
  pure a := ⟨[], .ok a⟩
  bind x f :=
    match x.result with
    | .ok a => ⟨x.log ++ (f a).log, (f a).result⟩
    | .error e => ⟨x.log, .error e⟩

/-- A computation that logs nothing. -/
def silent (result : Except ValidationError α) : Traced α := ⟨[], result⟩

def emit (event : Event) : Traced Unit := ⟨[event], .ok ()⟩

@[simp] theorem result_pure (a : α) : (pure a : Traced α).result = .ok a := rfl

@[simp] theorem result_silent (x : Except ValidationError α) : (silent x).result = x := rfl

@[simp] theorem result_emit (event : Event) : (emit event).result = .ok () := rfl

@[simp] theorem result_bind (x : Traced α) (f : α → Traced β) :
    (x >>= f).result = x.result >>= fun a => (f a).result := by
  simp only [bind, Except.bind]
  cases x.result <;> rfl

theorem log_bind_ok {x : Traced α} {a : α} (h : x.result = .ok a) (f : α → Traced β) :
    (x >>= f).log = x.log ++ (f a).log := by
  simp only [bind, h]

theorem log_bind_error {x : Traced α} {e : ValidationError} (h : x.result = .error e)
    (f : α → Traced β) : (x >>= f).log = x.log := by
  simp only [bind, h]

/-- The results of a computation for each item of a list, from left to right. -/
def forEach (f : α → Traced β) : List α → Traced (List β)
  | [] => pure []
  | a :: rest => do
    let b ← f a
    return b :: (← forEach f rest)

theorem result_forEach {f : α → Traced β} {g : α → Except ValidationError β} {xs : List α}
    (h : ∀ a ∈ xs, (f a).result = g a) : (forEach f xs).result = xs.mapM g := by
  induction xs with
  | nil => rfl
  | cons a rest ih =>
    rw [List.forall_mem_cons] at h
    simp only [forEach, result_bind, result_pure, List.mapM_cons, h.1, ih h.2]
    rfl

end Traced

/-- A visit with a log. -/
abbrev TracedVisit : Type := Path → FieldType → Traced Validated

namespace Validation

open Traced

/-- Runs constraints of a field. -/
def traceAll (settings : Settings) (site : Site) (field : Field) (ctx : Eval.Context) :
    List Constraint → Traced Checks
  | [] => pure []
  | c :: rest => do
    emit (.evaluating site field c ctx)
    let outcome ← silent (settings.runConstraint (site.path.push (.field field.name)) ctx c)
    let outcomes ← traceAll settings site field ctx rest
    return outcome.toList ++ outcomes

/-- Visits the value of a field. -/
def traceNode (w : Validation) (site : Site) (visits : List (String × TracedVisit))
    (field : Field) : Traced Validated :=
  let place := site.path.push (.field field.name)
  match Fields.find? field.name visits with
  | some visit => visit place field.type
  | none =>
    silent (if field.type.accepts .null then w.visitAbsent place field.type
      else mismatch place field.type.text "missing field")

def traceField (w : Validation) (site : Site) (visits : List (String × TracedVisit))
    (field : Field) : Traced (String × Validated) := do
  let node ← w.traceNode site visits field
  let v := (Fields.find? field.name site.fields).getD .null
  let tag := (field.type.select? v).bind (·.tag?)
  let checks ← traceAll w.settings site field ⟨v, site.block, w.root⟩
    (field.constraints.filter (·.appliesIn tag))
  emit (.finished site field)
  return (field.name, wrap field.hasChecks checks node)

def traceObject (w : Validation) (site : Site) (visits : List (String × TracedVisit)) :
    Traced Validated := do
  let c := site.owner
  let nodes ← forEach (w.traceField site visits) c.fieldsInOrder
  let checks ← silent (w.settings.runConstraints site.path
    (Eval.Context.ofObject site.block w.root) (some (.class c.name)) c.constraints)
  return wrap c.hasChecks checks (.object c.name (arrange c.toClass nodes site.fields))

mutual

/-- The visit of a value with the log of all fields inside it. -/
def trace (w : Validation) (v : Value) (path : Path) (type : FieldType) : Traced Validated :=
  match v with
  | .list items => do
    match ← silent (w.enter path type (.list items)) with
    | .list item => return .list (← traceItems w items path item 0)
    | type => silent (w.leaf path type (.list items))
  | .map entries => do
    match ← silent (w.enter path type (.map entries)) with
    | .map key value => return .map (← traceEntries w entries path key value)
    | type => silent (w.leaf path type (.map entries))
  | .object className fields => do
    match ← silent (w.enter path type (.object className fields)) with
    | .class name =>
      match w.schema.class? name with
      | none => silent (.error (.unknownClass name))
      | some c =>
        if className = name then w.traceObject ⟨path, c, fields⟩ (traces w fields)
        else silent (mismatch path name className)
    | type => silent (w.leaf path type (.object className fields))
  | v => silent (visit w v path type)

def traceItems (w : Validation) (items : List Value) (path : Path) (type : FieldType) (i : Nat) :
    Traced (List Validated) :=
  match items with
  | [] => pure []
  | v :: rest => do
    let node ← trace w v (path.push (.index i)) type
    return node :: (← traceItems w rest path type (i + 1))

def traceEntries (w : Validation) (entries : List (String × Value)) (path : Path)
    (keyType type : FieldType) : Traced (List (String × Validated)) :=
  match entries with
  | [] => pure []
  | (key, v) :: rest => do
    let place := path.push (.key key)
    silent (unless w.acceptsKey keyType key do
      mismatch place keyType.text ("key " ++ Text.quoted key))
    let node ← trace w v place type
    return (key, node) :: (← traceEntries w rest path keyType type)

def traces (w : Validation) : List (String × Value) → List (String × TracedVisit)
  | [] => []
  | (name, v) :: rest => (name, fun path type => trace w v path type) :: traces w rest

end

end Validation

/-- Validates a value of a type and keeps the log. -/
def Schema.trace (schema : Schema) (settings : Settings) (type : FieldType) (v : Value) :
    Traced Validated :=
  Validation.trace ⟨schema, settings, v⟩ v ⟨type.rootName, []⟩ type

namespace Validation

open Traced

variable {w : Validation} {path : Path} {type : FieldType} {v : Value}

/-! ### Erasure -/

theorem result_traceAll (settings : Settings) (site : Site) (field : Field) (ctx : Eval.Context)
    (constraints : List Constraint) :
    (traceAll settings site field ctx constraints).result =
      settings.runAll (site.path.push (.field field.name)) ctx constraints := by
  induction constraints with
  | nil => rfl
  | cons c rest ih =>
    simp only [traceAll, Settings.runAll, result_bind, result_emit, result_silent, result_pure, ih]
    rfl

theorem find?_traces (name : String) (fields : List (String × Value)) :
    Fields.find? name (traces w fields) =
      (Fields.find? name fields).map fun v path type => trace w v path type := by
  induction fields with
  | nil => rfl
  | cons entry rest ih =>
    obtain ⟨n, v⟩ := entry
    simp only [traces, Fields.find?, ih]
    split <;> rfl

/-- The log can be erased from the visits of a value. -/
def Erases (w : Validation) (v : Value) : Prop :=
  ∀ path type, (trace w v path type).result = visit w v path type

theorem result_traceField {site : Site} (h : ∀ u ∈ site.fields.map (·.2), Erases w u)
    (field : Field) :
    (w.traceField site (traces w site.fields) field).result =
      w.visitField site.path site.block site.fields (visits w site.fields) field := by
  simp only [traceField, traceNode, visitField, find?_traces, find?_visits, result_bind,
    result_pure, result_emit, result_traceAll, Settings.runConstraints]
  cases hf : Fields.find? field.name site.fields with
  | some v =>
    have hv := h v (List.mem_map_of_mem (Fields.mem_of_find? hf))
    simp only [Option.map_some, hv _ _]
    rfl
  | none =>
    simp only [Option.map_none, result_silent]
    split <;> rfl

theorem result_traceObject {site : Site} (h : ∀ u ∈ site.fields.map (·.2), Erases w u) :
    (w.traceObject site (traces w site.fields)).result =
      w.visitObject site.path site.owner site.fields (visits w site.fields) := by
  simp only [traceObject, visitObject, result_bind, result_silent, result_pure,
    result_forEach fun field _ => result_traceField h field]
  rfl

theorem result_traceItems {items : List Value} (h : ∀ u ∈ items, Erases w u) (i : Nat) :
    (traceItems w items path type i).result = visitItems w items path type i := by
  induction items generalizing i with
  | nil => rfl
  | cons v rest ih =>
    rw [List.forall_mem_cons] at h
    simp only [traceItems, visitItems, result_bind, result_pure, h.1 _ _, ih h.2]
    rfl

theorem result_traceEntries {entries : List (String × Value)} {key : FieldType}
    (h : ∀ u ∈ entries.map (·.2), Erases w u) :
    (traceEntries w entries path key type).result = visitEntries w entries path key type := by
  induction entries with
  | nil => rfl
  | cons entry rest ih =>
    obtain ⟨k, v⟩ := entry
    rw [List.map_cons, List.forall_mem_cons] at h
    simp only [traceEntries, visitEntries, result_bind, result_pure, result_silent, h.1 _ _,
      ih h.2]
    split <;> rfl

/-- Without its log, a traced visit is the visit. -/
theorem result_trace (v : Value) : Erases w v := by
  induction v using Value.induction_parts with
  | h v ih =>
    intro path type
    cases v with
    | list items =>
      have hi : ∀ u ∈ items, Erases w u := ih
      simp only [trace, visit, result_bind, result_silent]
      congr 1
      funext a
      cases a with
      | list item =>
        simp only [result_bind, result_pure, result_traceItems hi]
        rfl
      | _ => rfl
    | map entries =>
      have he : ∀ u ∈ entries.map (·.2), Erases w u := ih
      simp only [trace, visit, result_bind, result_silent]
      congr 1
      funext a
      cases a with
      | map key item =>
        simp only [result_bind, result_pure, result_traceEntries he]
        rfl
      | _ => rfl
    | object name fields =>
      simp only [trace, visit, result_bind, result_silent]
      congr 1
      funext a
      cases a with
      | «class» declared =>
        cases hc : w.schema.class? declared with
        | none => simp only [hc, result_silent]
        | some c =>
          simp only [hc]
          split
          · let site : Site := ⟨path, c, fields⟩
            have hf : ∀ u ∈ site.fields.map (·.2), Erases w u := ih
            exact result_traceObject hf
          · rfl
      | _ => rfl
    | _ => simp only [trace, result_silent]

end Validation

/-! ### Logs -/

/-- A property of computations, after the events so far, that is kept from step to step. -/
structure Traced.Composes (P : ∀ {α : Type}, List Event → Traced α → Prop) : Prop where
  silent {α : Type} (past : List Event) (result : Except ValidationError α) :
    P past (silent result)
  bind {α β : Type} {past : List Event} {x : Traced α} {f : α → Traced β} (hx : P past x)
    (hf : ∀ a, x.result = .ok a → P (past ++ x.log) (f a)) : P past (x >>= f)

namespace Validation

open Traced

variable {w : Validation} {P : ∀ {α : Type}, List Event → Traced α → Prop}
variable {past : List Event} {path : Path} {type : FieldType}

/-- Inside a value the property holds, whatever came before. -/
def Throughout (w : Validation) (P : ∀ {α : Type}, List Event → Traced α → Prop) (v : Value) :
    Prop :=
  ∀ path type past, P past (trace w v path type)

theorem composes_traceItems (hP : Composes P) {items : List Value}
    (h : ∀ u ∈ items, Throughout w P u) {i : Nat} :
    P past (traceItems w items path type i) := by
  induction items generalizing past i with
  | nil => exact hP.silent _ _
  | cons v rest ih =>
    rw [List.forall_mem_cons] at h
    rw [traceItems]
    exact hP.bind (h.1 _ _ _) fun _ _ => hP.bind (ih h.2) fun _ _ => hP.silent _ _

theorem composes_traceEntries (hP : Composes P) {entries : List (String × Value)}
    {key : FieldType} (h : ∀ u ∈ entries.map (·.2), Throughout w P u) :
    P past (traceEntries w entries path key type) := by
  induction entries generalizing past with
  | nil => exact hP.silent _ _
  | cons entry rest ih =>
    obtain ⟨k, v⟩ := entry
    rw [List.map_cons, List.forall_mem_cons] at h
    rw [traceEntries]
    refine hP.bind (hP.silent _ _) fun _ _ => hP.bind (h.1 _ _ _) fun _ _ => ?_
    exact hP.bind (ih h.2) fun _ _ => hP.silent _ _

/-- A property holds throughout values if it holds of the run of each object inside which it
holds. -/
theorem trace_induction (hP : Composes P)
    (h : ∀ site : Site, w.schema.class? site.owner.name = some site.owner →
      (∀ u ∈ site.fields.map (·.2), Throughout w P u) →
        ∀ past, P past (w.traceObject site (traces w site.fields)))
    (v : Value) : Throughout w P v := by
  induction v using Value.induction_parts with
  | h v ih =>
    intro path type past
    cases v with
    | list items =>
      have hi : ∀ u ∈ items, Throughout w P u := ih
      rw [trace]
      refine hP.bind (hP.silent _ _) fun a _ => ?_
      cases a with
      | list item => exact hP.bind (composes_traceItems hP hi) fun _ _ => hP.silent _ _
      | _ => exact hP.silent _ _
    | map entries =>
      have he : ∀ u ∈ entries.map (·.2), Throughout w P u := ih
      rw [trace]
      refine hP.bind (hP.silent _ _) fun a _ => ?_
      cases a with
      | map key item => exact hP.bind (composes_traceEntries hP he) fun _ _ => hP.silent _ _
      | _ => exact hP.silent _ _
    | object name fields =>
      rw [trace]
      refine hP.bind (hP.silent _ _) fun a _ => ?_
      cases a with
      | «class» declared =>
        cases hc : w.schema.class? declared with
        | none => simpa only [hc] using hP.silent _ _
        | some c =>
          simp only [hc]
          split
          · let site : Site := ⟨path, c, fields⟩
            have hf : ∀ u ∈ site.fields.map (·.2), Throughout w P u := ih
            have hc' : w.schema.class? site.owner.name = some site.owner := by
              rw [← hc, ← (Schema.mem_of_class? hc).2]
            exact h site hc' hf _
          · exact hP.silent _ _
      | _ => exact hP.silent _ _
    | _ =>
      simp only [trace]
      exact hP.silent _ _

end Validation

end RecordCheck

import RecordCheck.Proofs.Validation.Visit
import RecordCheck.Proofs.Value.Parts

/-! A visit that has no schema and asks for what it has to know. Whatever a visit takes from a
schema is therefore an answer to a question, and with the answers of a schema the walk is the
visit. -/

namespace RecordCheck

open Results

/-- A question about what is declared. -/
inductive Query where
  /-- The class with a name. -/
  | class (name : String)
  /-- Whether a value is a member of the enumeration with a name. -/
  | member (name : String) (v : Value)
  /-- Whether a key is admitted by a type of keys. -/
  | key (type : FieldType) (key : String)

def Query.Answer : Query → Type
  | .class _ => Option OrderedClass
  | .member _ _ | .key _ _ => Bool

namespace Validation

/-- The value is a member of the enumeration that is declared under the name. -/
def isMember (w : Validation) (name : String) : Value → Bool
  | .member enumName variant => enumName = name && w.isVariant name variant
  | _ => false

def answer (w : Validation) : (query : Query) → query.Answer
  | .class name => w.schema.class? name
  | .member name v => w.isMember name v
  | .key type key => w.acceptsKey type key

end Validation

/-- A computation that asks questions. -/
inductive Walk (α : Type) where
  | done (result : Except ValidationError α)
  | ask (query : Query) (next : query.Answer → Walk α)

namespace Walk

variable {α β : Type} {w : Validation}

protected def bind : Walk α → (α → Walk β) → Walk β
  | done (.ok a), f => f a
  | done (.error e), _ => done (.error e)
  | ask query next, f => ask query fun answer => (next answer).bind f

instance : Monad Walk where
  pure a := done (.ok a)
  bind := Walk.bind

def askClass (name : String) : Walk (Option OrderedClass) := ask (.class name) fun c => done (.ok c)

def askMember (name : String) (v : Value) : Walk Bool := ask (.member name v) fun b => done (.ok b)

def askKey (type : FieldType) (key : String) : Walk Bool :=
  ask (.key type key) fun b => done (.ok b)

/-- The results of a computation for each item of a list, from left to right. -/
def forEach (f : α → Walk β) : List α → Walk (List β)
  | [] => pure []
  | a :: rest => do
    let b ← f a
    return b :: (← forEach f rest)

/-- The outcome with the answers of a schema. -/
def run (w : Validation) : Walk α → Except ValidationError α
  | done result => result
  | ask query next => (next (w.answer query)).run w

/-- The questions that are asked when a schema gives the answers. -/
def queries (w : Validation) : Walk α → List Query
  | done _ => []
  | ask query next => query :: (next (w.answer query)).queries w

@[simp] theorem run_pure (a : α) : (pure a : Walk α).run w = .ok a := rfl

@[simp] theorem run_done (result : Except ValidationError α) : (done result).run w = result := rfl

@[simp] theorem run_askClass (name : String) :
    (askClass name).run w = .ok (w.schema.class? name) := rfl

@[simp] theorem run_askMember (name : String) (v : Value) :
    (askMember name v).run w = .ok (w.isMember name v) := rfl

@[simp] theorem run_askKey (type : FieldType) (key : String) :
    (askKey type key).run w = .ok (w.acceptsKey type key) := rfl

@[simp] theorem run_bind (m : Walk α) (f : α → Walk β) :
    (m >>= f).run w = m.run w >>= fun a => (f a).run w := by
  induction m with
  | done result => cases result <;> rfl
  | ask query next ih => exact ih (w.answer query)

theorem run_forEach {f : α → Walk β} {g : α → Except ValidationError β} {xs : List α}
    (h : ∀ a ∈ xs, (f a).run w = g a) : (forEach f xs).run w = xs.mapM g := by
  induction xs with
  | nil => rfl
  | cons a rest ih =>
    rw [List.forall_mem_cons] at h
    simp only [forEach, run_bind, run_pure, List.mapM_cons, h.1, ih h.2]
    rfl

end Walk

/-! ### The walk -/

/-- The walk through some value, at a place and against a type. -/
abbrev WalkAt : Type := Path → FieldType → Walk Validated

namespace Validation

open Walk

def walkEnter (settings : Settings) (path : Path) (type : FieldType) (v : Value) :
    Walk FieldType :=
  if settings.maxDepth < path.depth then done (.error (.depthExceeded path settings.maxDepth))
  else done (alternative path type v)

def walkLeaf (path : Path) (type : FieldType) (v : Value) : Walk Validated :=
  match type with
  | .enum name => do
    if ← askMember name v then return .scalar v
    else done (mismatch path name v.text)
  | .class name => do
    match ← askClass name with
    | none => done (.error (.unknownClass name))
    | some _ => done (mismatch path name v.typeName)
  | .list _ | .map _ _ => done (mismatch path type.text v.typeName)
  | _ => done (if type.accepts v then .ok (.scalar v) else mismatch path type.text v.typeName)

section

variable (settings : Settings) (root : Value)

/-- Walks through the value of a field, or through the null in its place. -/
def walkNode (place : Path) (walks : List (String × WalkAt)) (field : Field) : Walk Validated :=
  match Fields.find? field.name walks with
  | some walk => walk place field.type
  | none =>
    if field.type.accepts .null then do
      walkLeaf place (← walkEnter settings place field.type .null) .null
    else done (mismatch place field.type.text "missing field")

def walkField (path : Path) (block : Value) (fields : List (String × Value))
    (walks : List (String × WalkAt)) (field : Field) : Walk (String × Validated) := do
  let place := path.push (.field field.name)
  let node ← walkNode settings place walks field
  let v := (Fields.find? field.name fields).getD .null
  let tag := (field.type.select? v).bind (·.tag?)
  let checks ← done (settings.runConstraints place ⟨v, block, root⟩ tag field.constraints)
  return (field.name, wrap field.hasChecks checks node)

def walkObject (path : Path) (c : OrderedClass) (fields : List (String × Value))
    (walks : List (String × WalkAt)) : Walk Validated := do
  let block := fill c.toClass fields
  let nodes ← forEach (walkField settings root path block fields walks) c.fieldsInOrder
  let checks ← done (settings.runConstraints path (Eval.Context.ofObject block root)
    (some (.class c.name)) c.constraints)
  return wrap c.hasChecks checks (.object c.name (arrange c.toClass nodes fields))

mutual

/-- Walks through a value at a place against a type. -/
def walk (v : Value) (path : Path) (type : FieldType) : Walk Validated :=
  match v with
  | .list items => do
    match ← walkEnter settings path type (.list items) with
    | .list item => return .list (← walkItems items path item 0)
    | type => walkLeaf path type (.list items)
  | .map entries => do
    match ← walkEnter settings path type (.map entries) with
    | .map key value => return .map (← walkEntries entries path key value)
    | type => walkLeaf path type (.map entries)
  | .object className fields => do
    match ← walkEnter settings path type (.object className fields) with
    | .class name =>
      match ← askClass name with
      | none => done (.error (.unknownClass name))
      | some c =>
        if className = name then walkObject settings root path c fields (walks fields)
        else done (mismatch path name className)
    | type => walkLeaf path type (.object className fields)
  | v => do walkLeaf path (← walkEnter settings path type v) v

def walkItems (items : List Value) (path : Path) (type : FieldType) (i : Nat) :
    Walk (List Validated) :=
  match items with
  | [] => pure []
  | v :: rest => do
    let node ← walk v (path.push (.index i)) type
    return node :: (← walkItems rest path type (i + 1))

def walkEntries (entries : List (String × Value)) (path : Path) (keyType type : FieldType) :
    Walk (List (String × Validated)) :=
  match entries with
  | [] => pure []
  | (key, v) :: rest => do
    let place := path.push (.key key)
    unless ← askKey keyType key do
      done (mismatch place keyType.text ("key " ++ Text.quoted key))
    let node ← walk v place type
    return (key, node) :: (← walkEntries rest path keyType type)

def walks : List (String × Value) → List (String × WalkAt)
  | [] => []
  | (name, v) :: rest => (name, fun path type => walk v path type) :: walks rest

end

end

/-! ### On a schema -/

variable {w : Validation} {path : Path} {type : FieldType} {v : Value}

@[simp] theorem run_walkEnter :
    (walkEnter w.settings path type v).run w = w.enter path type v := by
  simp only [walkEnter, enter, checkDepth]
  split <;> rfl

@[simp] theorem run_walkLeaf : (walkLeaf path type v).run w = w.leaf path type v := by
  cases type with
  | enum name =>
    cases v with
    | member enumName variant =>
      simp only [walkLeaf, leaf, run_bind, run_askMember, ok_bind, isMember]
      split <;> rfl
    | _ => rfl
  | «class» name =>
    simp only [walkLeaf, leaf, run_bind, run_askClass, ok_bind]
    cases w.schema.class? name <;> rfl
  | _ => rfl

/-- The walk through the value is its visit. -/
def Retraces (w : Validation) (v : Value) : Prop :=
  ∀ path type, (walk w.settings w.root v path type).run w = visit w v path type

theorem find?_walks (settings : Settings) (root : Value) (name : String)
    (fields : List (String × Value)) : Fields.find? name (walks settings root fields) =
      (Fields.find? name fields).map fun v path type => walk settings root v path type := by
  induction fields with
  | nil => rfl
  | cons entry rest ih =>
    obtain ⟨n, v⟩ := entry
    simp only [walks, Fields.find?, ih]
    split <;> rfl

theorem run_walkField {fields : List (String × Value)} (h : ∀ u ∈ fields.map (·.2), Retraces w u)
    (block : Value) (field : Field) :
    (walkField w.settings w.root path block fields (walks w.settings w.root fields) field).run w =
      w.visitField path block fields (visits w fields) field := by
  simp only [walkField, walkNode, visitField, find?_walks, find?_visits, run_bind, run_pure,
    run_done]
  cases hf : Fields.find? field.name fields with
  | some v =>
    have hv := h v (List.mem_map_of_mem (Fields.mem_of_find? hf))
    simp only [Option.map_some, hv _ _]
    rfl
  | none =>
    simp only [Option.map_none]
    split
    · simp only [run_bind, run_walkEnter, run_walkLeaf]
      rfl
    · rfl

theorem run_walkObject {fields : List (String × Value)}
    (h : ∀ u ∈ fields.map (·.2), Retraces w u) (c : OrderedClass) :
    (walkObject w.settings w.root path c fields (walks w.settings w.root fields)).run w =
      w.visitObject path c fields (visits w fields) := by
  simp only [walkObject, visitObject, run_bind, run_done, run_pure,
    run_forEach fun field _ => run_walkField h (fill c.toClass fields) field]
  rfl

theorem run_walkItems {items : List Value} (h : ∀ u ∈ items, Retraces w u) (i : Nat) :
    (walkItems w.settings w.root items path type i).run w = visitItems w items path type i := by
  induction items generalizing i with
  | nil => rfl
  | cons v rest ih =>
    rw [List.forall_mem_cons] at h
    simp only [walkItems, visitItems, run_bind, run_pure, h.1 _ _, ih h.2]
    rfl

theorem run_walkEntries {entries : List (String × Value)} {key : FieldType}
    (h : ∀ u ∈ entries.map (·.2), Retraces w u) :
    (walkEntries w.settings w.root entries path key type).run w =
      visitEntries w entries path key type := by
  induction entries with
  | nil => rfl
  | cons entry rest ih =>
    obtain ⟨k, v⟩ := entry
    rw [List.map_cons, List.forall_mem_cons] at h
    simp only [walkEntries, visitEntries, run_bind, run_askKey, ok_bind]
    split
    · simp only [run_bind, run_pure, h.1 _ _, ih h.2]
      rfl
    · rfl

theorem run_walk (v : Value) : Retraces w v := by
  induction v using Value.induction_parts with
  | h v ih =>
    intro path type
    cases v with
    | list items =>
      have hi : ∀ u ∈ items, Retraces w u := ih
      simp only [walk, visit, run_bind, run_walkEnter]
      congr 1
      funext a
      cases a with
      | list item =>
        simp only [run_bind, run_pure, run_walkItems hi]
        rfl
      | _ => exact run_walkLeaf
    | map entries =>
      have he : ∀ u ∈ entries.map (·.2), Retraces w u := ih
      simp only [walk, visit, run_bind, run_walkEnter]
      congr 1
      funext a
      cases a with
      | map key item =>
        simp only [run_bind, run_pure, run_walkEntries he]
        rfl
      | _ => exact run_walkLeaf
    | object name fields =>
      have hf : ∀ u ∈ fields.map (·.2), Retraces w u := ih
      simp only [walk, visit, run_bind, run_walkEnter]
      congr 1
      funext a
      cases a with
      | «class» declared =>
        simp only [run_bind, run_askClass, ok_bind]
        cases w.schema.class? declared with
        | none => rfl
        | some c =>
          dsimp only
          split
          · exact run_walkObject hf c
          · rfl
      | _ => exact run_walkLeaf
    | _ => simp only [walk, visit, run_bind, run_walkEnter, run_walkLeaf]

end Validation

end RecordCheck

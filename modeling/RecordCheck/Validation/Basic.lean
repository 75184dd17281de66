import RecordCheck.Validation.Constraints
import RecordCheck.Validation.Validated
import RecordCheck.Value.Text

/-!
Validation of values. What a value holds is validated before the constraints on it run, and the
fields of an object are validated in the order of its class.
-/

namespace RecordCheck

/-- What stays the same throughout one validation. -/
structure Validation where
  schema : Schema
  settings : Settings
  /-- The outermost value. -/
  root : Value

/-- The validation of some value, at a place and against a type. -/
abbrev Visit : Type := Path → FieldType → Except ValidationError Validated

namespace Validation

def mismatch {α : Type} (path : Path) (expected found : String) : Except ValidationError α :=
  .error (.typeMismatch path expected found)

def checkDepth (w : Validation) (path : Path) : Except ValidationError Unit :=
  if w.settings.maxDepth < path.depth then .error (.depthExceeded path w.settings.maxDepth)
  else .ok ()

/-- The alternative of a type that a value is validated against. -/
def alternative (path : Path) (type : FieldType) (v : Value) : Except ValidationError FieldType :=
  match type with
  | .union _ | .optional _ =>
    match type.select? v with
    | some variant => .ok variant
    | none => mismatch path type.text v.typeName
  | _ => .ok type

/-- Enters a place: the alternative that the value there is validated against. -/
def enter (w : Validation) (path : Path) (type : FieldType) (v : Value) :
    Except ValidationError FieldType := do
  w.checkDepth path
  alternative path type v

/-- Some variant of a declared enumeration is meant. -/
def isVariant (w : Validation) (enumName variant : String) : Bool :=
  (w.schema.enum? enumName).any (·.hasVariant variant)

/-- Keys are strings; an enumeration admits its variants alone. -/
def acceptsKey (w : Validation) (type : FieldType) (key : String) : Bool :=
  type.variants.any fun
    | .enum name => w.isVariant name key
    | other => other.accepts (.string key)

/-- Validates a value that is not looked into: a scalar, or one that the alternative refuses. -/
def leaf (w : Validation) (path : Path) (type : FieldType) (v : Value) :
    Except ValidationError Validated :=
  match type, v with
  | .enum name, .member enumName variant =>
    if enumName = name && w.isVariant name variant then .ok (.scalar v)
    else mismatch path name v.text
  | .enum name, _ => mismatch path name v.text
  | .class name, _ =>
    if (w.schema.class? name).isNone then .error (.unknownClass name)
    else mismatch path name v.typeName
  | .list _, _ | .map _ _, _ => mismatch path type.text v.typeName
  | _, _ => if type.accepts v then .ok (.scalar v) else mismatch path type.text v.typeName

/-! ### Objects -/

/-- The declared fields that an object lacks and that may be null. -/
def absentFields (c : Class) (fields : List (String × Value)) : List Field :=
  c.fields.filter fun field => !Fields.contains field.name fields && field.type.accepts .null

/-- The object with each absent field that may be null set to null. -/
def fill (c : Class) (fields : List (String × Value)) : Value :=
  .object c.name (fields ++ (absentFields c fields).map fun field => (field.name, .null))

/-- A node together with the checks that ran on it, where checks are declared. -/
def wrap (hasChecks : Bool) (checks : Checks) (node : Validated) : Validated :=
  if hasChecks then .checked node checks else node

/-- Validates a null that stands for an absent field. -/
def visitAbsent (w : Validation) (path : Path) (type : FieldType) :
    Except ValidationError Validated := do
  w.leaf path (← w.enter path type .null) .null

/-- Validates one declared field of an object and runs its constraints. `block` is the object as
constraints see it. -/
def visitField (w : Validation) (path : Path) (block : Value) (fields : List (String × Value))
    (visits : List (String × Visit)) (field : Field) :
    Except ValidationError (String × Validated) := do
  let place := path.push (.field field.name)
  let node ← match Fields.find? field.name visits with
    | some visit => visit place field.type
    | none =>
      if field.type.accepts .null then w.visitAbsent place field.type
      else mismatch place field.type.text "missing field"
  let v := (Fields.find? field.name fields).getD .null
  let tag := (field.type.select? v).bind (·.tag?)
  let checks ← w.settings.runConstraints place ⟨v, block, w.root⟩ tag field.constraints
  return (field.name, wrap field.hasChecks checks node)

/-- The validated fields in the order of their declaration, then those that are not declared. -/
def arrange (c : Class) (nodes : List (String × Validated)) (fields : List (String × Value)) :
    List (String × Validated) :=
  (c.fields.filterMap fun field => (Fields.find? field.name nodes).map (field.name, ·)) ++
    Fields.mapValues Validated.ofValue (fields.filter fun entry => (c.field? entry.1).isNone)

/-- Validates an object of a class, given the validations of its fields' values. -/
def visitObject (w : Validation) (path : Path) (c : OrderedClass)
    (fields : List (String × Value)) (visits : List (String × Visit)) :
    Except ValidationError Validated := do
  let block := fill c.toClass fields
  let nodes ← c.fieldsInOrder.mapM (w.visitField path block fields visits)
  let checks ← w.settings.runConstraints path (Eval.Context.ofObject block w.root)
    (some (.class c.name)) c.constraints
  return wrap c.hasChecks checks (.object c.name (arrange c.toClass nodes fields))

/-! ### Values -/

mutual

/-- Validates a value at a place against a type. -/
def visit (w : Validation) (v : Value) (path : Path) (type : FieldType) :
    Except ValidationError Validated :=
  match v with
  | .list items => do
    match ← w.enter path type (.list items) with
    | .list item => return .list (← visitItems w items path item 0)
    | type => w.leaf path type (.list items)
  | .map entries => do
    match ← w.enter path type (.map entries) with
    | .map key value => return .map (← visitEntries w entries path key value)
    | type => w.leaf path type (.map entries)
  | .object className fields => do
    match ← w.enter path type (.object className fields) with
    | .class name =>
      match w.schema.class? name with
      | none => .error (.unknownClass name)
      | some c =>
        if className = name then w.visitObject path c fields (visits w fields)
        else mismatch path name className
    | type => w.leaf path type (.object className fields)
  | v => do w.leaf path (← w.enter path type v) v

/-- Validates items from the index `i` on. -/
def visitItems (w : Validation) (items : List Value) (path : Path) (type : FieldType) (i : Nat) :
    Except ValidationError (List Validated) :=
  match items with
  | [] => .ok []
  | v :: rest => do
    let node ← visit w v (path.push (.index i)) type
    return node :: (← visitItems w rest path type (i + 1))

def visitEntries (w : Validation) (entries : List (String × Value)) (path : Path)
    (keyType type : FieldType) : Except ValidationError (List (String × Validated)) :=
  match entries with
  | [] => .ok []
  | (key, v) :: rest => do
    let place := path.push (.key key)
    unless w.acceptsKey keyType key do mismatch place keyType.text ("key " ++ Text.quoted key)
    let node ← visit w v place type
    return (key, node) :: (← visitEntries w rest path keyType type)

/-- The validations of the values of fields. -/
def visits (w : Validation) : List (String × Value) → List (String × Visit)
  | [] => []
  | (name, v) :: rest => (name, fun path type => visit w v path type) :: visits w rest

end

end Validation

/-! ### Entry points -/

/-- The name that paths to parts of a value of the type start with. -/
def FieldType.rootName : FieldType → String
  | .class name => name
  | _ => "root"

namespace Schema

/-- Validates a value of a type. -/
def validate (schema : Schema) (settings : Settings) (type : FieldType) (v : Value) :
    Except ValidationError Validated :=
  Validation.visit ⟨schema, settings, v⟩ v ⟨type.rootName, []⟩ type

/-- Validates an object of a class. -/
def validateClass (schema : Schema) (settings : Settings) (className : String) (v : Value) :
    Except ValidationError Validated :=
  if (schema.class? className).isNone then .error (.unknownClass className)
  else schema.validate settings (.class className) v

/-- Validates independent values of a type, each on its own. -/
def validateBatch (schema : Schema) (settings : Settings) (type : FieldType)
    (values : List Value) : List (Except ValidationError Validated) :=
  values.map (schema.validate settings type)

end Schema

end RecordCheck

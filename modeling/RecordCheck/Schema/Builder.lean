import RecordCheck.Schema.Basic
import RecordCheck.Schema.Error
import RecordCheck.Schema.Order

/-!
Building a schema: declarations are collected one by one, and at the end the names that they use
are looked up and the fields of each class are put in the order in which they are checked.
-/

namespace RecordCheck

/-- The classes and enumerations declared so far, in this order. -/
structure Declarations where
  classes : List Class := []
  enums : List EnumType := []

namespace Declarations

def hasClass (decls : Declarations) (name : String) : Bool :=
  decls.classes.any (·.name == name)

def hasEnum (decls : Declarations) (name : String) : Bool :=
  decls.enums.any (·.name == name)

/-- A class or an enumeration has the name. -/
def isDeclared (decls : Declarations) (name : String) : Bool :=
  decls.hasClass name || decls.hasEnum name

/-! ### Declaring -/

/-- The first item that stands in a list a second time. -/
def firstRepeated? {α : Type} [BEq α] : List α → List α → Option α
  | _, [] => none
  | seen, a :: rest => if seen.contains a then some a else firstRepeated? (a :: seen) rest

def addEnum (decls : Declarations) (enum : EnumType) : Except SchemaError Declarations :=
  if decls.isDeclared enum.name then .error (.duplicateEnum enum.name)
  else
    match firstRepeated? [] enum.variants with
    | some variant => .error (.duplicateVariant enum.name variant)
    | none => .ok { decls with enums := decls.enums ++ [enum] }

def compileConstraint (owner : String) (decl : ConstraintDecl) :
    Except SchemaError Constraint :=
  match Formula.compile decl.source with
  | .ok formula => .ok ⟨decl.kind, decl.message, formula, decl.variant⟩
  | .error e => .error (.expression owner decl.source e)

/-- The constraints of one owner. Two checks with the same message and the same binding are refused;
those bound to different alternatives never apply together. -/
def compileConstraints (owner : String) (decls : List ConstraintDecl) :
    Except SchemaError (List Constraint) :=
  let checks := (decls.filter (·.kind == .check)).map fun d => (d.message, d.variant)
  match firstRepeated? [] checks with
  | some (message, _) => .error (.duplicateCheck owner message)
  | none => decls.mapM (compileConstraint owner)

/-- The fields of a class, after those of the given names. -/
def compileFields (className : String) (names : List String) :
    List FieldDecl → Except SchemaError (List Field)
  | [] => .ok []
  | decl :: rest => do
    if names.contains decl.name then throw (.duplicateField className decl.name)
    let constraints ← compileConstraints (className ++ "." ++ decl.name) decl.constraints
    return ⟨decl.name, decl.type, constraints⟩ ::
      (← compileFields className (decl.name :: names) rest)

def addClass (decls : Declarations) (decl : ClassDecl) : Except SchemaError Declarations := do
  if decls.isDeclared decl.name then throw (.duplicateClass decl.name)
  let fields ← compileFields decl.name [] decl.fields
  let constraints ← compileConstraints decl.name decl.constraints
  return { decls with classes := decls.classes ++ [⟨decl.name, fields, constraints⟩] }

/-! ### Looking names up -/

mutual

/-- The tags of the classes and enumerations that a type names, from left to right. -/
def namedTags : FieldType → List Tag
  | .enum name => [.enum name]
  | .class name => [.class name]
  | .list item => namedTags item
  | .map key value => namedTags key ++ namedTags value
  | .union members => namedTagsOf members
  | .optional base => namedTags base
  | _ => []

def namedTagsOf : List FieldType → List Tag
  | [] => []
  | type :: rest => namedTags type ++ namedTagsOf rest

end

/-- A class or enumeration of the tag is declared. -/
def declares (decls : Declarations) : Tag → Bool
  | .class name => decls.hasClass name
  | .enum name => decls.hasEnum name
  | _ => true

/-- A constraint on a field of several alternatives is bound to one of them, and a binding names
an alternative of the field. -/
def checkBinding (c : Class) (field : Field) (constraint : Constraint) :
    Except SchemaError Unit :=
  match constraint.variant with
  | none =>
    if field.type.isUnion then
      .error (.unboundUnionConstraint c.name field.name constraint.message)
    else .ok ()
  | some tag =>
    if field.type.variants.any fun v => v.tag? == some tag then .ok ()
    else .error (.invalidVariantBinding c.name field.name constraint.message tag field.type)

def checkField (decls : Declarations) (c : Class) (field : Field) : Except SchemaError Unit := do
  match (namedTags field.type).find? fun tag => !decls.declares tag with
  | some tag => throw (.unknownType c.name field.name tag.text)
  | none => field.constraints.forM (checkBinding c field)

/-! ### Ordering -/

/-- Every field that a constraint reads from the object is a field of the class. -/
def checkReferences (c : Class) (owner : String) (constraint : Constraint) :
    Except SchemaError Unit :=
  match constraint.formula.blockReferences.find? fun name => (c.field? name).isNone with
  | some name => .error (.unknownFieldReference owner constraint.message name)
  | none => .ok ()

/-- Some constraint of the field reads the other one: by its name, or with the whole object. -/
def reads (field other : Field) : Bool :=
  field.constraints.any fun constraint =>
    constraint.formula.readsWholeBlock ||
      constraint.formula.blockReferences.contains other.name

/-- The places of the other fields that each field reads. -/
def dependencies (fields : List Field) : List (List Nat) :=
  fields.zipIdx.map fun (field, i) =>
    (fields.zipIdx.filter fun (other, j) => j != i && reads field other).map (·.2)

/-- The order of the fields that have these names and dependencies. A cycle is reported by the names
along it. -/
def evaluationOrder (className : String) (names : List String) (deps : List (List Nat)) :
    Except SchemaError (List Nat) :=
  match Dependencies.order deps with
  | .ok order => .ok order
  | .error cycle => .error (.dependencyCycle className (cycle.filterMap fun i => names[i]?))

def orderClass (c : Class) : Except SchemaError OrderedClass := do
  c.fields.forM fun field =>
    field.constraints.forM (checkReferences c (c.name ++ "." ++ field.name))
  c.constraints.forM (checkReferences c c.name)
  let order ← evaluationOrder c.name (c.fields.map (·.name)) (dependencies c.fields)
  return { c with order := order }

/-- The schema of the declarations. -/
def build (decls : Declarations) : Except SchemaError Schema := do
  decls.classes.forM fun c => c.fields.forM (decls.checkField c)
  return ⟨← decls.classes.mapM orderClass, decls.enums⟩

end Declarations

/-- One declaration. -/
inductive Declaration where
  | enum (enum : EnumType)
  | class (decl : ClassDecl)
  deriving Repr, Inhabited

namespace Declarations

def add (decls : Declarations) : Declaration → Except SchemaError Declarations
  | .enum enum => decls.addEnum enum
  | .class decl => decls.addClass decl

end Declarations

/-- The schema of some declarations; the first that cannot be added ends it. -/
def Schema.ofDeclarations (declarations : List Declaration) : Except SchemaError Schema := do
  let decls ← declarations.foldlM Declarations.add {}
  decls.build

end RecordCheck

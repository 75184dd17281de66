import RecordCheck.Schema.Builder
import RecordCheck.Value.Fields

/-!
The registry to which declarations are added, one call after another. It keeps for each class the
place where it stands, and a schema that is made of it finds classes by their places.
-/

namespace RecordCheck

/-- The classes in the order of their calls, and by their names where each class stands and what
each enumeration is. -/
structure Registry where
  classes : List Class := []
  places : List (String × Nat) := []
  enums : List (String × EnumType) := []

namespace Registry

/-- A class or an enumeration with the name was added. -/
def isDeclared (registry : Registry) (name : String) : Bool :=
  Fields.contains name registry.places || Fields.contains name registry.enums

/-- A call that changes the registry and may fail. A failure does not take back what was changed
before it. -/
abbrev Call := EStateM SchemaError Registry Unit

def addEnum (enum : EnumType) : Call := do
  if (← get).isDeclared enum.name then throw (.duplicateEnum enum.name)
  if let some variant := Declarations.firstRepeated? [] enum.variants then
    throw (.duplicateVariant enum.name variant)
  modify fun registry => { registry with enums := Fields.insert enum.name enum registry.enums }

def addClass (decl : ClassDecl) : Call := do
  if (← get).isDeclared decl.name then throw (.duplicateClass decl.name)
  let fields ← MonadExcept.ofExcept (Declarations.compileFields decl.name [] decl.fields)
  let constraints ←
    MonadExcept.ofExcept (Declarations.compileConstraints decl.name decl.constraints)
  modify fun registry =>
    { registry with
      places := Fields.insert decl.name registry.classes.length registry.places }
  modify fun registry =>
    { registry with classes := registry.classes ++ [⟨decl.name, fields, constraints⟩] }

def add : Declaration → Call
  | .enum enum => addEnum enum
  | .class decl => addClass decl

/-- What is declared. -/
def declarations (registry : Registry) : Declarations :=
  ⟨registry.classes, Fields.values registry.enums⟩

end Registry

/-- A schema, and where the class of each name stands in it. -/
structure IndexedSchema extends Schema where
  places : List (String × Nat)

/-- The class at the place that is kept for the name. -/
def IndexedSchema.block? (schema : IndexedSchema) (name : String) : Option OrderedClass :=
  (Fields.find? name schema.places).bind fun i => schema.classes[i]?

/-- The schema of all that was added. -/
def Registry.build (registry : Registry) : Except SchemaError IndexedSchema := do
  return ⟨← registry.declarations.build, registry.places⟩

end RecordCheck

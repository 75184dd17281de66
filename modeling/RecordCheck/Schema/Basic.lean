import RecordCheck.Expr.Formula
import RecordCheck.FieldType

/-!
Schemas: classes with typed fields, enumerations, and constraints on fields and on whole classes.
Declarations hold the sources of their constraints; classes hold the formulas.
-/

namespace RecordCheck

/-- How the failure of a constraint is handled. -/
inductive ConstraintKind where
  /-- A failure ends the validation. -/
  | assert
  /-- A failure is recorded. -/
  | check
  deriving DecidableEq, Repr, Inhabited

def ConstraintKind.text : ConstraintKind → String
  | assert => "assert"
  | check => "check"

/-! ### Declarations -/

structure ConstraintDecl where
  kind : ConstraintKind
  message : String
  source : String
  /-- The alternative of the field's type that the constraint is bound to. -/
  variant : Option Tag := none
  deriving DecidableEq, Repr, Inhabited

structure FieldDecl where
  name : String
  type : FieldType
  constraints : List ConstraintDecl := []
  deriving Repr, Inhabited

structure ClassDecl where
  name : String
  fields : List FieldDecl
  constraints : List ConstraintDecl := []
  deriving Repr, Inhabited

/-- An enumeration and its variants. -/
structure EnumType where
  name : String
  variants : List String
  deriving DecidableEq, Repr, Inhabited

def EnumType.hasVariant (enum : EnumType) (variant : String) : Bool :=
  enum.variants.contains variant

/-! ### Classes -/

structure Constraint where
  kind : ConstraintKind
  /-- Shown on failure. The outcome of a check is recorded under it. -/
  message : String
  formula : Formula
  variant : Option Tag

namespace Constraint

def isCheck (c : Constraint) : Bool := c.kind == .check

/-- The constraint applies to values that live in the alternative with the tag. -/
def appliesTo (c : Constraint) (tag : Tag) : Bool := c.variant.all (· == tag)

end Constraint

structure Field where
  name : String
  type : FieldType
  constraints : List Constraint

/-- Some constraint of the field is a check, for whichever alternative. -/
def Field.hasChecks (field : Field) : Bool := field.constraints.any Constraint.isCheck

structure Class where
  name : String
  fields : List Field
  constraints : List Constraint

namespace Class

def hasChecks (c : Class) : Bool := c.constraints.any Constraint.isCheck

def field? (c : Class) (name : String) : Option Field := c.fields.find? (·.name == name)

end Class

/-- A class and the order in which its fields are checked, by their places. -/
structure OrderedClass extends Class where
  order : List Nat

/-- The fields in the order in which they are checked. -/
def OrderedClass.fieldsInOrder (c : OrderedClass) : List Field :=
  c.order.filterMap fun (i : Nat) => c.fields[i]?

structure Schema where
  classes : List OrderedClass
  enums : List EnumType

namespace Schema

def class? (schema : Schema) (name : String) : Option OrderedClass :=
  schema.classes.find? (·.name == name)

def enum? (schema : Schema) (name : String) : Option EnumType :=
  schema.enums.find? (·.name == name)

/-- The constraints of a field; none for an unknown one. -/
def fieldConstraints (schema : Schema) (className field : String) : List Constraint :=
  (((schema.class? className).bind (·.field? field)).map (·.constraints)).getD []

/-- The constraints of a class as a whole; none for an unknown one. -/
def classConstraints (schema : Schema) (className : String) : List Constraint :=
  ((schema.class? className).map (·.constraints)).getD []

end Schema

end RecordCheck

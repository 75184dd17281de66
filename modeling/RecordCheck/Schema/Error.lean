import RecordCheck.Expr.Fault
import RecordCheck.FieldType

/-!
What can be wrong with declarations.
-/

namespace RecordCheck

inductive SchemaError where
  /-- A constraint whose source is no formula. The owner is a class, or a field with its class. -/
  | expression (owner source : String) (error : SyntaxError)
  | duplicateClass (name : String)
  | duplicateEnum (name : String)
  | duplicateField (className field : String)
  /-- Two checks of one owner with the same message and the same binding. -/
  | duplicateCheck (owner message : String)
  | duplicateVariant (enumName variant : String)
  | unknownType (className field name : String)
  /-- A constraint on a field of several alternatives that is bound to none. -/
  | unboundUnionConstraint (className field message : String)
  /-- A constraint bound to what is no alternative of its field. -/
  | invalidVariantBinding (className field message : String) (variant : Tag) (type : FieldType)
  /-- A constraint that reads a field which its class does not have. -/
  | unknownFieldReference (owner message reference : String)
  /-- Fields that wait for one another. The first name stands at the end again. -/
  | dependencyCycle (className : String) (cycle : List String)
  deriving Repr, Inhabited

namespace SchemaError

def message : SchemaError → String
  | expression owner _ e => "invalid constraint expression on " ++ owner ++ ": " ++ e.message
  | duplicateClass name => "Duplicate class name: " ++ name
  | duplicateEnum name => "Duplicate enum name: " ++ name
  | duplicateField className field =>
    "Duplicate field '" ++ field ++ "' in class " ++ className
  | duplicateCheck owner message => "Duplicate check '" ++ message ++ "' on " ++ owner
  | duplicateVariant enumName variant =>
    "Duplicate variant '" ++ variant ++ "' in enum " ++ enumName
  | unknownType className field name =>
    "Unknown type '" ++ name ++ "' referenced by " ++ className ++ "." ++ field
  | unboundUnionConstraint className field message =>
    "constraint '" ++ message ++ "' on union field " ++ className ++ "." ++ field ++
      " needs a variant binding"
  | invalidVariantBinding className field message variant type =>
    "constraint '" ++ message ++ "' on " ++ className ++ "." ++ field ++ " is bound to " ++
      variant.text ++ ", which is not a variant of " ++ type.text
  | unknownFieldReference owner message reference =>
    "constraint '" ++ message ++ "' on " ++ owner ++ " references unknown field block." ++
      reference
  | dependencyCycle className cycle =>
    "dependency cycle in " ++ className ++ ": " ++ String.intercalate " -> " cycle

end SchemaError

end RecordCheck

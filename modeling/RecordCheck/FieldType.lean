import RecordCheck.Value.Basic

/-!
The declared types of fields. A type flattens into alternatives that are neither unions nor
optional, and a value lives in at most one of them.
-/

namespace RecordCheck

inductive FieldType where
  | null
  | bool
  | int
  | float
  | string
  | enum (name : String)
  | class (name : String)
  | list (item : FieldType)
  | map (key value : FieldType)
  | union (members : List FieldType)
  | optional (base : FieldType)
  deriving Repr, Inhabited

namespace FieldType

/-- The tag of a type's values, where they all have one. -/
def tag? : FieldType → Option Tag
  | null => some .null
  | bool => some .bool
  | int => some .int
  | float => some .float
  | string => some .string
  | enum name => some (.enum name)
  | .class name => some (.class name)
  | list _ => some .list
  | map _ _ => some .map
  | union _ => none
  | optional _ => none

mutual

/-- The alternatives of a type, from left to right; that of an optional type's null comes last. -/
def variants : FieldType → List FieldType
  | union members => variantsOf members
  | optional base => variants base ++ [null]
  | type => [type]

def variantsOf : List FieldType → List FieldType
  | [] => []
  | type :: rest => variants type ++ variantsOf rest

end

/-- More than one alternative is something other than null. -/
def isUnion (type : FieldType) : Bool :=
  decide (1 < (type.variants.filter fun v => v.tag? != some .null).length)

/-- An alternative admits the values of its own tag, and a float alternative integers as well. -/
def admits (alternative : FieldType) (v : Value) : Bool :=
  alternative.tag? == some v.tag || (alternative.tag? == some .float && v.tag == .int)

/-- The alternative that a value lives in: the first of its own tag, else the first that
admits it. -/
def select? (type : FieldType) (v : Value) : Option FieldType :=
  match type.variants.find? fun a => a.tag? == some v.tag with
  | some alternative => some alternative
  | none => type.variants.find? fun a => a.admits v

/-- Some alternative admits the value; what the value holds is not looked at. -/
def accepts (type : FieldType) (v : Value) : Bool := type.variants.any fun a => a.admits v

mutual

def text : FieldType → String
  | null => "null"
  | bool => "bool"
  | int => "int"
  | float => "float"
  | string => "string"
  | enum name => name
  | .class name => name
  | list (union members) => "(" ++ String.intercalate " | " (texts members) ++ ")[]"
  | list item => text item ++ "[]"
  | map key value => "map<" ++ text key ++ ", " ++ text value ++ ">"
  | union members => String.intercalate " | " (texts members)
  | optional base => text base ++ "?"

def texts : List FieldType → List String
  | [] => []
  | type :: rest => text type :: texts rest

end

end FieldType

end RecordCheck

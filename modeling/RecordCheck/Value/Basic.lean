import RecordCheck.Double.Basic
import RecordCheck.Value.Entries

/-!
The values that are checked, the tag of a value's kind, and the views of a value.
-/

namespace RecordCheck

/-- The kind of a value. Members of enumerations and objects carry the name of their type. -/
inductive Tag where
  | null
  | bool
  | int
  | float
  | string
  | enum (name : String)
  | class (name : String)
  | list
  | map
  deriving DecidableEq, Repr, Inhabited

namespace Tag

def text : Tag → String
  | null => "null"
  | bool => "bool"
  | int => "int"
  | float => "float"
  | string => "string"
  | enum name => name
  | .class name => name
  | list => "list"
  | map => "map"

end Tag

/-- A value. The entries of a map ascend by key; the fields of an object keep their own order. -/
inductive Value where
  | null
  | bool (b : Bool)
  | int (i : Int64)
  | float (x : Double)
  | string (s : String)
  | member (enumName variant : String)
  | list (items : List Value)
  | map (entries : List (String × Value))
  | object (className : String) (fields : List (String × Value))
  deriving Repr, Inhabited

namespace Value

def isNull : Value → Bool
  | null => true
  | _ => false

def isNumeric : Value → Bool
  | int _ => true
  | float _ => true
  | _ => false

def bool? : Value → Option Bool
  | bool b => some b
  | _ => none

def int? : Value → Option Int64
  | int i => some i
  | _ => none

/-- A number as a double; an integer is widened. -/
def float? : Value → Option Double
  | float x => some x
  | int i => some (Double.ofInt i.toInt)
  | _ => none

def string? : Value → Option String
  | string s => some s
  | _ => none

def list? : Value → Option (List Value)
  | list items => some items
  | _ => none

def map? : Value → Option (List (String × Value))
  | map entries => some entries
  | _ => none

def object? : Value → Option (String × List (String × Value))
  | object className fields => some (className, fields)
  | _ => none

def tag : Value → Tag
  | null => .null
  | bool _ => .bool
  | int _ => .int
  | float _ => .float
  | string _ => .string
  | member enumName _ => .enum enumName
  | list _ => .list
  | map _ => .map
  | object className _ => .class className

def typeName (v : Value) : String := v.tag.text

/-- The number of characters, items, entries or fields. -/
def length? : Value → Option Nat
  | string s => some s.toList.length
  | list items => some items.length
  | map entries => some entries.length
  | object _ fields => some fields.length
  | _ => none

/-- The text of a string, or the variant of a member. -/
def text? : Value → Option String
  | string s => some s
  | member _ variant => some variant
  | _ => none

mutual

/-- The keys of every map ascend, and the names of every object are distinct. -/
def WellFormed : Value → Prop
  | list items => AllWellFormed items
  | map entries => Entries.Sorted entries ∧ FieldsWellFormed entries
  | object _ fields => (Fields.names fields).Nodup ∧ FieldsWellFormed fields
  | _ => True

def AllWellFormed : List Value → Prop
  | [] => True
  | v :: rest => WellFormed v ∧ AllWellFormed rest

def FieldsWellFormed : List (String × Value) → Prop
  | [] => True
  | (_, v) :: rest => WellFormed v ∧ FieldsWellFormed rest

end

end Value

end RecordCheck

import RecordCheck.Value.Basic

/-!
Values as plain JSON. A member is written as its variant, and a float that is no finite number
as null.
-/

namespace RecordCheck

inductive Json where
  | null
  | bool (b : Bool)
  | int (i : Int64)
  | float (x : Double)
  | string (s : String)
  | array (items : List Json)
  | object (members : List (String × Json))
  deriving Repr, Inhabited

namespace Json

def ofDouble (x : Double) : Json := if x.isFinite then float x else null

end Json

namespace Value

mutual

def json : Value → Json
  | null => .null
  | bool b => .bool b
  | int i => .int i
  | float x => .ofDouble x
  | string s => .string s
  | member _ variant => .string variant
  | list items => .array (jsonItems items)
  | map entries => .object (jsonMembers entries)
  | object _ fields => .object (jsonMembers fields)

def jsonItems : List Value → List Json
  | [] => []
  | v :: rest => json v :: jsonItems rest

def jsonMembers : List (String × Value) → List (String × Json)
  | [] => []
  | (name, v) :: rest => (name, json v) :: jsonMembers rest

end

end Value

end RecordCheck

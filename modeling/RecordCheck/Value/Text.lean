import RecordCheck.Double.Shortest
import RecordCheck.Value.Basic

/-!
The text of a value, as messages show it. Strings stand between quotes as they are.
-/

namespace RecordCheck

/-- A text between double quotes, with nothing escaped. -/
def enquote (s : String) : String := "\"" ++ s ++ "\""

/-- The text of an integer. -/
def intText (i : Int64) : String := toString i.toInt

namespace Value

/-- The entries of an object after its opening brace. -/
def objectText (className : String) (fields : List String) : String :=
  className ++ " \x7b" ++ String.intercalate "," (fields.map (" " ++ ·)) ++ " \x7d"

mutual

def text : Value → String
  | null => "null"
  | bool b => if b then "true" else "false"
  | int i => intText i
  | float x => x.text
  | string s => enquote s
  | member enumName variant => enumName ++ "." ++ variant
  | list items => "[" ++ String.intercalate ", " (itemTexts items) ++ "]"
  | map entries => "\x7b" ++ String.intercalate ", " (entryTexts entries) ++ "\x7d"
  | object className fields => objectText className (fieldTexts fields)

def itemTexts : List Value → List String
  | [] => []
  | v :: rest => text v :: itemTexts rest

def entryTexts : List (String × Value) → List String
  | [] => []
  | (key, v) :: rest => (enquote key ++ ": " ++ text v) :: entryTexts rest

def fieldTexts : List (String × Value) → List String
  | [] => []
  | (name, v) :: rest => (name ++ ": " ++ text v) :: fieldTexts rest

end

end Value

end RecordCheck

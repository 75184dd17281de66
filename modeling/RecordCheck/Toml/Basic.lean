import RecordCheck.Value.Fields
import RecordCheck.Double.Basic

/-!
The values of TOML, and what can be wrong with a document.
-/

namespace RecordCheck.Toml

inductive Fault where
  /-- The text does not follow the grammar. -/
  | malformed
  /-- A number, a date or a character that does not exist. -/
  | outOfRange
  /-- A key or a table is defined twice. -/
  | duplicate
  /-- A key leads into a value that is no table. -/
  | notTable
  | tooDeep
  deriving DecidableEq, Repr, Inhabited

/-- How a table came about, which decides what may be added to it. -/
inductive Origin where
  /-- Its name stands in a header before other names. -/
  | implied
  /-- It has a header of its own. -/
  | header
  /-- A dotted key leads through it. -/
  | dotted
  /-- It is written between braces. -/
  | inline
  deriving DecidableEq, Repr, Inhabited

inductive Value where
  | string (s : String)
  | integer (i : Int64)
  | float (x : Double)
  | boolean (b : Bool)
  | dateTime (text : String)
  | array (items : List Value)
  | table (origin : Origin) (entries : List (String × Value))
  /-- An array of tables with headers. -/
  | tables (items : List (List (String × Value)))
  deriving Repr, Inhabited

abbrev Entries : Type := List (String × Value)

end RecordCheck.Toml

import RecordCheck.Toml.Basic

/-!
Tables that grow entry by entry. Every key is defined once, and a table that has been written as a
whole is closed to further keys.
-/

namespace RecordCheck.Toml

abbrev Result (α : Type) : Type := Except Fault α

/-- The table that an array of tables ends with, after an update. -/
def updateLast (f : Entries → Result Entries) : List Entries → Result (List Entries)
  | [] => .ok []
  | [last] => do return [← f last]
  | entries :: rest => do return entries :: (← updateLast f rest)

/-- A dotted key may lead through the table, or to it if that is the last of its names. -/
def Origin.admitsDotted : Origin → (last : Bool) → Bool
  | .dotted, _ => true
  | .implied, last => !last
  | _, _ => false

namespace Entries

/-- Adds a new key. -/
def add (key : String) (value : Value) (entries : Entries) : Result Entries :=
  if Fields.contains key entries then .error .duplicate
  else .ok (entries ++ [(key, value)])

/-- Adds a key after other names. These lead through tables without headers of their own, and the
last of them leads to one that came about by dotted keys alone. -/
def addDotted (key : String) (value : Value) : List String → Entries → Result Entries
  | [], entries => add key value entries
  | name :: path, entries =>
    match Fields.find? name entries with
    | none => do
      let inner ← addDotted key value path []
      return Fields.insert name (.table .dotted inner) entries
    | some (.table .inline _) => .error .notTable
    | some (.table origin inner) =>
      if origin.admitsDotted path.isEmpty then do
        return Fields.insert name (.table origin (← addDotted key value path inner)) entries
      else .error .duplicate
    | some (.tables items) =>
      if path.isEmpty then .error .duplicate
      else do
        let items ← updateLast (addDotted key value path) items
        return Fields.insert name (.tables items) entries
    | some _ => .error .notTable

/-- Updates the table that the names of a header lead to. An array of tables leads to its last. -/
def update (f : Entries → Result Entries) : List String → Entries → Result Entries
  | [], entries => f entries
  | name :: path, entries =>
    match Fields.find? name entries with
    | none => do return Fields.insert name (.table .implied (← update f path [])) entries
    | some (.table .inline _) => .error .notTable
    | some (.table origin inner) => do
      return Fields.insert name (.table origin (← update f path inner)) entries
    | some (.tables items) => do
      return Fields.insert name (.tables (← updateLast (update f path) items)) entries
    | some _ => .error .notTable

/-- Defines a table by its header. Only one that was implied before may be there. -/
def openTable (name : String) (entries : Entries) : Result Entries :=
  match Fields.find? name entries with
  | none => .ok (Fields.insert name (.table .header []) entries)
  | some (.table .implied inner) => .ok (Fields.insert name (.table .header inner) entries)
  | some _ => .error .duplicate

/-- Adds a table to an array of tables. -/
def pushTable (name : String) (entries : Entries) : Result Entries :=
  match Fields.find? name entries with
  | none => .ok (Fields.insert name (.tables [[]]) entries)
  | some (.tables items) => .ok (Fields.insert name (.tables (items ++ [[]])) entries)
  | some _ => .error .duplicate

end Entries

end RecordCheck.Toml

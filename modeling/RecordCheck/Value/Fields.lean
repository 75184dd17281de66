/-!
Named values in the order in which the names first came. A name stands at most once in a list that
is built with `insert`.
-/

namespace RecordCheck.Fields

variable {α β : Type}

/-- Sets the value of a name: in place if the name is there, else at the end. -/
def insert (name : String) (value : α) : List (String × α) → List (String × α)
  | [] => [(name, value)]
  | (n, v) :: rest => if n = name then (n, value) :: rest else (n, v) :: insert name value rest

/-- The value of the first entry with the name. -/
def find? (name : String) : List (String × α) → Option α
  | [] => none
  | (n, v) :: rest => if n = name then some v else find? name rest

def contains (name : String) (fields : List (String × α)) : Bool := (find? name fields).isSome

def names (fields : List (String × α)) : List String := fields.map (·.1)

def values (fields : List (String × α)) : List α := fields.map (·.2)

/-- Inserts the entries one after another. -/
def insertAll (fields entries : List (String × α)) : List (String × α) :=
  entries.foldl (fun acc (name, value) => insert name value acc) fields

def ofList (entries : List (String × α)) : List (String × α) := insertAll [] entries

def mapValues (f : α → β) (fields : List (String × α)) : List (String × β) :=
  fields.map fun (name, value) => (name, f value)

end RecordCheck.Fields

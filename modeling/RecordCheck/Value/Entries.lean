import RecordCheck.Value.Fields

/-!
Maps as lists of entries in ascending order of their keys. Keys are compared character by
character, which is also the order of their bytes.
-/

namespace RecordCheck.Entries

variable {α : Type}

/-- Sets the value of a key at its place in the order. -/
def insert (key : String) (value : α) : List (String × α) → List (String × α)
  | [] => [(key, value)]
  | (k, v) :: rest =>
    if key = k then (k, value) :: rest
    else if key < k then (key, value) :: (k, v) :: rest
    else (k, v) :: insert key value rest

/-- The map of the entries; of two with one key the later counts. -/
def ofList (entries : List (String × α)) : List (String × α) :=
  entries.foldl (fun acc (key, value) => insert key value acc) []

/-- The keys ascend strictly. -/
def Sorted (entries : List (String × α)) : Prop := entries.Pairwise fun a b => a.1 < b.1

end RecordCheck.Entries

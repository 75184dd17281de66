import RecordCheck.Validation.Checks
import RecordCheck.Validation.Path

/-!
Validated values: trees with the shape of a value, in which a node may carry the outcomes of the
checks that ran on it.
-/

namespace RecordCheck

inductive Validated where
  /-- A value that is no list, map or object. -/
  | scalar (v : Value)
  | list (items : List Validated)
  | map (entries : List (String × Validated))
  | object (className : String) (fields : List (String × Validated))
  /-- A node with outcomes of checks. -/
  | checked (node : Validated) (checks : Checks)
  deriving Repr, Inhabited

namespace Validated

mutual

/-- A value taken as it is, without checks. -/
def ofValue : Value → Validated
  | .list items => list (ofItems items)
  | .map entries => map (ofFields entries)
  | .object className fields => object className (ofFields fields)
  | v => scalar v

def ofItems : List Value → List Validated
  | [] => []
  | v :: rest => ofValue v :: ofItems rest

def ofFields : List (String × Value) → List (String × Validated)
  | [] => []
  | (name, v) :: rest => (name, ofValue v) :: ofFields rest

end

mutual

/-- The value alone. An object is built anew, field by field. -/
def toValue : Validated → Value
  | scalar v => v
  | list items => .list (toItems items)
  | map entries => .map (toFields entries)
  | object className fields => .object className (Fields.ofList (toFields fields))
  | checked node _ => toValue node

def toItems : List Validated → List Value
  | [] => []
  | t :: rest => toValue t :: toItems rest

def toFields : List (String × Validated) → List (String × Value)
  | [] => []
  | (name, t) :: rest => (name, toValue t) :: toFields rest

end

mutual

/-- The tree as JSON. A node with checks becomes an object of its value and its checks. -/
def json : Validated → Json
  | scalar v => v.json
  | list items => .array (jsonItems items)
  | map entries => .object (jsonFields entries)
  | object _ fields => .object (Fields.ofList (jsonFields fields))
  | checked node checks => .object [("value", json node), ("checks", Checks.json checks)]

def jsonItems : List Validated → List Json
  | [] => []
  | t :: rest => json t :: jsonItems rest

def jsonFields : List (String × Validated) → List (String × Json)
  | [] => []
  | (name, t) :: rest => (name, json t) :: jsonFields rest

end

/-- The node without the checks around it. -/
def inner : Validated → Validated
  | checked node _ => node
  | node => node

/-- The checks around the node. -/
def checks? : Validated → Option Checks
  | checked _ checks => some checks
  | _ => none

def isChecked (t : Validated) : Bool := t.checks?.isSome

/-- The node one step inwards, past checks around this one. -/
def child? (t : Validated) : Step → Option Validated
  | .field name =>
    match t.inner with
    | object _ fields => Fields.find? name fields
    | _ => none
  | .index i =>
    match t.inner with
    | list items => items[i]?
    | _ => none
  | .key key =>
    match t.inner with
    | map entries => Fields.find? key entries
    | _ => none

def scalar? (t : Validated) : Option Value :=
  match t.inner with
  | scalar v => some v
  | _ => none

end Validated

end RecordCheck

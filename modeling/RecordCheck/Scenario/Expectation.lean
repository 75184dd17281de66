import RecordCheck.Scenario.Failure
import RecordCheck.Validation.Address
import RecordCheck.Value.Equality

/-!
What is expected of the outcome of one validation. Nodes are named by their addresses.
-/

namespace RecordCheck

/-- One demand on an outcome. -/
inductive Demand where
  /-- The validation succeeds. -/
  | success
  /-- It fails with an error of this cause. -/
  | error (cause : String)
  /-- An error is reported at this place. -/
  | errorAt (place : String)
  /-- It fails with an error that is not that of a constraint. -/
  | structuralError
  | check (address name : String) (passed : Bool)
  /-- The checks of a node are these, in any order. -/
  | checks (address : String) (names : List String)
  /-- A node has no checks around it. -/
  | unwrapped (address : String)
  | value (v : Value)
  /-- The tree satisfies a condition. -/
  | condition (holds : Validated → Bool)

structure Expectation where
  success : Bool := false
  error : Option String := none
  place : Option String := none
  structural : Bool := false
  checks : List (String × String × Bool) := []
  checkNames : List (String × List String) := []
  unwrapped : List String := []
  value : Option Value := none
  condition : Option (Validated → Bool) := none

namespace Expectation

/-- A demand on the tree of a success demands the success as well. Of two demands on the error,
its place, the value or the condition the later counts. -/
def demand (e : Expectation) : Demand → Expectation
  | .success => { e with success := true }
  | .error cause => { e with error := some cause }
  | .errorAt place => { e with place := some place }
  | .structuralError => { e with structural := true }
  | .check address name passed =>
    { e with success := true, checks := e.checks ++ [(address, name, passed)] }
  | .checks address names =>
    { e with success := true, checkNames := e.checkNames ++ [(address, names)] }
  | .unwrapped address => { e with success := true, unwrapped := e.unwrapped ++ [address] }
  | .value v => { e with success := true, value := some v }
  | .condition holds => { e with success := true, condition := some holds }

def ofList (demands : List Demand) : Expectation := demands.foldl demand {}

/-! ### Verification -/

def require (condition : Bool) (failure : Failure) : Except Failure Unit :=
  if condition then .ok () else .error failure

/-- The text of the place of an error, empty where it has none. -/
def placeText (error : ValidationError) : String := (error.path?.map Path.text).getD ""

def verifyError (e : Expectation) (found : ValidationError) : Except Failure Unit := do
  require (!e.success && (e.error.isSome || e.structural)) (.unexpectedError found)
  require (!e.structural || found.isStructural) (.notStructural found)
  match e.error with
  | some cause => require (found.cause == cause) (.otherError cause found)
  | none => pure ()
  match e.place with
  | some place => require (placeText found == place) (.otherPlace place (placeText found))
  | none => pure ()

def lookup (t : Validated) (address : String) : Except Failure Validated :=
  match t.node? address with
  | some node => .ok node
  | none => .error (.noNode address)

def verifyCheck (t : Validated) : String × String × Bool → Except Failure Unit
  | (address, name, passed) => do
    let node ← lookup t address
    let found := node.checks?.bind (Checks.passed? · name)
    require (found == some passed) (.otherOutcome address name passed found)

def sortNames (names : List String) : List String := names.mergeSort fun a b => decide (a ≤ b)

def verifyChecks (t : Validated) : String × List String → Except Failure Unit
  | (address, names) => do
    let node ← lookup t address
    let found := sortNames ((node.checks?.map Checks.names).getD [])
    let names := sortNames names
    require (found == names) (.otherChecks address names found)

def verifyUnwrapped (t : Validated) (address : String) : Except Failure Unit := do
  let node ← lookup t address
  require (!node.isChecked) (.wrapped address)

def verifySuccess (e : Expectation) (t : Validated) : Except Failure Unit := do
  match e.error with
  | some cause => throw (.noError cause)
  | none => pure ()
  require (!e.structural) .noStructuralError
  e.checks.forM (verifyCheck t)
  e.checkNames.forM (verifyChecks t)
  e.unwrapped.forM (verifyUnwrapped t)
  match e.value with
  | some v => require (t.toValue.strictEq v) (.otherValue v t.toValue)
  | none => pure ()
  match e.condition with
  | some holds => require (holds t) .conditionFailed
  | none => pure ()

/-- The outcome is as expected. -/
def verify (e : Expectation) : Except ValidationError Validated → Except Failure Unit
  | .error found => e.verifyError found
  | .ok t => e.verifySuccess t

end Expectation

end RecordCheck

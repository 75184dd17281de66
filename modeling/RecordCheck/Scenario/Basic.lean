import RecordCheck.Scenario.Expectation
import RecordCheck.Schema.Error
import RecordCheck.Validation.Basic

/-!
Scenarios: values that are validated against one schema, each with what is expected of the outcome.
-/

namespace RecordCheck

structure ScenarioStep where
  name : String
  type : FieldType
  value : Value
  expectation : Expectation

structure Scenario where
  name : String
  schema : Option Schema := none
  settings : Settings := {}
  steps : List ScenarioStep := []

/-- Why a scenario does not pass. -/
inductive ScenarioError where
  | missingSchema (scenario : String)
  | schema (error : SchemaError)
  /-- The outcome of a step is not as expected. -/
  | step (scenario name : String) (failure : Failure)
  deriving Repr, Inhabited

def ScenarioError.message : ScenarioError → String
  | missingSchema scenario => "scenario '" ++ scenario ++ "' has no schema"
  | schema e => "schema error: " ++ e.message
  | step scenario name failure =>
    "step '" ++ scenario ++ ":" ++ name ++ "' failed: " ++ failure.message

namespace Scenario

def runStep (scenario : Scenario) (schema : Schema) (step : ScenarioStep) :
    Except ScenarioError Unit :=
  match step.expectation.verify (schema.validate scenario.settings step.type step.value) with
  | .ok () => .ok ()
  | .error failure => .error (.step scenario.name step.name failure)

/-- Runs the steps in order, up to the first whose outcome is not as expected. -/
def run (scenario : Scenario) : Except ScenarioError Unit :=
  match scenario.schema with
  | none => .error (.missingSchema scenario.name)
  | some schema => scenario.steps.forM (scenario.runStep schema)

end Scenario

end RecordCheck

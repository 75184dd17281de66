import RecordCheck.Value.Json

/-!
The outcomes of the checks at one place, in the order in which they ran.
-/

namespace RecordCheck

/-- The outcome of one check, under the message it was declared with. -/
structure CheckResult where
  name : String
  /-- The source of the check, where it is kept. -/
  expression : Option String
  passed : Bool
  deriving DecidableEq, Repr, Inhabited

namespace CheckResult

def status (result : CheckResult) : String := if result.passed then "succeeded" else "failed"

def json (result : CheckResult) : Json :=
  .object <|
    [("name", .string result.name), ("status", .string result.status)] ++
      (result.expression.map fun source => ("expression", Json.string source)).toList

end CheckResult

abbrev Checks := List CheckResult

namespace Checks

/-- The first outcome under a name. -/
def get? (checks : Checks) (name : String) : Option CheckResult :=
  List.find? (fun result => result.name == name) checks

def passed? (checks : Checks) (name : String) : Option Bool := (get? checks name).map (·.passed)

def names (checks : Checks) : List String := List.map (·.name) checks

def allPassed (checks : Checks) : Bool := List.all checks (·.passed)

def failed (checks : Checks) : Checks := List.filter (fun result => !result.passed) checks

/-- One member for each name; of two outcomes with one name the later counts. -/
def json (checks : Checks) : Json :=
  .object (Fields.ofList (List.map (fun result => (result.name, result.json)) checks))

end Checks

end RecordCheck

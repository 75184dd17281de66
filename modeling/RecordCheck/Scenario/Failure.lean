import RecordCheck.Text.Quoted
import RecordCheck.Validation.Error
import RecordCheck.Value.Text

/-!
How the outcome of a validation can differ from what was expected of it.
-/

namespace RecordCheck

inductive Failure where
  | unexpectedError (found : ValidationError)
  /-- The error of a constraint in place of a structural one. -/
  | notStructural (found : ValidationError)
  | otherError (expected : String) (found : ValidationError)
  | otherPlace (expected found : String)
  | noError (expected : String)
  | noStructuralError
  /-- No node has the address. -/
  | noNode (address : String)
  | otherOutcome (address check : String) (expected : Bool) (found : Option Bool)
  | otherChecks (address : String) (expected found : List String)
  /-- A node with checks that should have none. -/
  | wrapped (address : String)
  | otherValue (expected found : Value)
  | conditionFailed
  deriving Repr, Inhabited

namespace Failure

def boolText (b : Bool) : String := if b then "true" else "false"

def outcomeText : Option Bool → String
  | none => "None"
  | some b => "Some(" ++ boolText b ++ ")"

def namesText (names : List String) : String :=
  "[" ++ String.intercalate ", " (names.map Text.quoted) ++ "]"

def message : Failure → String
  | unexpectedError found => "expected success, got error: " ++ found.message
  | notStructural found => "expected a structural error, got: " ++ found.message
  | otherError expected found =>
    "expected error '" ++ expected ++ "', got: " ++ found.message
  | otherPlace expected found =>
    "expected error at '" ++ expected ++ "', got it at '" ++ found ++ "'"
  | noError expected => "expected error '" ++ expected ++ "', but validation succeeded"
  | noStructuralError => "expected a structural error, but validation succeeded"
  | noNode address => "no node at path '" ++ address ++ "'"
  | otherOutcome address check expected found =>
    "expected check '" ++ check ++ "' at '" ++ address ++ "' to be " ++ boolText expected ++
      ", got " ++ outcomeText found
  | otherChecks address expected found =>
    "expected checks " ++ namesText expected ++ " at '" ++ address ++ "', got " ++
      namesText found
  | wrapped address => "expected '" ++ address ++ "' to be unwrapped"
  | otherValue expected found => "expected value " ++ expected.text ++ ", got " ++ found.text
  | conditionFailed => "custom assertion returned false"

end Failure

end RecordCheck

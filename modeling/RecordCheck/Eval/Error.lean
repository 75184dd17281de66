import RecordCheck.Expr.Basic
import RecordCheck.Value.Text

/-!
Why an expression has no value.
-/

namespace RecordCheck

/-- An operand or argument of the wrong kind. Kinds are given by their names. -/
inductive TypeFault where
  | overflow
  | arithmetic (op : BinaryOp) (left right : String)
  | negation (operand : String)
  | complement (operand : String)
  /-- An operand of `and` or `or`. -/
  | logical (op : BinaryOp) (operand : String)
  | comparison (op : CompareOp) (left right : String)
  | membership (needle haystack : String)
  | access (field base : String)
  | index (base index : String)
  | matching (operand : String)
  | length (operand : String)
  /-- An argument that is not what the function expects. -/
  | argument (function expected found : String)
  | argumentPair (function expected left right : String)
  /-- An argument that has to be a text of a certain meaning. -/
  | missing (function expected : String)
  | unordered (function left right : String)
  deriving DecidableEq, Repr, Inhabited

namespace TypeFault

def message : TypeFault → String
  | overflow => "integer overflow"
  | arithmetic op left right =>
    "cannot apply '" ++ op.text ++ "' to " ++ left ++ " and " ++ right
  | negation operand => "cannot negate " ++ operand
  | complement operand => "cannot apply 'not' to " ++ operand
  | logical op operand => "'" ++ op.text ++ "' expects booleans, got " ++ operand
  | comparison op left right => "cannot compare " ++ left ++ " " ++ op.text ++ " " ++ right
  | membership needle haystack => "cannot test " ++ needle ++ " membership in " ++ haystack
  | access field base => "cannot access field '" ++ field ++ "' on " ++ base
  | index base i => "cannot index " ++ base ++ " with " ++ i
  | matching operand => "cannot match " ++ operand ++ " against a regular expression"
  | length operand => operand ++ " has no length"
  | argument function expected found =>
    function ++ " expects " ++ expected ++ ", got " ++ found
  | argumentPair function expected left right =>
    function ++ " expects " ++ expected ++ ", got " ++ left ++ " and " ++ right
  | missing function expected => function ++ " expects " ++ expected
  | unordered function left right => function ++ " cannot compare " ++ left ++ " and " ++ right

end TypeFault

inductive EvalError where
  /-- A field that an object does not have. -/
  | unknownField (field className : String)
  /-- A key that a map does not have. -/
  | missingKey (key : String)
  | indexOutOfRange (index : Int64) (length : Nat)
  | type (fault : TypeFault)
  | unknownFunction (name : String)
  | arity (name expected : String) (found : Nat)
  /-- A pattern that came as a value and is no regular expression. -/
  | invalidRegex (pattern : String) (reason : Regex.Reason)
  | divisionByZero
  /-- The value of a constraint is neither a boolean nor null. -/
  | notBoolean (found : String)
  deriving DecidableEq, Repr, Inhabited

namespace EvalError

def message : EvalError → String
  | unknownField field className => "unknown field '" ++ field ++ "' on " ++ className
  | missingKey key => "missing key '" ++ key ++ "'"
  | indexOutOfRange index length =>
    "index " ++ intText index ++ " out of range for length " ++ toString length
  | type fault => "type error: " ++ fault.message
  | unknownFunction name => "unknown function '" ++ name ++ "'"
  | arity name expected found =>
    name ++ " expects " ++ expected ++ " argument(s), got " ++ toString found
  | invalidRegex pattern reason =>
    "invalid regular expression '" ++ pattern ++ "': " ++ reason.message
  | divisionByZero => "division by zero"
  | notBoolean found => "constraint must evaluate to a boolean, got " ++ found

end EvalError

end RecordCheck

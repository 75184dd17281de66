import RecordCheck.Eval.Error
import RecordCheck.Validation.Path

/-!
Why a value is not valid. An error is either that of a constraint or structural: the value does
not have the shape that its type asks for.
-/

namespace RecordCheck

inductive ValidationError where
  /-- An assertion that does not hold. -/
  | assertionFailed (constraint : String) (path : Path) (expression : Option String)
  /-- A constraint without a verdict. -/
  | evaluation (constraint : String) (path : Path) (expression : Option String)
      (error : EvalError)
  | typeMismatch (path : Path) (expected found : String)
  | unknownClass (name : String)
  /-- A value that lies more than `limit` steps inside. -/
  | depthExceeded (path : Path) (limit : Nat)
  deriving DecidableEq, Repr, Inhabited

namespace ValidationError

def message : ValidationError → String
  | assertionFailed constraint path _ =>
    "assertion '" ++ constraint ++ "' failed at " ++ path.text
  | evaluation constraint path _ e =>
    "constraint '" ++ constraint ++ "' could not be evaluated at " ++ path.text ++ ": " ++ e.message
  | typeMismatch path expected found =>
    "type mismatch at " ++ path.text ++ ": expected " ++ expected ++ ", found " ++ found
  | unknownClass name => "unknown class: " ++ name
  | depthExceeded path limit =>
    "maximum nesting depth " ++ toString limit ++ " exceeded at " ++ path.text

/-- The message of the constraint as it was declared, or for a structural error its own. -/
def cause : ValidationError → String
  | assertionFailed constraint _ _ => constraint
  | evaluation constraint _ _ _ => constraint
  | e => e.message

/-- The place of the error. -/
def path? : ValidationError → Option Path
  | assertionFailed _ path _ => some path
  | evaluation _ path _ _ => some path
  | typeMismatch path _ _ => some path
  | depthExceeded path _ => some path
  | unknownClass _ => none

/-- The source of the constraint, where it is kept. -/
def expression? : ValidationError → Option String
  | assertionFailed _ _ expression => expression
  | evaluation _ _ expression _ => expression
  | _ => none

def isAssertion : ValidationError → Bool
  | assertionFailed .. => true
  | _ => false

def isStructural : ValidationError → Bool
  | assertionFailed .. => false
  | evaluation .. => false
  | _ => true

end ValidationError

end RecordCheck

import RecordCheck.Eval.Basic
import RecordCheck.Schema.Basic
import RecordCheck.Settings.Basic
import RecordCheck.Validation.Checks
import RecordCheck.Validation.Error

/-!
Running the constraints of one place, in the order of their declaration. The first assertion that
does not hold and the first constraint without a verdict end the run.
-/

namespace RecordCheck

/-- A constraint applies in the alternative that the value lives in. Without a known one only
constraints apply that are bound to none. -/
def Constraint.appliesIn (c : Constraint) : Option Tag → Bool
  | some tag => c.appliesTo tag
  | none => c.variant.isNone

namespace Settings

/-- The source of a constraint, if the settings keep it. -/
def expression? (settings : Settings) (c : Constraint) : Option String :=
  if settings.includeExpressions then some c.formula.source else none

/-- Runs one constraint. A check has an outcome to record. -/
def runConstraint (settings : Settings) (path : Path) (ctx : Eval.Context) (c : Constraint) :
    Except ValidationError (Option CheckResult) :=
  match Eval.holds? ctx c.formula.expr, c.kind with
  | .error e, _ => .error (.evaluation c.message path (settings.expression? c) e)
  | .ok true, .assert => .ok none
  | .ok false, .assert => .error (.assertionFailed c.message path (settings.expression? c))
  | .ok passed, .check => .ok (some ⟨c.message, settings.expression? c, passed⟩)

/-- Runs constraints one after another. -/
def runAll (settings : Settings) (path : Path) (ctx : Eval.Context) :
    List Constraint → Except ValidationError Checks
  | [] => .ok []
  | c :: rest => do
    let outcome ← settings.runConstraint path ctx c
    let outcomes ← settings.runAll path ctx rest
    return outcome.toList ++ outcomes

/-- Runs those constraints that apply in an alternative. -/
def runConstraints (settings : Settings) (path : Path) (ctx : Eval.Context) (tag : Option Tag)
    (constraints : List Constraint) : Except ValidationError Checks :=
  settings.runAll path ctx (constraints.filter (·.appliesIn tag))

end Settings

end RecordCheck

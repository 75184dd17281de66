import RecordCheck.Proofs.Results
import RecordCheck.Validation.Constraints

/-! Running the constraints of one place succeeds exactly if each of them is met, in any order, and
records the outcomes of the checks. -/

namespace RecordCheck

open Results

/-- The constraint has a verdict, and an assertion holds. -/
def Constraint.Met (ctx : Eval.Context) (c : Constraint) : Prop :=
  ∃ verdict, Eval.holds? ctx c.formula.expr = .ok verdict ∧ (c.kind = .assert → verdict = true)

/-- Every constraint that applies in an alternative is met. -/
def MetIn (tag : Option Tag) (ctx : Eval.Context) (constraints : List Constraint) : Prop :=
  ∀ c ∈ constraints, c.appliesIn tag = true → c.Met ctx

/-- The checks that apply in an alternative. -/
def checksIn (tag : Option Tag) (constraints : List Constraint) : List Constraint :=
  (constraints.filter (·.appliesIn tag)).filter Constraint.isCheck

/-- A check is declared, in whichever alternative it applies. -/
def DeclaresCheck (constraints : List Constraint) : Prop := ∃ c ∈ constraints, c.kind = .check

instance (constraints : List Constraint) : Decidable (DeclaresCheck constraints) :=
  inferInstanceAs (Decidable (∃ c ∈ constraints, c.kind = .check))

theorem any_isCheck_iff {constraints : List Constraint} :
    constraints.any Constraint.isCheck = true ↔ DeclaresCheck constraints := by
  simp [DeclaresCheck, Constraint.isCheck]

theorem Field.hasChecks_iff {f : Field} : f.hasChecks = true ↔ DeclaresCheck f.constraints :=
  any_isCheck_iff

theorem Class.hasChecks_iff {c : Class} : c.hasChecks = true ↔ DeclaresCheck c.constraints :=
  any_isCheck_iff

namespace Settings

variable {settings : Settings} {path : Path} {ctx : Eval.Context}

/-- What is recorded of a check: its name, its source text if expressions are included, and whether
it holds. -/
def outcome (settings : Settings) (ctx : Eval.Context) (c : Constraint) : CheckResult :=
  ⟨c.message, if settings.includeExpressions then some c.formula.source else none,
    (Eval.holds? ctx c.formula.expr).toOption == some true⟩

theorem runConstraint_eq_ok {c : Constraint} {result : Option CheckResult} :
    settings.runConstraint path ctx c = .ok result ↔
      c.Met ctx ∧ result = if c.isCheck then some (settings.outcome ctx c) else none := by
  obtain ⟨kind, message, formula, variant⟩ := c
  simp only [runConstraint, expression?, Constraint.Met, outcome, Constraint.isCheck]
  cases Eval.holds? ctx formula.expr with
  | error e => simp
  | ok verdict =>
    cases kind with
    | check => cases verdict <;> simpa [Except.toOption] using eq_comm
    | assert =>
      cases verdict with
      | true => simpa using eq_comm
      | false => simp

theorem runAll_eq_ok {constraints : List Constraint} {checks : Checks} :
    settings.runAll path ctx constraints = .ok checks ↔
      (∀ c ∈ constraints, c.Met ctx) ∧
        checks = (constraints.filter Constraint.isCheck).map (settings.outcome ctx) := by
  induction constraints generalizing checks with
  | nil => simp [runAll, eq_comm]
  | cons c rest ih =>
    simp only [runAll, bind_eq_ok, pure_eq_ok, runConstraint_eq_ok, ih, List.forall_mem_cons,
      List.filter_cons]
    constructor
    · intro h
      obtain ⟨_, ⟨hc, rfl⟩, _, ⟨hr, rfl⟩, rfl⟩ := h
      refine ⟨⟨hc, hr⟩, ?_⟩
      split <;> simp
    · intro h
      obtain ⟨⟨hc, hr⟩, rfl⟩ := h
      refine ⟨_, ⟨hc, rfl⟩, _, ⟨hr, rfl⟩, ?_⟩
      split <;> simp

theorem runConstraints_eq_ok {tag : Option Tag} {constraints : List Constraint}
    {checks : Checks} :
    settings.runConstraints path ctx tag constraints = .ok checks ↔
      MetIn tag ctx constraints ∧
        checks = (checksIn tag constraints).map (settings.outcome ctx) := by
  rw [runConstraints, runAll_eq_ok]
  simp [MetIn, checksIn]

end Settings

theorem names_outcomes (settings : Settings) (ctx : Eval.Context) (ks : List Constraint) :
    Checks.names (ks.map (settings.outcome ctx)) = ks.map (·.message) := by
  simp [Checks.names, Settings.outcome]

end RecordCheck

/-!
The settings of a validation.
-/

namespace RecordCheck

structure Settings where
  /-- Values at places of more steps than this are refused. -/
  maxDepth : Nat := 128
  /-- Independent values may be validated at the same time. The results are the same. -/
  parallelBatches : Bool := false
  /-- Outcomes and errors keep the sources of their constraints. -/
  includeExpressions : Bool := true
  deriving DecidableEq, Repr, Inhabited

end RecordCheck

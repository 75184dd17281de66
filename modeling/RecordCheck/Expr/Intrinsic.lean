import RecordCheck.Text.Case

/-!
The functions that expressions can call, and how many arguments each takes.
-/

namespace RecordCheck

/-- The numbers of arguments that a function takes. A value piped into it counts as the first. -/
inductive Arity where
  | exactly (n : Nat)
  | between (least most : Nat)
  | atLeast (n : Nat)
  deriving DecidableEq, Repr, Inhabited

namespace Arity

def accepts (arity : Arity) (count : Nat) : Bool :=
  match arity with
  | exactly n => count == n
  | between least most => decide (least ≤ count ∧ count ≤ most)
  | atLeast n => decide (n ≤ count)

def text : Arity → String
  | exactly n => toString n
  | between least most => toString least ++ " or " ++ toString most
  | atLeast n => "at least " ++ toString n

end Arity

inductive Intrinsic where
  | length
  | lower
  | upper
  | trim
  | unique
  | sum
  | abs
  | keys
  | values
  | first
  | last
  | isNull
  | contains
  | startsWith
  | endsWith
  | regexMatch
  | pluck
  | round
  | min
  | max
  deriving DecidableEq, Repr, Inhabited

namespace Intrinsic

/-- The function with a name in small letters. -/
def ofLowerName? (name : String) : Option Intrinsic :=
  match name with
  | "length" => some length
  | "len" => some length
  | "lower" => some lower
  | "upper" => some upper
  | "trim" => some trim
  | "unique" => some unique
  | "sum" => some sum
  | "abs" => some abs
  | "keys" => some keys
  | "values" => some values
  | "first" => some first
  | "last" => some last
  | "is_null" => some isNull
  | "contains" => some contains
  | "starts_with" => some startsWith
  | "ends_with" => some endsWith
  | "regex_match" => some regexMatch
  | "pluck" => some pluck
  | "map" => some pluck
  | "round" => some round
  | "min" => some min
  | "max" => some max
  | _ => none

/-- The function with a name in any case. -/
def ofName? (name : String) : Option Intrinsic := ofLowerName? (Text.lower name)

/-- The numbers of arguments for which a function is defined. -/
def arity : Intrinsic → Arity
  | contains => .exactly 2
  | startsWith => .exactly 2
  | endsWith => .exactly 2
  | regexMatch => .exactly 2
  | pluck => .exactly 2
  | round => .between 1 2
  | min => .atLeast 1
  | max => .atLeast 1
  | _ => .exactly 1

end Intrinsic

/-- The numbers of arguments that a call by a name in small letters can have. -/
def arityOfLowerName? (name : String) : Option Arity :=
  match name with
  | "length" | "len" | "lower" | "upper" | "trim" | "unique" | "sum" | "abs" | "keys" | "values"
  | "first" | "last" | "is_null" => some (.exactly 1)
  | "contains" | "starts_with" | "ends_with" | "regex_match" | "pluck" | "map" =>
    some (.exactly 2)
  | "round" => some (.between 1 2)
  | "min" | "max" => some (.atLeast 1)
  | _ => none

/-- The numbers of arguments that a call by a name in any case can have; none if no function has
the name. Calls are checked against this table before anything is evaluated. -/
def arityOf? (name : String) : Option Arity := arityOfLowerName? (Text.lower name)

end RecordCheck

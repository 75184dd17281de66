import RecordCheck.Value.Basic

/-!
Equality of values: strict equality keeps integers and floats apart, loose equality compares them
as numbers. Both look into lists, maps and objects item by item, and no NaN equals anything.
-/

namespace RecordCheck.Value

mutual

/-- Equality; with `mixed` an integer equals the float that it is widened to. -/
def alike (mixed : Bool) : Value → Value → Bool
  | null, null => true
  | bool a, bool b => a == b
  | int a, int b => a == b
  | float x, float y => x.numEq y
  | int a, float y => mixed && (Double.ofInt a.toInt).numEq y
  | float x, int b => mixed && (Double.ofInt b.toInt).numEq x
  | string a, string b => a == b
  | member e a, member f b => e == f && a == b
  | list xs, list ys => alikeItems mixed xs ys
  | map xs, map ys => alikeFields mixed xs ys
  | object c xs, object d ys => c == d && alikeFields mixed xs ys
  | _, _ => false

def alikeItems (mixed : Bool) : List Value → List Value → Bool
  | [], [] => true
  | x :: xs, y :: ys => alike mixed x y && alikeItems mixed xs ys
  | _, _ => false

def alikeFields (mixed : Bool) : List (String × Value) → List (String × Value) → Bool
  | [], [] => true
  | (m, x) :: xs, (n, y) :: ys => m == n && alike mixed x y && alikeFields mixed xs ys
  | _, _ => false

end

/-- Equality of kind and content. -/
def strictEq (x y : Value) : Bool := alike false x y

/-- Equality of content, where integers and floats are numbers alike. -/
def looseEq (x y : Value) : Bool := alike true x y

end RecordCheck.Value

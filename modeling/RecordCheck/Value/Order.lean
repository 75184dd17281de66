import RecordCheck.Value.Basic

/-!
The order of values. Numbers are ordered by size, an integer beside a float being widened first;
strings by their characters; `false` comes before `true`. Other pairs have no order.
-/

namespace RecordCheck

/-- The order of two texts, character by character. -/
def compareText (a b : String) : Ordering := compareOfLessAndEq a b

namespace Value

def compare? : Value → Value → Option Ordering
  | int a, int b => some (compare a.toInt b.toInt)
  | float x, float y => x.compare? y
  | int a, float y => (Double.ofInt a.toInt).compare? y
  | float x, int b => x.compare? (Double.ofInt b.toInt)
  | string a, string b => some (compareText a b)
  | bool a, bool b => some (compare a b)
  | _, _ => none

end Value

end RecordCheck

import RecordCheck.Double.Decimal

/-!
The shortest decimal that reads back as a given double, and the text of a double. Of the decimals
that round to the double those with the largest power of ten are the shortest; of these the
nearest is taken, and at a tie the larger.
-/

namespace RecordCheck.Double

/-- The magnitudes next to `m` bound the numbers that round to it. All in half units: the lower
bound, the number itself and the upper bound. -/
def interval (m : Nat) : Nat × Nat × Nat :=
  (unitsOf (m - 1) + unitsOf m, 2 * unitsOf m, unitsOf m + unitsOf (m + 1))

/-- Whether `c · 10 ^ p` rounds to the magnitude `m`. The bounds themselves go to the even
neighbour. -/
def readsBack (m : Nat) (c : Nat) (p : Int) : Bool :=
  let (lo, _, hi) := interval m
  let n := c * Nat.pow 10 p.toNat * (2 * unitsInOne)
  let scale := Nat.pow 10 (-p).toNat
  if m % 2 = 0 then decide (lo * scale ≤ n ∧ n ≤ hi * scale)
  else decide (lo * scale < n ∧ n < hi * scale)

/-- Of the two multiples of `10 ^ p` around the magnitude `m` one that rounds to it: the nearer if
both do, and at a tie the larger. -/
def onGrid? (m : Nat) (p : Int) : Option Nat :=
  let n := unitsOf m * Nat.pow 10 (-p).toNat
  let d := unitsInOne * Nat.pow 10 p.toNat
  let below := readsBack m (n / d) p
  let above := readsBack m (n / d + 1) p
  if above && (!below || decide (d ≤ 2 * (n % d))) then some (n / d + 1)
  else if below then some (n / d)
  else none

/-- A power of ten above the magnitude, from the place of its leading bit. -/
def powerAbove (m : Nat) : Int :=
  ((((interval m).2.2.log2 : Int) - 1075) * 30103) / 100000 + 2

/-- The powers of ten that can carry the shortest decimal, the largest first. Seventeen digits
tell any two doubles apart, so they are among these. -/
def powersBelow (m : Nat) : List Int :=
  (List.range 24).map fun (i : Nat) => powerAbove m - i

/-- The shortest decimal of a positive finite magnitude. -/
def shortest (m : Nat) : Decimal :=
  ((powersBelow m).findSome? fun p => (onGrid? m p).map (⟨·, p⟩)).getD
    ⟨unitsOf m * Nat.pow 5 1074, -1074⟩

/-- A double as text: `NaN`, `inf`, or the shortest decimal in positional form, with a sign before
any negative number, zero included. -/
def text (x : Double) : String :=
  if x.isNaN then "NaN"
  else
    let body :=
      if x.isInfinite then "inf".toList
      else if x.isZero then ['0']
      else (shortest x.magnitude).positional
    String.ofList (if x.isNegative then '-' :: body else body)

end RecordCheck.Double
